import Mathlib.Tactic.Tauto
import TaintPolicy.Proofs.DecimalText
import TaintPolicy.Proofs.FlowTokens
import TaintPolicy.Proofs.PlainValues

/-!
# The tokens of written JSON

A plain value in the pretty layout is cut into tokens that follow its structure, whatever its texts
hold; only a line that looks like the mark of a document, and a character that YAML does not allow,
stop the scanner.
-/

namespace TaintPolicy

open Yaml

namespace Json

mutual

/-- The tokens of a value. -/
def tokens : Json → List Token
  | str s => [.scalar (refolded s.toList) false]
  | arr [] => [.flowSequenceStart, .flowSequenceEnd]
  | arr (v :: vs) => .flowSequenceStart :: (tokens v ++ itemTokens vs)
  | obj [] => [.flowMappingStart, .flowMappingEnd]
  | obj ((k, v) :: fs) =>
    .flowMappingStart :: (nameTokens k.toList ++ (tokens v ++ fieldTokens fs))
  | v => [.scalar v.compact true]

def itemTokens : List Json → List Token
  | [] => [.flowSequenceEnd]
  | v :: vs => .flowEntry :: (tokens v ++ itemTokens vs)

def fieldTokens : List (String × Json) → List Token
  | [] => [.flowMappingEnd]
  | (k, v) :: fs => .flowEntry :: (nameTokens k.toList ++ (tokens v ++ fieldTokens fs))

end

/-- Every text and every name lacks document marks. -/
def IsUnmarked (v : Json) : Prop :=
  v.Every (fun s => Unmarked s.toList) (fun k => Unmarked k.toList)

/-- Inside a collection the text of the value is scanned as its tokens. -/
def IsScanned (v : Json) : Prop :=
  ∀ {s : Scan} {key : Bool} {depth : Nat} {rest : List Char} {ts : List Token} (level : Nat),
    Scan.Stands s key (depth + 1) ((prettyChars level v).map unifyBreak ++ rest) ts → Closed rest →
    Scan.Leads s v.IsUnmarked fun t =>
      Scan.Stands t false (depth + 1) rest (v.tokens.reverse ++ ts)

section texts

theorem map_unifyBreak_newline (level : Nat) : (newline level).map unifyBreak = newline level := by
  simp [newline, unifyBreak]

theorem isFiller_of_mem_newline {level : Nat} : ∀ c ∈ newline level, isFiller c = true := by
  simp [newline, isFiller]

theorem map_unifyBreak_quoted (s : String) :
    (quoted s).map unifyBreak = '"' :: (shown s.toList ++ ['"']) := by
  simp [quoted, shown, unifyBreak]

end texts

section scanning

variable {s : Scan} {key : Bool} {depth : Nat} {rest : List Char} {ts : List Token}

theorem closed_prettyItems (level : Nat) (vs : List Json) (rest : List Char) :
    Closed ((prettyItems level vs).map unifyBreak ++ rest) := by
  cases vs with
  | nil =>
    refine ⟨']', rest, ?_, .inr ⟨_, .list⟩⟩
    simp only [prettyItems, List.map_append, map_unifyBreak_newline, List.append_assoc]
    rw [List.dropWhile_append_of_pos isFiller_of_mem_newline]
    rfl
  | cons v vs => exact ⟨',', _, rfl, .inl rfl⟩

theorem closed_prettyFields (level : Nat) (fs : List (String × Json)) (rest : List Char) :
    Closed ((prettyFields level fs).map unifyBreak ++ rest) := by
  cases fs with
  | nil =>
    refine ⟨'}', rest, ?_, .inr ⟨_, .object⟩⟩
    simp only [prettyFields, List.map_append, map_unifyBreak_newline, List.append_assoc]
    rw [List.dropWhile_append_of_pos isFiller_of_mem_newline]
    rfl
  | cons f fs => exact ⟨',', _, rfl, .inl rfl⟩

theorem isScanned_str (text : String) : (str text).IsScanned := by
  intro s key depth rest ts level h _
  rw [prettyChars, map_unifyBreak_quoted, List.cons_append, List.append_assoc] at h
  exact h.text

theorem numberChars_natCast (n : Nat) : numberChars (.int n) = Nat.toDigits 10 n := by
  rw [← Nat.toList_repr]
  rfl

theorem isScanned_ofWord (n : UInt64) : (ofWord n).IsScanned := by
  intro s key depth rest ts level h hr
  obtain ⟨c, ds, he, hd⟩ := exists_toDigits_eq_cons n.toNat
  have hu : (c :: ds).map unifyBreak = c :: ds :=
    map_unifyBreak_of_isGraphic fun d hm => isGraphic_of_isDigit (hd d hm)
  have ht : (ofWord n).tokens = [.scalar (String.ofList (c :: ds)) true] := by
    rw [← he, ← numberChars_natCast]
    simp [ofWord, tokens, compact, compactChars]
  rw [ofWord, prettyChars, numberChars_natCast, he, hu] at h
  rw [ht]
  exact (Scan.Leads.of_arrival (h.digits hd hr)).congr (by simp [ofWord, IsUnmarked, Every])
    fun t ht => ht

/-- An item on its line. -/
theorem leads_item {v : Json} (hv : v.IsScanned) (level : Nat) (hr : Closed rest)
    (h : s.Stands key (depth + 1) ((newline level ++ prettyChars level v).map unifyBreak ++ rest) ts) :
    s.Leads v.IsUnmarked fun t => t.Stands false (depth + 1) rest (v.tokens.reverse ++ ts) := by
  rw [List.map_append, map_unifyBreak_newline, List.append_assoc] at h
  exact hv level (h.of_gap isFiller_of_mem_newline) hr

/-- A field on its line. -/
theorem leads_field {k : String} {v : Json} (hv : v.IsScanned) (level : Nat) (hr : Closed rest)
    (h : s.Stands true (depth + 1)
      ((newline level ++ quoted k ++ ':' :: ' ' :: prettyChars level v).map unifyBreak ++ rest) ts) :
    s.Leads (Unmarked k.toList ∧ v.IsUnmarked) fun t =>
      t.Stands false (depth + 1) rest (v.tokens.reverse ++ ((nameTokens k.toList).reverse ++ ts)) := by
  rw [List.map_append, List.map_append, map_unifyBreak_newline, map_unifyBreak_quoted,
    List.append_assoc, List.append_assoc, List.cons_append, List.append_assoc] at h
  have hname := (h.of_gap isFiller_of_mem_newline).name
  refine hname.trans fun t ht => ?_
  have hgap : t.Stands false (depth + 1) ([' '] ++ ((prettyChars level v).map unifyBreak ++ rest))
    ((nameTokens k.toList).reverse ++ ts) := ht
  exact hv level (hgap.of_gap (by simp [isFiller])) hr

/-- From behind one item to behind the list. -/
theorem leads_prettyItems {vs : List Json} (hvs : ∀ v ∈ vs, v.IsScanned) (level : Nat)
    (h : s.Stands key (depth + 1) ((prettyItems level vs).map unifyBreak ++ rest) ts) :
    s.Leads (∀ v ∈ vs, v.IsUnmarked) fun t =>
      t.Stands false depth rest ((itemTokens vs).reverse ++ ts) := by
  induction vs generalizing s key ts with
  | nil =>
    rw [prettyItems, List.map_append, map_unifyBreak_newline, List.append_assoc] at h
    have hclose := (h.of_gap isFiller_of_mem_newline).closes .list
    exact (Scan.Leads.of_arrival hclose).congr (by simp) fun t ht => ht
  | cons v vs ih =>
    obtain ⟨hv, hvs⟩ := List.forall_mem_cons.mp hvs
    rw [prettyItems, List.map_cons, List.map_append, List.cons_append, List.append_assoc] at h
    refine .of_steps h.comma fun t ht => ?_
    have hitem := leads_item hv (level + 1) (closed_prettyItems level vs rest) ht
    refine (hitem.trans fun u hu => ih hvs hu).congr List.forall_mem_cons.symm fun u hu => ?_
    simpa [itemTokens] using hu

/-- From behind one field to behind the object. -/
theorem leads_prettyFields {fs : List (String × Json)} (hfs : ∀ f ∈ fs, f.2.IsScanned) (level : Nat)
    (h : s.Stands key (depth + 1) ((prettyFields level fs).map unifyBreak ++ rest) ts) :
    s.Leads (∀ f ∈ fs, Unmarked f.1.toList ∧ f.2.IsUnmarked) fun t =>
      t.Stands false depth rest ((fieldTokens fs).reverse ++ ts) := by
  induction fs generalizing s key ts with
  | nil =>
    rw [prettyFields, List.map_append, map_unifyBreak_newline, List.append_assoc] at h
    have hclose := (h.of_gap isFiller_of_mem_newline).closes .object
    exact (Scan.Leads.of_arrival hclose).congr (by simp) fun t ht => ht
  | cons f fs ih =>
    obtain ⟨hv, hfs⟩ := List.forall_mem_cons.mp hfs
    rw [prettyFields, List.map_cons, List.map_append, List.cons_append, List.append_assoc] at h
    refine .of_steps h.comma fun t ht => ?_
    have hfield := leads_field hv (level + 1) (closed_prettyFields level fs rest) ht
    refine (hfield.trans fun u hu => ih hfs hu).congr ?_ fun u hu => ?_
    · rw [List.forall_mem_cons]
    · simpa [fieldTokens] using hu

theorem leads_arr {vs : List Json} (hvs : ∀ v ∈ vs, v.IsScanned) (level : Nat)
    (h : s.Stands key depth ((prettyChars level (arr vs)).map unifyBreak ++ rest) ts) :
    s.Leads (arr vs).IsUnmarked fun t => t.Stands false depth rest ((arr vs).tokens.reverse ++ ts) := by
  have hok : (arr vs).IsUnmarked ↔ ∀ v ∈ vs, v.IsUnmarked := everyItem_iff
  cases vs with
  | nil =>
    refine .of_steps (h.opens .list) fun t ht => ?_
    exact (Scan.Leads.of_arrival (ht.closes .list)).congr (by simp [hok]) fun u hu => hu
  | cons v vs =>
    obtain ⟨hv, hvs⟩ := List.forall_mem_cons.mp hvs
    rw [prettyChars, List.map_cons, List.map_append, List.cons_append, List.append_assoc] at h
    refine .of_steps (h.opens .list) fun t ht => ?_
    have hitem := leads_item hv (level + 1) (closed_prettyItems level vs rest) ht
    refine (hitem.trans fun u hu => leads_prettyItems hvs level hu).congr ?_ fun u hu => ?_
    · rw [hok, List.forall_mem_cons]
    · simpa [tokens] using hu

theorem leads_obj {fs : List (String × Json)} (hfs : ∀ f ∈ fs, f.2.IsScanned) (level : Nat)
    (h : s.Stands key depth ((prettyChars level (obj fs)).map unifyBreak ++ rest) ts) :
    s.Leads (obj fs).IsUnmarked fun t => t.Stands false depth rest ((obj fs).tokens.reverse ++ ts) := by
  have hok : (obj fs).IsUnmarked ↔ ∀ f ∈ fs, Unmarked f.1.toList ∧ f.2.IsUnmarked := everyField_iff
  cases fs with
  | nil =>
    refine .of_steps (h.opens .object) fun t ht => ?_
    exact (Scan.Leads.of_arrival (ht.closes .object)).congr (by simp [hok]) fun u hu => hu
  | cons f fs =>
    obtain ⟨hv, hfs⟩ := List.forall_mem_cons.mp hfs
    rw [prettyChars, List.map_cons, List.map_append, List.cons_append, List.append_assoc] at h
    refine .of_steps (h.opens .object) fun t ht => ?_
    have hfield := leads_field hv (level + 1) (closed_prettyFields level fs rest) ht
    refine (hfield.trans fun u hu => leads_prettyFields hfs level hu).congr ?_ fun u hu => ?_
    · rw [hok, List.forall_mem_cons]
    · simpa [tokens] using hu

theorem IsPlain.isScanned {depth : Nat} {v : Json} (h : v.IsPlain depth) : v.IsScanned := by
  induction h with
  | str text => exact isScanned_str text
  | count n => exact isScanned_ofWord n
  | arr _ ih => exact fun level hs _ => leads_arr ih level hs
  | obj _ _ ih => exact fun level hs _ => leads_obj ih level hs

end scanning

section characters

/-- All characters that JSON writes for a text satisfy `P`. -/
def Writes (P : Char → Prop) (s : String) : Prop := ∀ c ∈ s.toList.flatMap escaped, P c

/-- Holds for the characters that JSON writes around texts. -/
def HoldsAround (P : Char → Prop) : Prop := ∀ c, isGraphic c = true ∨ c = '\n' → P c

variable {P : Char → Prop}

theorem HoldsAround.newline (hP : HoldsAround P) (level : Nat) : ∀ c ∈ newline level, P c := by
  intro c hc
  rcases isFiller_iff.mp (isFiller_of_mem_newline c hc) with rfl | rfl
  · exact hP _ (.inl rfl)
  · exact hP _ (.inr rfl)

theorem HoldsAround.quoted (hP : HoldsAround P) (s : String) :
    (∀ c ∈ quoted s, P c) ↔ Writes P s := by
  have hq : ∀ c ∈ ['"'], P c := fun c hc => hP c (.inl (List.mem_singleton.mp hc ▸ rfl))
  rw [Json.quoted, ← List.singleton_append, List.forall_mem_append, List.forall_mem_append]
  exact ⟨fun h => h.1.2, fun h => ⟨⟨hq, h⟩, hq⟩⟩

theorem HoldsAround.item (hP : HoldsAround P) {v : Json} {level : Nat} {cs : List Char}
    (h : (∀ c ∈ prettyChars level v, P c) ↔ v.Every (Writes P) (Writes P)) :
    (∀ c ∈ Json.newline level ++ prettyChars level v ++ cs, P c) ↔
      v.Every (Writes P) (Writes P) ∧ ∀ c ∈ cs, P c := by
  rw [List.forall_mem_append, List.forall_mem_append, h]
  exact and_congr_left' (and_iff_right (hP.newline level))

theorem HoldsAround.field (hP : HoldsAround P) {k : String} {v : Json} {level : Nat}
    {cs : List Char} (h : (∀ c ∈ prettyChars level v, P c) ↔ v.Every (Writes P) (Writes P)) :
    (∀ c ∈ Json.newline level ++ Json.quoted k ++ ':' :: ' ' :: prettyChars level v ++ cs, P c) ↔
      (Writes P k ∧ v.Every (Writes P) (Writes P)) ∧ ∀ c ∈ cs, P c := by
  have hc : P ':' := hP _ (.inl rfl)
  have hs : P ' ' := hP _ (.inl rfl)
  rw [List.forall_mem_append, List.forall_mem_append, List.forall_mem_append, List.forall_mem_cons,
    List.forall_mem_cons, hP.quoted, h]
  have hn := hP.newline level
  tauto

theorem HoldsAround.prettyItems (hP : HoldsAround P) {vs : List Json} (level : Nat)
    (h : ∀ v ∈ vs, (∀ c ∈ prettyChars (level + 1) v, P c) ↔ v.Every (Writes P) (Writes P)) :
    (∀ c ∈ Json.prettyItems level vs, P c) ↔ ∀ v ∈ vs, v.Every (Writes P) (Writes P) := by
  induction vs with
  | nil =>
    have hb : P ']' := hP _ (.inl rfl)
    rw [Json.prettyItems, List.forall_mem_append]
    simpa [hb] using hP.newline level
  | cons v vs ih =>
    obtain ⟨hv, hvs⟩ := List.forall_mem_cons.mp h
    have hc : P ',' := hP _ (.inl rfl)
    rw [Json.prettyItems, List.forall_mem_cons, hP.item hv, ih hvs, List.forall_mem_cons]
    exact and_iff_right hc

theorem HoldsAround.prettyFields (hP : HoldsAround P) {fs : List (String × Json)} (level : Nat)
    (h : ∀ f ∈ fs, (∀ c ∈ prettyChars (level + 1) f.2, P c) ↔ f.2.Every (Writes P) (Writes P)) :
    (∀ c ∈ Json.prettyFields level fs, P c) ↔
      ∀ f ∈ fs, Writes P f.1 ∧ f.2.Every (Writes P) (Writes P) := by
  induction fs with
  | nil =>
    have hb : P '}' := hP _ (.inl rfl)
    rw [Json.prettyFields, List.forall_mem_append]
    simpa [hb] using hP.newline level
  | cons f fs ih =>
    obtain ⟨hv, hfs⟩ := List.forall_mem_cons.mp h
    have hc : P ',' := hP _ (.inl rfl)
    rw [Json.prettyFields, List.forall_mem_cons, hP.field hv, ih hfs, List.forall_mem_cons]
    exact and_iff_right hc

/-- What holds around the texts holds for every written character if it does in the texts. -/
theorem IsPlain.forall_mem_prettyChars {depth : Nat} {v : Json} (hv : v.IsPlain depth)
    (hP : HoldsAround P) (level : Nat) :
    (∀ c ∈ prettyChars level v, P c) ↔ v.Every (Writes P) (Writes P) := by
  induction hv generalizing level with
  | str s => exact hP.quoted s
  | count n =>
    refine iff_of_true (fun c hc => hP c (.inl ?_)) trivial
    rw [ofWord, prettyChars, numberChars_natCast] at hc
    exact isGraphic_of_isDigit (isDigit_of_mem_toDigits hc)
  | @arr depth vs _ ih =>
    have hb : P '[' := hP _ (.inl rfl)
    rw [Every, everyItem_iff]
    cases vs with
    | nil =>
      have hb' : P ']' := hP _ (.inl rfl)
      simp [prettyChars, hb, hb']
    | cons v vs =>
      obtain ⟨hv, hvs⟩ := List.forall_mem_cons.mp ih
      rw [prettyChars, List.forall_mem_cons, hP.item (hv _),
        hP.prettyItems level fun v hv => hvs v hv _, List.forall_mem_cons]
      exact and_iff_right hb
  | @obj depth fs _ _ ih =>
    have hb : P '{' := hP _ (.inl rfl)
    rw [Every, everyField_iff]
    cases fs with
    | nil =>
      have hb' : P '}' := hP _ (.inl rfl)
      simp [prettyChars, hb, hb']
    | cons f fs =>
      obtain ⟨hv, hfs⟩ := List.forall_mem_cons.mp ih
      rw [prettyChars, List.forall_mem_cons, hP.field (hv _),
        hP.prettyFields level fun f hf => hfs f hf _, List.forall_mem_cons]
      exact and_iff_right hb

end characters

/-- YAML allows all characters that JSON writes for the texts and names. -/
def IsAllowed (v : Json) : Prop :=
  v.Every (Writes (Yaml.isAllowed · = true)) (Writes (Yaml.isAllowed · = true))

theorem holdsAround_isAllowed : HoldsAround (Yaml.isAllowed · = true) := by
  rintro c (h | rfl)
  · simp only [isGraphic, Bool.and_eq_true, decide_eq_true_eq] at h
    simp [Yaml.isAllowed, h]
  · rfl

/-- JSON writes no carriage return as it is. -/
theorem writes_ne_carriageReturn (s : String) : Writes (· ≠ '\r') s := by
  intro c hc
  obtain ⟨d, -, hd⟩ := List.mem_flatMap.mp hc
  rcases escaped_cases d with ⟨he, hlow, -⟩ | ⟨es, he, hes, -⟩
  · obtain rfl : c = d := by simpa [he] using hd
    rintro rfl
    revert hlow
    decide
  · rw [he, List.mem_cons] at hd
    rcases hd with rfl | hd
    · decide
    · exact ne_of_isGraphic (hes c hd) (by decide)

theorem IsPlain.carriageReturn_notMem {depth : Nat} {v : Json} (hv : v.IsPlain depth) (level : Nat) :
    '\r' ∉ prettyChars level v := by
  have hP : HoldsAround (· ≠ '\r') := by
    rintro c (h | rfl)
    · exact ne_of_isGraphic h (by decide)
    · decide
  have hall := (hv.forall_mem_prettyChars hP level).mpr
    (hv.every writes_ne_carriageReturn writes_ne_carriageReturn)
  exact fun hm => hall '\r' hm rfl

/-- Exactly the objects with allowed characters and no document marks have tokens, and these are
their own. -/
theorem ofText?_pretty_eq_some_iff {depth : Nat} {fs : Fields Json}
    (hv : (obj fs).IsPlain (depth + 1)) {ts : List Token} :
    Token.ofText? (obj fs).pretty = some ts ↔
      (obj fs).IsAllowed ∧ (obj fs).IsUnmarked ∧ ts = (obj fs).tokens := by
  have hfs : ∀ f ∈ fs, f.2.IsScanned := by
    cases hv with
    | obj _ hfs => exact fun f hf => (hfs f hf).isScanned
  have hmark : dropByteOrderMark (prettyChars 0 (obj fs)) = prettyChars 0 (obj fs) := by
    cases fs <;> rfl
  have hallowed : (prettyChars 0 (obj fs)).all Yaml.isAllowed = true ↔ (obj fs).IsAllowed :=
    List.all_eq_true.trans (hv.forall_mem_prettyChars holdsAround_isAllowed 0)
  rw [Token.ofText?, pretty, String.toList_ofList, hmark]
  by_cases ha : (obj fs).IsAllowed
  · rw [if_pos (hallowed.mpr ha), unifyBreaks_eq_map (hv.carriageReturn_notMem 0), and_iff_right ha]
    have hstart : Scan.Stands { rest := (prettyChars 0 (obj fs)).map unifyBreak } true 0
        ((prettyChars 0 (obj fs)).map unifyBreak ++ []) [] := {
      calm := ⟨rfl, by simp, by simp⟩
      rest := by rw [List.append_nil]
      keyAllowed := fun _ => rfl
      depth := rfl
      reversed := rfl
      count := rfl }
    have hleads := leads_obj hfs 0 hstart
    have hrun := hleads.run_eq_some_iff (Nat.lt_succ_self _) ts.reverse
    rw [List.append_nil, List.reverse_inj] at hrun
    rw [← hrun, Option.map_eq_some_iff, Option.map_eq_some_iff]
    simp only [List.reverse_eq_iff]
  · rw [if_neg fun h => ha (hallowed.mp h)]
    simp [ha]

end Json

end TaintPolicy
