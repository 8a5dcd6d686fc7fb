import TaintPolicy.Proofs.FoldedText
import TaintPolicy.Proofs.WrittenNodes
import TaintPolicy.Yaml.Document

/-!
# The values of written JSON

What a plain value becomes when its pretty text is read as YAML: the same value with every text
folded. It is the same value exactly if folding leaves all of its texts alone.
-/

namespace TaintPolicy

open Yaml

section counts

/-- The digits of a number above zero do not start with a zero. -/
theorem head?_toDigits_ne {n : Nat} (h : 0 < n) : (Nat.toDigits 10 n).head? ≠ some '0' := by
  induction n using Nat.strongRecOn with
  | ind n ih =>
    by_cases hlt : n < 10
    · have hone : ∀ m < 10, 0 < m → m.digitChar ≠ '0' := by decide
      rw [Nat.toDigits_of_lt_base hlt, List.head?_cons]
      exact fun he => hone n hlt h (Option.some.inj he)
    · obtain ⟨c, ds, he, -⟩ := exists_toDigits_eq_cons (n / 10)
      have hhead := ih (n / 10) (by omega) (by omega)
      rw [Nat.toDigits_of_base_le (by decide) (by omega), he]
      rwa [he] at hhead

theorem numeralAfter_digits {ds : List Char} (h : ∀ d ∈ ds, d.isDigit = true) (value : Nat) :
    numeralAfter 10 value ds = some (Nat.ofDigitChars 10 ds value) := by
  induction ds generalizing value with
  | nil => rfl
  | cons d ds ih =>
    obtain ⟨hd, hds⟩ := List.forall_mem_cons.mp h
    have hrange : '0' ≤ d ∧ d ≤ '9' := by
      simpa [Char.isDigit, Char.le_def] using hd
    have hlt : d.toNat - 48 < 10 := by
      have hd9 : d.toNat ≤ 57 := UInt32.le_iff_toNat_le.mp (Char.le_def.mp hrange.2)
      omega
    rw [numeralAfter, hexValue?, if_pos hrange]
    simp only [hlt, if_true]
    rw [ih hds]
    rfl

theorem hasLeadingZero_toDigits (n : Nat) : hasLeadingZero (Nat.toDigits 10 n) = false := by
  rcases Nat.eq_zero_or_pos n with rfl | hn
  · rfl
  · obtain ⟨c, ds, he, hd⟩ := exists_toDigits_eq_cons n
    have hhead := head?_toDigits_ne hn
    rw [he] at hhead ⊢
    have hplus : c ≠ '+' := isDigit_ne (hd c List.mem_cons_self) (by decide)
    have hminus : c ≠ '-' := isDigit_ne (hd c List.mem_cons_self) (by decide)
    have hzero : c ≠ '0' := fun h => hhead (congrArg some h)
    simp [hasLeadingZero, dropSign, hplus, hminus, hzero]

/-- A count is read as itself. -/
theorem ofPlain_toDigits {n : Nat} (h : n < UInt64.size) :
    Scalar.ofPlain (Nat.toDigits 10 n) = .int n := by
  obtain ⟨c, ds, he, hd⟩ := exists_toDigits_eq_cons n
  have hnum : numeral? 10 (Nat.toDigits 10 n) = some n := by
    rw [he, numeral?, numeralAfter_digits hd, ← he, Nat.ofDigitChars_ten_toDigits]
  have hlead := hasLeadingZero_toDigits n
  rw [he] at hnum hlead ⊢
  have hne : ∀ d, d.isDigit = false → c ≠ d := fun d => isDigit_ne (hd c List.mem_cons_self)
  have hbase : ∀ e cs, e.isDigit = false → c :: ds ≠ '0' :: e :: cs := by
    rintro e cs hx heq
    obtain ⟨-, rfl⟩ := List.cons.inj heq
    simp [hd e (by simp)] at hx
  have hmag : magnitude? (c :: ds) = some n := by
    rw [magnitude?]
    · exact hnum
    · exact fun cs => hbase 'x' cs (by decide)
    · exact fun cs => hbase 'o' cs (by decide)
    · exact fun cs => hbase 'b' cs (by decide)
  have hint : integer? (c :: ds) = some (n : Int) := by
    have hlim : n < 1 <<< 128 := Nat.lt_trans h (by decide)
    have hsign : ∀ e cs, e.isDigit = false → c :: ds ≠ e :: cs :=
      fun e cs hx heq => hne e hx (List.cons.inj heq).1
    rw [integer?, hlead, if_neg Bool.false_ne_true]
    · rw [hmag, Option.bind_some, if_pos hlim]
    · exact fun cs => hsign '-' cs (by decide)
    · exact fun cs => hsign '+' cs (by decide)
  have hnull : spellsNull (c :: ds) = false := by
    simp [spellsNull, hne 'n' (by decide), hne 'N' (by decide), hne '~' (by decide)]
  have hbool : boolOf? (c :: ds) = none := by
    simp [boolOf?, hne 't' (by decide), hne 'T' (by decide), hne 'f' (by decide),
      hne 'F' (by decide)]
  simp [Scalar.ofPlain, hnull, hbool, hint]

theorem fitsWord_natCast {n : Nat} (h : n < UInt64.size) : Number.fitsWord n = true := by
  have hmin : Int64.minValue.toInt ≤ 0 := by decide
  have hsize : (n : Int) < UInt64.size := Int.ofNat_lt.mpr h
  rw [Number.fitsWord, decide_eq_true_eq]
  exact ⟨Int.le_trans hmin (Int.natCast_nonneg n), hsize⟩

end counts

namespace Json

mutual

/-- The value with every text folded. -/
def refold : Json → Json
  | str s => str (refolded s.toList)
  | arr vs => arr (refoldItems vs)
  | obj fs => obj (refoldFields fs)
  | v => v

def refoldItems : List Json → List Json
  | [] => []
  | v :: vs => refold v :: refoldItems vs

def refoldFields : List (String × Json) → List (String × Json)
  | [] => []
  | (k, v) :: fs => (k, refold v) :: refoldFields fs

end

/-- Distinct names keep their places. -/
theorem ofEntries_of_nodup {α : Type} {fs : Fields α} (h : (Fields.names fs).Nodup) :
    Fields.ofEntries fs = fs := by
  have hall : ∀ es gs : Fields α, (Fields.names (gs ++ es)).Nodup →
      es.foldl (fun fs e => Fields.put e.1 e.2 fs) gs = gs ++ es := by
    intro es
    induction es with
    | nil => exact fun gs _ => (List.append_nil gs).symm
    | cons e es ih =>
      intro gs hnd
      have hfresh : e.1 ∉ Fields.names gs := by
        rw [Fields.names, List.map_append, List.map_cons, List.nodup_append] at hnd
        exact fun hm => hnd.2.2 e.1 hm e.1 List.mem_cons_self rfl
      rw [List.foldl_cons, Fields.put_of_notMem hfresh]
      rw [ih (gs ++ [e]) (by simpa using hnd), List.append_assoc, List.singleton_append]
  exact hall fs [] h

theorem names_refoldFields (fs : Fields Json) :
    Fields.names (refoldFields fs) = Fields.names fs := by
  induction fs with
  | nil => rfl
  | cons f fs ih =>
    rw [refoldFields, Fields.names_cons, Fields.names_cons, ih]

section reading

variable {d : Document} {followed : Nat}

/-- The node of the value means the value with its texts folded, and follows no alias. -/
def IsMeant (d : Document) (depth : Nat) (v : Json) : Prop :=
  ∀ followed, (d.json depth v.node).run followed = some (v.refold, followed)

theorem run_json_scalar (depth : Nat) (text : String) (plain : Bool) :
    (d.json depth (.scalar none none text plain)).run followed =
      ((Scalar.ofTagged? none text plain).bind (Scalar.json? text)).map fun v => (v, followed) := by
  have hself : d.resolved (.scalar none none text plain) = pure (.scalar none none text plain) := rfl
  have htag : (localTag? none).isSome = false := rfl
  rw [Document.json.eq_def, hself, pure_bind]
  simp only [htag, Bool.false_eq_true, if_false]
  cases (Scalar.ofTagged? none text plain).bind (Scalar.json? text) <;> rfl

theorem isMeant_str (depth : Nat) (s : String) : IsMeant d depth (str s) :=
  fun _ => run_json_scalar depth (refolded s.toList) false

theorem isMeant_ofWord (depth : Nat) (n : UInt64) : IsMeant d depth (ofWord n) := by
  intro followed
  have hn : (ofWord n).node = .scalar none none (String.ofList (Nat.toDigits 10 n.toNat)) true := by
    rw [← numberChars_natCast]
    rfl
  have hp : Scalar.ofTagged? none (String.ofList (Nat.toDigits 10 n.toNat)) true =
      some (.int n.toNat) := by
    rw [← ofPlain_toDigits n.toNat_lt, Scalar.ofTagged?, String.toList_ofList]
    rfl
  rw [hn, run_json_scalar, hp, Option.bind_some, Scalar.json?, if_pos (fitsWord_natCast n.toNat_lt)]
  rfl

theorem run_mapM_itemNodes {depth : Nat} {vs : List Json} (hvs : ∀ v ∈ vs, IsMeant d depth v) :
    ((itemNodes vs).mapM (d.json depth)).run followed = some (refoldItems vs, followed) := by
  induction vs with
  | nil => rfl
  | cons v vs ih =>
    obtain ⟨hv, hvs⟩ := List.forall_mem_cons.mp hvs
    rw [itemNodes, List.mapM_cons, StateT.run_bind, hv followed, Option.bind_eq_bind,
      Option.bind_some, StateT.run_bind, ih hvs]
    rfl

theorem isMeant_arr {depth : Nat} {vs : List Json} (hvs : ∀ v ∈ vs, IsMeant d depth v) :
    IsMeant d (depth + 1) (arr vs) := by
  intro followed
  rw [Json.node, Document.json.eq_def]
  simp [Document.resolved, localTag?, run_mapM_itemNodes hvs, refold]

/-- The name and the value of an entry. -/
def entryOf (d : Document) (depth : Nat) (e : Node × Node) : Walk (String × Json) := do
  let key ← d.text e.1
  return (key, ← d.json depth e.2)

theorem run_mapM_fieldNodes {depth : Nat} {fs : Fields Json} (hfs : ∀ f ∈ fs, IsMeant d depth f.2)
    (hk : ∀ f ∈ fs, refolded f.1.toList = f.1) (followed : Nat) :
    ((fieldNodes fs).mapM (entryOf d depth)).run followed = some (refoldFields fs, followed) := by
  induction fs with
  | nil => rfl
  | cons f fs ih =>
    obtain ⟨k, v⟩ := f
    obtain ⟨hv, hfs⟩ := List.forall_mem_cons.mp hfs
    obtain ⟨hname, hk⟩ := List.forall_mem_cons.mp hk
    have he : (entryOf d depth (.scalar none none (refolded k.toList) false, v.node)).run followed =
        some ((k, v.refold), followed) := by
      have ht : (d.text (.scalar none none k false)).run followed = some (k, followed) := rfl
      rw [entryOf, hname, StateT.run_bind, ht, Option.bind_eq_bind, Option.bind_some,
        StateT.run_bind, hv followed]
      rfl
    rw [fieldNodes, List.mapM_cons, StateT.run_bind, he, Option.bind_eq_bind,
      Option.bind_some, StateT.run_bind, ih hfs hk]
    rfl

theorem isMeant_obj {depth : Nat} {fs : Fields Json} (hn : (Fields.names fs).Nodup)
    (hfs : ∀ f ∈ fs, IsMeant d depth f.2) (hk : ∀ f ∈ fs, refolded f.1.toList = f.1) :
    IsMeant d (depth + 1) (obj fs) := by
  intro followed
  have hmap := run_mapM_fieldNodes hfs hk followed
  have hput : Fields.ofEntries (refoldFields fs) = refoldFields fs :=
    ofEntries_of_nodup ((names_refoldFields fs).symm ▸ hn)
  rw [Json.node, Document.json.eq_def]
  show ((fieldNodes fs).mapM (entryOf d depth) >>= fun fields =>
    pure (obj (Fields.ofEntries fields))).run followed = _
  rw [StateT.run_bind, hmap, Option.bind_eq_bind, Option.bind_some, hput]
  rfl

/-- Within the depth that is followed, and with names that are read as they are. -/
theorem IsPlain.isMeant {depth : Nat} {v : Json} (hv : v.IsPlain depth)
    (hk : v.Every (fun _ => True) (fun k => refolded k.toList = k)) {limit : Nat}
    (hd : depth ≤ limit) : IsMeant d limit v := by
  induction hv generalizing limit with
  | str s => exact isMeant_str limit s
  | count n => exact isMeant_ofWord limit n
  | arr _ ih =>
    obtain ⟨limit, rfl⟩ : ∃ k, limit = k + 1 := ⟨limit - 1, by omega⟩
    have hk := everyItem_iff.mp hk
    exact isMeant_arr fun v hv => ih v hv (hk v hv) (by omega)
  | obj hn _ ih =>
    obtain ⟨limit, rfl⟩ : ∃ k, limit = k + 1 := ⟨limit - 1, by omega⟩
    have hk := everyField_iff.mp hk
    exact isMeant_obj hn (fun f hf => ih f hf (hk f hf).2 (by omega)) fun f hf => (hk f hf).1

end reading

end Json

section texts

variable {cs : List Char}

theorem unmarked_of_isFlat (h : IsFlat cs) : Unmarked cs := by
  rw [Unmarked, (folded?_eq_some_iff .none).mpr h]
  rfl

theorem refolded_eq_iff (h : Unmarked cs) : refolded cs = String.ofList cs ↔ IsFlat cs := by
  obtain ⟨text, ht⟩ := Option.isSome_iff_exists.mp h
  have hflat : folded? false .none cs = some cs ↔ IsFlat cs := folded?_eq_some_iff .none
  rw [← hflat, refolded, ht, Option.getD_some, String.ofList_inj, Option.some.injEq]

theorem refolded_of_isFlat (h : IsFlat cs) : refolded cs = String.ofList cs :=
  (refolded_eq_iff (unmarked_of_isFlat h)).mpr h

theorem isFlat_of_fitsKey (h : fitsKey cs = true) : IsFlat cs := by
  simp only [fitsKey, Bool.and_eq_true, Bool.not_eq_true', List.any_eq_false] at h
  exact isFlat_of_forall fun c hc => by simpa using h.1 c hc

end texts

namespace Json

variable {depth : Nat} {v : Json} {fs : Fields Json}

theorem refoldItems_eq_self_iff {vs : List Json} : refoldItems vs = vs ↔ ∀ v ∈ vs, v.refold = v := by
  induction vs with
  | nil => simp [refoldItems]
  | cons v vs ih => rw [refoldItems, List.cons.injEq, ih, List.forall_mem_cons]

theorem refoldFields_eq_self_iff : refoldFields fs = fs ↔ ∀ f ∈ fs, f.2.refold = f.2 := by
  induction fs with
  | nil => simp [refoldFields]
  | cons f fs ih =>
    obtain ⟨k, v⟩ := f
    rw [refoldFields, List.cons.injEq, ih, List.forall_mem_cons, Prod.mk.injEq, and_iff_right rfl]

/-- Folding changes no text exactly if it leaves each of them alone. -/
theorem IsPlain.refold_eq_self_iff (hv : v.IsPlain depth) (hu : v.IsUnmarked) :
    v.refold = v ↔ v.Every (fun s => IsFlat s.toList) (fun _ => True) := by
  induction hv with
  | str s =>
    have hs := refolded_eq_iff hu
    rwa [String.ofList_toList, ← Json.str.injEq] at hs
  | count n => exact iff_of_true rfl trivial
  | arr _ ih =>
    have hu := everyItem_iff.mp hu
    rw [refold, Json.arr.injEq, refoldItems_eq_self_iff, Every, everyItem_iff]
    exact forall₂_congr fun v hv => ih v hv (hu v hv)
  | obj _ _ ih =>
    have hu := everyField_iff.mp hu
    rw [refold, Json.obj.injEq, refoldFields_eq_self_iff, Every, everyField_iff]
    exact forall₂_congr fun f hf => (ih f hf (hu f hf).2).trans (and_iff_right trivial).symm

/-- YAML reads exactly the objects with allowed characters, no document marks and names that fit,
and it reads them with their texts folded. -/
theorem json?_pretty_eq_some_iff (hv : (obj fs).IsPlain (depth + 1)) (hd : depth + 1 ≤ maxDepth)
    (u : Json) :
    Yaml.json? (obj fs).pretty = some u ↔
      ((obj fs).IsAllowed ∧ (obj fs).IsUnmarked ∧ (obj fs).KeysFit) ∧ u = (obj fs).refold := by
  let d := Document.ofNode (obj fs).node
  have hvalue : (obj fs).KeysFit →
      ((d.json maxDepth d.root).run 0).bind (fun x => some x.1) = some (obj fs).refold := by
    intro hk
    have hmeant : IsMeant d maxDepth (obj fs) := by
      refine hv.isMeant (hv.every_imp (fun _ _ => trivial) (fun k hk => ?_) hk) hd
      rw [refolded_of_isFlat (isFlat_of_fitsKey hk), String.ofList_toList]
    exact congrArg (Option.bind · fun x => some x.1) (hmeant 0)
  rw [Yaml.json?, Document.ofText?, Option.bind_eq_bind, Option.bind_map, Option.bind_eq_some_iff]
  simp only [ofText?_pretty_eq_node_iff hv]
  constructor
  · rintro ⟨_, ⟨h, rfl⟩, hu⟩
    exact ⟨h, (Option.some.inj ((hvalue h.2.2).symm.trans hu)).symm⟩
  · rintro ⟨h, rfl⟩
    exact ⟨_, ⟨h, rfl⟩, hvalue h.2.2⟩

end Json

end TaintPolicy
