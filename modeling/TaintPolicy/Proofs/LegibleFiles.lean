import TaintPolicy.Proofs.CompiledTexts
import TaintPolicy.Proofs.PolicyGrammar
import TaintPolicy.Proofs.WrittenValues

/-!
# Which policy files are read back

Policy files are written as JSON and read by a reader of YAML. That goes well for most texts but not
for all: YAML refuses some characters and long or broken names of fields, it refuses what looks like
the end of a document, and it folds lines. For each selection it is told here from its texts alone
whether its file is read back as it is, changed, or not at all.
-/

namespace TaintPolicy

open Yaml

/-- JSON escapes the characters of the text that YAML does not allow. -/
def IsAllowedText (s : String) : Prop := ∀ c ∈ s.toList, c.toNat < 0x20 ∨ isAllowed c = true

/-- The text is read, though maybe with its lines folded. -/
structure IsReadableText (s : String) : Prop where
  allowed : IsAllowedText s
  unmarked : HasNoMark s.toList

/-- The text is read as it is. -/
structure IsLegibleText (s : String) : Prop where
  allowed : IsAllowedText s
  flat : IsFlat s.toList

/-- A name of a field is read, and as it is: it stands on one line with the colon behind it. -/
structure IsLegibleName (k : String) : Prop where
  allowed : IsAllowedText k
  oneLine : ∀ c ∈ k.toList, isRawBreak c = false
  near : (Json.quoted k).length ≤ 1024

/-- The compiled file is read. -/
structure Selection.IsReadable (s : Selection) : Prop where
  name : IsReadableText (TaintPolicy.policyName s.policyName)
  tools : ∀ t ∈ s.tools, IsLegibleName t.name
  rules : ∀ r ∈ s.rules, ∀ t ∈ r.rule.texts, IsReadableText t

/-- The compiled file is read as it is. -/
structure Selection.IsLegible (s : Selection) : Prop where
  name : IsLegibleText (TaintPolicy.policyName s.policyName)
  tools : ∀ t ∈ s.tools, IsLegibleName t.name
  rules : ∀ r ∈ s.rules, ∀ t ∈ r.rule.texts, IsLegibleText t

section texts

variable {s k : String}

theorem isAllowed_of_isGraphic {c : Char} (h : isGraphic c = true) : isAllowed c = true :=
  Json.holdsAround_isAllowed c (.inl h)

theorem forall_mem_escaped_isAllowed_iff (c : Char) :
    (∀ d ∈ Json.escaped c, isAllowed d = true) ↔ c.toNat < 0x20 ∨ isAllowed c = true := by
  have hw := written_escaped c
  generalize Json.escaped c = cs at hw ⊢
  cases hw with
  | letter hc _ hg =>
    refine iff_of_true (by simpa [isAllowed_of_isGraphic hg] using isAllowed_of_isGraphic rfl) ?_
    rcases hc with rfl | rfl | hc
    · exact .inr rfl
    · exact .inr rfl
    · exact .inl hc
  | digits hlow =>
    have h1 := isAllowed_of_isGraphic (isGraphic_hexDigit (c.toNat / 16) (by omega))
    have h2 := isAllowed_of_isGraphic (isGraphic_hexDigit (c.toNat % 16) (by omega))
    refine iff_of_true ?_ (.inl hlow)
    simp only [List.forall_mem_cons, h1, h2]
    exact ⟨rfl, rfl, rfl, rfl, trivial, trivial, nofun⟩
  | self hc _ _ =>
    have hlow : ¬ c.toNat < 0x20 := by omega
    simp [hlow]

theorem writes_isAllowed_iff : Json.Writes (isAllowed · = true) s ↔ IsAllowedText s := by
  rw [Json.Writes, List.forall_mem_flatMap]
  exact forall₂_congr fun c _ => forall_mem_escaped_isAllowed_iff c

theorem unmarked_iff : Unmarked s.toList ↔ HasNoMark s.toList :=
  isSome_folded?_iff.trans (and_iff_right nofun)

theorem fitsKey_iff :
    fitsKey k.toList = true ↔
      (∀ c ∈ k.toList, isRawBreak c = false) ∧ (Json.quoted k).length ≤ 1024 := by
  have hlen : (Json.quoted k).length = (shown k.toList).length + 2 := by
    simp [Json.quoted, shown]
  rw [hlen]
  simp [fitsKey]

theorem isLegibleText_iff : IsLegibleText s ↔ IsReadableText s ∧ IsFlat s.toList := by
  constructor
  · exact fun h => ⟨⟨h.allowed, unmarked_iff.mp (unmarked_of_isFlat h.flat)⟩, h.flat⟩
  · exact fun h => ⟨h.1.allowed, h.2⟩

theorem isLegibleName_iff : IsLegibleName k ↔ IsAllowedText k ∧ fitsKey k.toList = true := by
  rw [fitsKey_iff]
  exact ⟨fun h => ⟨h.allowed, h.oneLine, h.near⟩, fun h => ⟨h.1, h.2.1, h.2.2⟩⟩

theorem IsLegibleName.isLegibleText (h : IsLegibleName k) : IsLegibleText k :=
  ⟨h.allowed, isFlat_of_forall h.oneLine⟩

theorem length_flatMap_escaped_le (cs : List Char) :
    (cs.flatMap Json.escaped).length ≤ 6 * cs.length := by
  have hone : ∀ c, (Json.escaped c).length ≤ 6 := by
    intro c
    have hw := written_escaped c
    generalize Json.escaped c = es at hw ⊢
    cases hw <;> simp
  induction cs with
  | nil => simp
  | cons c cs ih =>
    have hc := hone c
    rw [List.flatMap_cons, List.length_append, List.length_cons]
    omega

theorem isRawBreak_of_isGraphic {c : Char} (h : isGraphic c = true) : isRawBreak c = false := by
  have hne : ∀ d, isGraphic d = false → c ≠ d := fun d => ne_of_isGraphic h
  simp [isRawBreak, hne '\x85' (by decide), hne '\u2028' (by decide), hne '\u2029' (by decide)]

theorem IsWordlike.isLegibleName {w : String} (h : IsWordlike w) : IsLegibleName w := by
  have hgraphic : ∀ c ∈ w.toList, isGraphic c = true := List.all_eq_true.mp h.1
  refine ⟨fun c hc => ?_, fun c hc => isRawBreak_of_isGraphic (hgraphic c hc), ?_⟩
  · exact .inr (isAllowed_of_isGraphic (hgraphic c hc))
  · have hlen := length_flatMap_escaped_le w.toList
    have hw := h.2
    rw [← String.length_toList] at hw
    simp only [Json.quoted, List.length_append, List.length_cons, List.length_nil]
    omega

end texts

section files

variable (honor : Bool) (s : Selection)

theorem compile_isPlain : (s.compile honor).toJson.IsPlain 9 :=
  Grammar.bounds_isPolicyDocument _ _ (isPolicyDocument_compile honor s)

/-- YAML reads the compiled file exactly if the texts of the selection are readable. -/
theorem isReadable_iff :
    ((s.compile honor).toJson.IsAllowed ∧ (s.compile honor).toJson.IsUnmarked ∧
      (s.compile honor).toJson.KeysFit) ↔ s.IsReadable := by
  have hv := compile_isPlain honor s
  have htext : ∀ t, (Json.Writes (isAllowed · = true) t ∧ Unmarked t.toList ∧ True) ↔
      IsReadableText t := by
    intro t
    rw [writes_isAllowed_iff, unmarked_iff, and_true]
    exact ⟨fun h => ⟨h.1, h.2⟩, fun h => ⟨h.allowed, h.unmarked⟩⟩
  have hname : ∀ k, (Json.Writes (isAllowed · = true) k ∧ Unmarked k.toList ∧
      fitsKey k.toList = true) ↔ IsLegibleName k := by
    intro k
    rw [writes_isAllowed_iff, isLegibleName_iff]
    exact ⟨fun h => ⟨h.1, h.2.2⟩, fun h => ⟨h.1, unmarked_of_isFlat (isFlat_of_fitsKey h.2), h.2⟩⟩
  have hw : HoldsForWords
      (fun t => Json.Writes (isAllowed · = true) t ∧ Unmarked t.toList ∧ True)
      (fun k => Json.Writes (isAllowed · = true) k ∧ Unmarked k.toList ∧ fitsKey k.toList = true) := by
    intro w hw
    have hreadable := (isLegibleText_iff.mp hw.isLegibleName.isLegibleText).1
    exact ⟨(htext w).mpr hreadable, (hname w).mpr hw.isLegibleName⟩
  rw [Json.IsAllowed, Json.IsUnmarked, Json.KeysFit, ← hv.every_and_iff, ← hv.every_and_iff,
    hw.compile]
  simp only [htext, hname]
  exact ⟨fun h => ⟨h.1, h.2.1, h.2.2⟩, fun h => ⟨h.name, h.tools, h.rules⟩⟩

/-- A file that is read is read as it is exactly if the texts of the selection are legible. -/
theorem isLegible_iff (hr : s.IsReadable) :
    (s.compile honor).toJson.refold = (s.compile honor).toJson ↔ s.IsLegible := by
  have hv := compile_isPlain honor s
  have hw : HoldsForWords (fun t => IsFlat t.toList) (fun _ => True) :=
    fun w hw => ⟨hw.isLegibleName.isLegibleText.flat, trivial⟩
  rw [hv.refold_eq_self_iff ((isReadable_iff honor s).mpr hr).2.1, hw.compile]
  constructor
  · rintro ⟨hname, -, hrules⟩
    exact ⟨⟨hr.name.allowed, hname⟩, hr.tools,
      fun r hm t ht => ⟨(hr.rules r hm t ht).allowed, hrules r hm t ht⟩⟩
  · exact fun h => ⟨h.name.flat, fun _ _ => trivial, fun r hm t ht => (h.rules r hm t ht).flat⟩

theorem Selection.IsLegible.isReadable {s : Selection} (h : s.IsLegible) : s.IsReadable :=
  ⟨(isLegibleText_iff.mp h.name).1, h.tools,
    fun r hm t ht => (isLegibleText_iff.mp (h.rules r hm t ht)).1⟩

theorem read_eq_ok_iff (text : String) (u : Json) :
    Yaml.read text = .ok u ↔ Yaml.json? text = some u := by
  rw [Yaml.read]
  cases Yaml.json? text <;> simp

theorem read_eq_error_iff (text : String) :
    Yaml.read text = .error .unreadableYaml ↔ ∀ u, Yaml.read text ≠ .ok u := by
  simp only [Ne, read_eq_ok_iff]
  rw [Yaml.read]
  cases Yaml.json? text <;> simp

/-- What YAML reads of a compiled file, if anything. -/
theorem read_pretty_eq_ok_iff (u : Json) :
    Yaml.read (s.compile honor).toJson.pretty = .ok u ↔
      s.IsReadable ∧ u = (s.compile honor).toJson.refold := by
  have hj : Yaml.json? (s.compile honor).toJson.pretty = some u ↔ _ :=
    Json.json?_pretty_eq_some_iff (compile_isPlain honor s) (by decide) u
  rw [read_eq_ok_iff, hj, ← isReadable_iff honor s]
  exact Iff.rfl

theorem read_pretty_eq_error_iff :
    Yaml.read (s.compile honor).toJson.pretty = .error .unreadableYaml ↔ ¬ s.IsReadable := by
  rw [read_eq_error_iff]
  simp only [Ne, read_pretty_eq_ok_iff]
  exact ⟨fun h hr => h _ ⟨hr, rfl⟩, fun h u hu => h hu.1⟩

variable {s} (catalog : Catalog) (assigner : Assigner) (mode : Mode)

/-- Restoring a readable text is restoring the file with its texts folded. -/
theorem restoreText_of_isReadable (h : s.IsReadable) :
    restoreText catalog assigner mode (s.compile honor).toJson.pretty =
      restore catalog assigner mode (s.compile honor).toJson.refold := by
  rw [restoreText, (read_pretty_eq_ok_iff honor s _).mpr ⟨h, rfl⟩]
  rfl

theorem restoreText_of_not_isReadable (h : ¬ s.IsReadable) :
    restoreText catalog assigner mode (s.compile honor).toJson.pretty = .error .unreadableYaml := by
  rw [restoreText, (read_pretty_eq_error_iff honor s).mpr h]
  rfl

end files

section decidable

instance (cs : List Char) : Decidable (IsFlat cs) :=
  decidable_of_iff (folded? false .none cs = some cs) (folded?_eq_some_iff .none)

instance (cs : List Char) : Decidable (HasNoMark cs) :=
  decidable_of_iff ((folded? false .none cs).isSome = true)
    (isSome_folded?_iff.trans (and_iff_right nofun))

instance (s : String) : Decidable (IsAllowedText s) :=
  decidable_of_iff ((s.toList.all fun c => c.toNat < 0x20 || isAllowed c) = true)
    (by simp [IsAllowedText])

instance (s : String) : Decidable (IsReadableText s) :=
  decidable_of_iff (IsAllowedText s ∧ HasNoMark s.toList)
    ⟨fun h => ⟨h.1, h.2⟩, fun h => ⟨h.allowed, h.unmarked⟩⟩

instance (s : String) : Decidable (IsLegibleText s) :=
  decidable_of_iff (IsAllowedText s ∧ IsFlat s.toList)
    ⟨fun h => ⟨h.1, h.2⟩, fun h => ⟨h.allowed, h.flat⟩⟩

instance (k : String) : Decidable (IsLegibleName k) :=
  decidable_of_iff (IsAllowedText k ∧ fitsKey k.toList = true) isLegibleName_iff.symm

instance (s : Selection) : Decidable s.IsReadable :=
  decidable_of_iff (IsReadableText (policyName s.policyName) ∧ (∀ t ∈ s.tools, IsLegibleName t.name) ∧
      ∀ r ∈ s.rules, ∀ t ∈ r.rule.texts, IsReadableText t)
    ⟨fun h => ⟨h.1, h.2.1, h.2.2⟩, fun h => ⟨h.name, h.tools, h.rules⟩⟩

instance (s : Selection) : Decidable s.IsLegible :=
  decidable_of_iff (IsLegibleText (policyName s.policyName) ∧ (∀ t ∈ s.tools, IsLegibleName t.name) ∧
      ∀ r ∈ s.rules, ∀ t ∈ r.rule.texts, IsLegibleText t)
    ⟨fun h => ⟨h.1, h.2.1, h.2.2⟩, fun h => ⟨h.name, h.tools, h.rules⟩⟩

end decidable

/-- A compiled file comes back from its JSON text exactly if the texts of the selection are legible,
and then restoring the text is restoring the file, for every catalog and assigner and in both modes.
Where the texts are only readable, it is restoring the file with its texts folded, which is another
file; where they are not even that, the text is refused. -/
theorem written_file_is_read_iff (honor : Bool) (s : Selection) :
    (Yaml.read (s.compile honor).toJson.pretty = .ok (s.compile honor).toJson ↔ s.IsLegible) ∧
    (Yaml.read (s.compile honor).toJson.pretty = .error .unreadableYaml ↔ ¬ s.IsReadable) ∧
    ∀ (catalog : Catalog) (assigner : Assigner) (mode : Mode),
      (s.IsLegible → restoreText catalog assigner mode (s.compile honor).toJson.pretty =
        restore catalog assigner mode (s.compile honor).toJson) ∧
      (s.IsReadable → restoreText catalog assigner mode (s.compile honor).toJson.pretty =
        restore catalog assigner mode (s.compile honor).toJson.refold) ∧
      (¬ s.IsReadable → restoreText catalog assigner mode (s.compile honor).toJson.pretty =
        .error .unreadableYaml) := by
  refine ⟨?_, read_pretty_eq_error_iff honor s, fun catalog assigner mode => ⟨fun h => ?_, ?_, ?_⟩⟩
  · rw [read_pretty_eq_ok_iff]
    constructor
    · exact fun h => (isLegible_iff honor s h.1).mp h.2.symm
    · exact fun h => ⟨h.isReadable, ((isLegible_iff honor s h.isReadable).mpr h).symm⟩
  · rw [restoreText_of_isReadable honor catalog assigner mode h.isReadable,
      (isLegible_iff honor s h.isReadable).mpr h]
  · exact restoreText_of_isReadable honor catalog assigner mode
  · exact restoreText_of_not_isReadable honor catalog assigner mode

/-- A policy with a line separator in the text of a rule. -/
def noticeSelection : Selection where
  policyName := "night shift"
  tools := [⟨.ofClass "read_file" .sensitiveRead "", .deny⟩]
  rules := [⟨"r-1", authoredSource,
    { Rule.forTool .checkTaint "read_file" with error := some "Stop.\u2028\tAsk \"ops\"." }⟩]

theorem written_file_is_read_iff_notice :
    noticeSelection.IsLegible ∧
    restoreText .empty .fingerprint .strict (noticeSelection.compile true).toJson.pretty =
      restore .empty .fingerprint .strict (noticeSelection.compile true).toJson ∧
    ¬ (noticeSelection.rename "ops\x7f").IsReadable ∧
    restoreText .empty .fingerprint .strict
      ((noticeSelection.rename "ops\x7f").compile true).toJson.pretty = .error .unreadableYaml := by
  have hl : noticeSelection.IsLegible := by decide
  have hr : ¬ (noticeSelection.rename "ops\x7f").IsReadable := by decide
  exact ⟨hl, ((written_file_is_read_iff true _).2.2 _ _ _).1 hl, hr,
    ((written_file_is_read_iff true _).2.2 _ _ _).2.2 hr⟩

/-- A name with a delete character is refused, and one with a next line comes back with a blank. The
files themselves are restored with the names that they hold. -/
theorem written_name_is_refused_or_changed :
    restoreText .empty .fingerprint .strict
        ((noticeSelection.rename "ops\x7f").compile true).toJson.pretty = .error .unreadableYaml ∧
    (restore .empty .fingerprint .strict
        ((noticeSelection.rename "ops\x7f").compile true).toJson).map (·.policyName) =
      .ok "ops\x7f" ∧
    (restoreText .empty .fingerprint .strict
        ((noticeSelection.rename "ops\x85night").compile true).toJson.pretty).map (·.policyName) =
      .ok "ops night" ∧
    (restore .empty .fingerprint .strict
        ((noticeSelection.rename "ops\x85night").compile true).toJson).map (·.policyName) =
      .ok "ops\x85night" := by
  have hdelete : ¬ (noticeSelection.rename "ops\x7f").IsReadable := by decide
  have hnext : (noticeSelection.rename "ops\x85night").IsReadable := by decide
  refine ⟨restoreText_of_not_isReadable true _ _ _ hdelete, rfl, ?_, rfl⟩
  rw [restoreText_of_isReadable true _ _ _ hnext]
  rfl

end TaintPolicy
