import TaintPolicy.Proofs.ReadPolicies
import TaintPolicy.Proofs.Strictness

/-!
# Kept rules

Lenient reading of a policy drops an entry of its rules only for want of a usable action. Whatever
else is wrong with an entry, a rule is made of it, in its place and under its own labels as far as
these can be used.
-/

namespace TaintPolicy

namespace Json

/-- The action that a mapping states, if it is one of the four. -/
def action? : Json → Option TaintAction
  | obj fs =>
    match Fields.find? "action" fs with
    | some (str s) => TaintAction.ofText? s
    | _ => none
  | _ => none

/-- The text of a field, if it is a text and not empty. -/
def filledText? (v : Json) (name : String) : Option String :=
  match v.get? name with
  | some (str s) => if s = "" then none else some s
  | _ => none

/-- The entries are the list under `taint_rules`, or under `taintRules` where the former is absent
or `null`. -/
def ListsRules (policy : Json) (entries : List Json) : Prop :=
  policy.get? "taint_rules" = some (arr entries) ∨
    (policy.get? "taint_rules" = none ∨ policy.get? "taint_rules" = some null) ∧
      policy.get? "taintRules" = some (arr entries)

theorem nonEmpty_bind_text? (v : Json) (name : String) :
    nonEmpty ((v.get? name).bind text?) = v.filledText? name := by
  rw [filledText?]
  cases v.get? name with
  | none => rfl
  | some w =>
    cases w with
    | str s => by_cases h : s = "" <;> simp [nonEmpty, Option.filter, h]
    | _ => rfl

theorem ListsRules.ruleEntries_eq {policy : Json} {entries : List Json}
    (h : policy.ListsRules entries) : ruleEntries policy = entries := by
  rw [ruleEntries, listedEntries, firstPresent?_two]
  rcases h with h | ⟨h | h, hcamel⟩
  · simp [h, isNull, items?, Option.filter]
  · simp [h, hcamel, isNull, items?, Option.filter]
  · simp [h, hcamel, isNull, items?, Option.filter]

end Json

section entries

theorem readAction_lenient (v : Json) : readAction .lenient v = .ok v.action? := by
  have hempty : TaintAction.ofText? "" = none := by decide
  rw [readAction, firstText?_one, Json.nonEmpty_bind_text?, Json.filledText?]
  cases v with
  | obj fs =>
    rw [Json.get?_obj, Json.action?]
    cases Fields.find? "action" fs with
    | none => rfl
    | some w =>
      cases w with
      | str s =>
        by_cases hs : s = ""
        · simp [hs, hempty]
        · cases ha : TaintAction.ofText? s <;> simp [hs, ha]
      | _ => rfl
  | _ => rfl

/-- Lenient reading makes a rule with the stated action of an entry, or nothing where none is
stated. -/
theorem exists_readRule_lenient (v : Json) :
    ∃ piece, readRule .lenient v = .ok piece ∧
      piece.map (fun read : ReadRule => read.rule.action) = v.action? := by
  obtain ⟨piece, hread⟩ := (readRule_forgiving v).total
  refine ⟨piece, hread, ?_⟩
  cases piece with
  | some read =>
    have ha := (readRule_eq_ok hread).1
    rw [readAction_lenient] at ha
    exact (Except.ok.inj ha).symm
  | none =>
    rw [readRule] at hread
    split at hread
    · rw [readAction_lenient, ok_bind] at hread
      cases ha : v.action? with
      | none => rfl
      | some action =>
        simp only [ha] at hread
        obtain ⟨toolClass, -, hread⟩ := bind_eq_ok.mp hread
        obtain ⟨forbiddenTags, -, hread⟩ := bind_eq_ok.mp hread
        obtain ⟨pattern, -, hread⟩ := bind_eq_ok.mp hread
        obtain ⟨_, -, hread⟩ := bind_eq_ok.mp hread
        cases hread
    · next hv =>
      cases v with
      | obj fs => exact absurd rfl hv
      | _ => rfl

/-- The rule was made of the entry at a position: with the action of the entry, and under the labels
that stand beside it or else under those of an imported rule. -/
structure NamedRule.IsKeptFrom (assigner : Assigner) (entry : Json × Nat) (r : NamedRule) :
    Prop where
  read : ∃ read, readRule .lenient entry.1 = .ok (some read) ∧ read.rule = r.rule
  action : entry.1.action? = some r.rule.action
  id : r.id = (entry.1.filledText? "id").getD
    ("imported-" ++ Nat.repr entry.2 ++ "-" ++ assigner.token entry.2 r.rule)
  source : r.source = ((entry.1.filledText? "sourceTemplate").or
    (entry.1.filledText? "source_template")).getD "imported"

theorem isKeptFrom_of_restoreRule {assigner : Assigner} {entry : Json × Nat} {named : NamedRule}
    (h : restoreRule assigner .lenient entry = .ok (some named)) :
    named.IsKeptFrom assigner entry := by
  obtain ⟨read, hread, hm⟩ := map_eq_ok.mp h
  obtain ⟨read, rfl, rfl⟩ := Option.map_eq_some_iff.mp hm
  obtain ⟨hid, hsource⟩ := labels_of_readRule hread
  have ha := (readRule_eq_ok hread).1
  rw [readAction_lenient] at ha
  refine ⟨⟨read, hread, rfl⟩, Except.ok.inj ha, ?_, ?_⟩
  · rw [Assigner.name, hid, nonEmpty_firstText?, firstText?_one, Json.nonEmpty_bind_text?]
    rfl
  · rw [Assigner.name, hsource, firstText?_two, Json.nonEmpty_bind_text?,
      Json.nonEmpty_bind_text?]
    rfl

theorem isSome_of_restoreRule {assigner : Assigner} {entry : Json × Nat}
    {piece : Option NamedRule} (h : restoreRule assigner .lenient entry = .ok piece) :
    piece.isSome = entry.1.action?.isSome := by
  obtain ⟨read, hread, ha⟩ := exists_readRule_lenient entry.1
  rw [restoreRule, hread, map_ok] at h
  cases h
  rw [← ha, Option.isSome_map, Option.isSome_map]

/-- The entries with an action stand beside the rules that are made of them. -/
theorem collect_restoreRule_lenient {assigner : Assigner} {entries : List Json}
    {rules : List NamedRule}
    (h : collect (restoreRule assigner .lenient) (numbered entries) = .ok rules) :
    List.Forall₂ (NamedRule.IsKeptFrom assigner)
      ((numbered entries).filter fun entry => entry.1.action?.isSome) rules :=
  (collect_forall₂ (fun _ _ => isSome_of_restoreRule) h).imp fun _ _ => isKeptFrom_of_restoreRule

/-- Rules that were kept have the stated actions, in the order of the document. -/
theorem actions_of_isKeptFrom {assigner : Assigner} {entries : List Json} {rules : List NamedRule}
    (h : List.Forall₂ (NamedRule.IsKeptFrom assigner)
      ((numbered entries).filter fun entry => entry.1.action?.isSome) rules) :
    rules.map (fun r => r.rule.action) = entries.filterMap Json.action? := by
  let kept := (numbered entries).filter fun entry => entry.1.action?.isSome
  have hkept : List.Forall₂ (· = ·) (kept.map fun entry => entry.1.action?)
      (rules.map fun r => some r.rule.action) := by
    rw [List.forall₂_map_left_iff, List.forall₂_map_right_iff]
    exact h.imp fun _ _ hr => hr.action
  have hmap : kept.map (fun entry => entry.1.action?) = rules.map fun r => some r.rule.action :=
    List.forall₂_eq_eq_eq ▸ hkept
  calc
    rules.map (fun r => r.rule.action)
      = (rules.map fun r => some r.rule.action).filterMap id := by simp [List.filterMap_map]
    _ = kept.filterMap fun entry => entry.1.action? := by
      rw [← hmap, List.filterMap_map]
      rfl
    _ = (numbered entries).filterMap fun entry => entry.1.action? := by
      rw [List.filterMap_filter]
      apply List.filterMap_congr
      intro entry _
      cases entry.1.action? <;> rfl
    _ = ((numbered entries).map (·.1)).filterMap Json.action? := by
      rw [List.filterMap_map]
      rfl
    _ = entries.filterMap Json.action? := by rw [numbered, List.zipIdx_map_fst]

end entries

/-- Lenient reading of a document whose first policy lists its rules gives a selection, with exactly
one rule for each entry that is a mapping with one of the four actions, in the order of the list. A
rule has the id that its entry holds, also where another rule has it, or else one made of the
position of the entry in the list and a token. The compiled policy has one rule for each of them,
with the action of its entry. -/
theorem restore_keeps_usable_rules (catalog : Catalog) (assigner : Assigner)
    {document policy : Json} {others entries : List Json}
    (hp : document.get? "policies" = some (.arr (policy :: others)))
    (he : policy.ListsRules entries) :
    ∃ s, restore catalog assigner .lenient document = .ok s ∧
      List.Forall₂ (NamedRule.IsKeptFrom assigner)
        ((numbered entries).filter fun entry => entry.1.action?.isSome) s.rules ∧
      ∀ honor, ∃ p, (s.compile honor).policies = [p] ∧
        p.rules.map (·.action) = entries.filterMap Json.action? := by
  have hfirst : firstPolicy? document = some policy := by
    rw [firstPolicy?, listedEntries, firstPresent?_one, hp]
    rfl
  have hentries : policyEntries document = entries := by
    rw [policyEntries, hfirst]
    exact he.ruleEntries_eq
  obtain ⟨s, hs⟩ := (restore_forgiving catalog assigner document).total
  refine ⟨s, hs, ?_⟩
  obtain ⟨gates, rules, -, hrules, rfl⟩ := restore_eq_ok hs
  rw [hentries] at hrules
  have hkept := collect_restoreRule_lenient hrules
  refine ⟨hkept, fun honor => ⟨_, rfl, ?_⟩⟩
  rw [← actions_of_isKeptFrom hkept, List.map_map]
  rfl

section battered

/-! A policy with an entry that is no mapping and one with an unknown action. Of the other entries
two share an id, one has an unknown class, an unknown kind of pattern and no target, and one has an
empty id, two targets and tags that are no list. -/

def batteredEntries : List Json := [
  .obj [("id", .str "r"), ("action", .str "ADD_TAINT"), ("tool", .str "mail")],
  .str "ADD_TAINT",
  .obj [("id", .str "r"), ("action", .str "BLOCK_CURRENT"), ("toolClass", .str "NETWORK"),
    ("pattern", .obj [("type", .str "regex")]), ("source_template", .str "Mail")],
  .obj [("id", .str "x"), ("action", .str "EXPLODE"), ("tool", .str "mail")],
  .obj [("id", .str ""), ("action", .str "CHECK_TAINT"), ("tool", .str "mail"),
    ("tool_class", .str "SAFE_READ"), ("forbidden_tags", .str "pii"), ("sourceTemplate", .null)]]

def batteredPolicy : Json := .obj [("taint_rules", .null), ("taintRules", .arr batteredEntries)]

def batteredDocument : Json := .obj [("policies", .arr [batteredPolicy, .null])]

theorem restore_keeps_usable_rules_battered :
    batteredDocument.get? "policies" = some (.arr [batteredPolicy, .null]) ∧
    batteredPolicy.ListsRules batteredEntries ∧
    ∃ s, restore .empty (.random fun _ => "0") .lenient batteredDocument = .ok s ∧
      s.rules.map (fun r => (r.id, r.source)) =
        [("r", "imported"), ("r", "Mail"), ("imported-4-0", "imported")] ∧
      ∃ p, (s.compile true).policies = [p] ∧
        p.rules.map (·.action) = [.addTaint, .blockCurrent, .checkTaint] := by
  have hp : batteredDocument.get? "policies" = some (.arr [batteredPolicy, .null]) := rfl
  have he : batteredPolicy.ListsRules batteredEntries := .inr ⟨.inr rfl, rfl⟩
  obtain ⟨s, hs, hkept, hcompiled⟩ :=
    restore_keeps_usable_rules .empty (.random fun _ => "0") hp he
  obtain ⟨p, hpolicy, hactions⟩ := hcompiled true
  refine ⟨hp, he, s, hs, ?_, p, hpolicy, hactions.trans (by decide)⟩
  cases hs
  decide

end battered

end TaintPolicy
