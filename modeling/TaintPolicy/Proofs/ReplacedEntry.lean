import TaintPolicy.Proofs.ReadPolicies
import TaintPolicy.Proofs.RuleIds
import TaintPolicy.Proofs.Strictness

/-!
# Replacing one entry

A lenient reader makes of each entry a piece or nothing, whatever the other entries are. So when one
rule of a template or of a policy is replaced by any value at all, only the rule that is read at its
position can change, appear or disappear. The rules after it keep their ids, since these show the
positions in the document and not those among the rules that are left.
-/

namespace TaintPolicy

/-- One step into a value. -/
inductive Json.Step
  | field (name : String)
  | item (index : Nat)

/-- The value with `w` in the place where the steps lead; as it was where they lead nowhere. -/
def Json.replaceAt : Json → List Json.Step → Json → Json
  | _, [], w => w
  | .obj fs, .field name :: path, w =>
    match Fields.find? name fs with
    | some v => .obj (Fields.put name (v.replaceAt path w) fs)
    | none => .obj fs
  | .arr vs, .item i :: path, w => .arr (vs.modify i fun v => v.replaceAt path w)
  | v, _ :: _, _ => v

/-- The document with `w` as entry `j` of the rules that the template at position `i` has under a
key. -/
def replaceTemplateEntry (i : Nat) (key : String) (j : Nat) (w document : Json) : Json :=
  document.replaceAt [.field "rule_templates", .item i, .field key, .item j] w

/-- The document with `w` as entry `j` of the rules that the first policy has under a key. -/
def replacePolicyEntry (key : String) (j : Nat) (w document : Json) : Json :=
  document.replaceAt [.field "policies", .item 0, .field key, .item j] w

/-- What is read from two lists of entries that differ at most at position `j`: all but the pieces
of that position are the same, and these stand in the given relation. -/
def AgreeBut {α β : Type} (read : α → Except Fault (Option β)) (as : List α) (j : Nat)
    (R : Option β → Option β → Prop) (bs bs' : List β) : Prop :=
  ∃ before after old new,
    collect read (as.take j) = .ok before ∧ collect read (as.drop (j + 1)) = .ok after ∧
    bs = before ++ old.toList ++ after ∧ bs' = before ++ new.toList ++ after ∧ R old new

/-- The rules of two lists of entries that differ at most at position `j`. -/
def RulesAgreeBut (read : Json × Nat → Except Fault (Option NamedRule)) (entries : List Json)
    (j : Nat) : List NamedRule → List NamedRule → Prop :=
  AgreeBut read (numbered entries) j fun old new =>
    ∀ r ∈ old.toList ++ new.toList, ∃ e, read (e, j) = .ok (some r)

/-- The templates that are read before and after an entry at position `j` was replaced. -/
structure Template.AgreesBut (v : Json) (j : Nat) (t t' : Template) : Prop where
  name : t'.name = t.name
  description : t'.description = t.description
  gates : t'.gates = t.gates
  rules : RulesAgreeBut (readTemplateRule .lenient t.name) (ruleEntries v) j t.rules t'.rules
  others : t'.rules.filter (·.id ≠ templateId t.name j) =
    t.rules.filter (·.id ≠ templateId t.name j)

section replacing

open Json

variable (v w : Json) (key : String) (i : Nat) (path : List Step) (names : List String)

theorem get?_replaceAt (name : String) :
    (v.replaceAt (.field key :: path) w).get? name =
      if key = name then (v.get? name).map fun u => u.replaceAt path w else v.get? name := by
  cases v with
  | obj fs =>
    simp only [replaceAt, get?_obj]
    by_cases he : key = name
    · subst he
      cases hf : Fields.find? key fs with
      | none => simp [hf]
      | some u => simp [Fields.find?_put]
    · cases hf : Fields.find? key fs with
      | none => simp [he]
      | some u => simp [Fields.find?_put, he]
  | _ => simp [replaceAt, get?]

/-! Steps into a list change neither texts nor what is `null`. -/

theorem items?_replaceAt :
    (v.replaceAt (.item i :: path) w).items? =
      v.items?.map fun vs => vs.modify i fun u => u.replaceAt path w := by
  cases v <;> rfl

theorem text?_replaceAt : (v.replaceAt (.item i :: path) w).text? = v.text? := by
  cases v <;> rfl

theorem isNull_replaceAt : (v.replaceAt (.item i :: path) w).isNull = v.isNull := by
  cases v <;> rfl

theorem firstText?_replaceAt :
    (v.replaceAt (.field key :: .item i :: path) w).firstText? names = v.firstText? names := by
  have ht : ∀ name, ((v.replaceAt (.field key :: .item i :: path) w).get? name).bind text? =
      (v.get? name).bind text? := by
    intro name
    rw [get?_replaceAt]
    split
    · cases v.get? name with
      | none => rfl
      | some u => exact text?_replaceAt u w i path
    · rfl
  simp only [firstText?, ht]

theorem firstPresent?_replaceAt_of_notMem (h : key ∉ names) :
    (v.replaceAt (.field key :: path) w).firstPresent? names = v.firstPresent? names := by
  induction names with
  | nil => rfl
  | cons name names ih =>
    rw [List.mem_cons, not_or] at h
    have ih := ih h.2
    simp only [firstPresent?, List.findSome?_cons, get?_replaceAt, if_neg h.1] at ih ⊢
    rw [ih]

/-- The value that counts among several names is changed, or it is another one and stays. -/
theorem firstPresent?_replaceAt :
    (v.replaceAt (.field key :: .item i :: path) w).firstPresent? names = v.firstPresent? names ∨
      (v.replaceAt (.field key :: .item i :: path) w).firstPresent? names =
        (v.firstPresent? names).map fun u => u.replaceAt (.item i :: path) w := by
  induction names with
  | nil => exact .inl rfl
  | cons name names ih =>
    simp only [firstPresent?, List.findSome?_cons] at ih ⊢
    rw [get?_replaceAt]
    by_cases he : key = name
    · rw [if_pos he]
      cases v.get? name with
      | none => exact ih
      | some u =>
        rw [Option.map_some, Option.filter_some, Option.filter_some, isNull_replaceAt]
        cases u.isNull with
        | false => exact .inr rfl
        | true => exact ih
    · rw [if_neg he]
      cases (v.get? name).filter fun u => !u.isNull with
      | none => exact ih
      | some u => exact .inl rfl

theorem firstPresent?_replaceAt_self :
    (v.replaceAt (.field key :: .item i :: path) w).firstPresent? [key] =
      (v.firstPresent? [key]).map fun u => u.replaceAt (.item i :: path) w := by
  rw [firstPresent?_one, firstPresent?_one, get?_replaceAt, if_pos rfl]
  cases v.get? key with
  | none => rfl
  | some u =>
    rw [Option.map_some, Option.filter_some, Option.filter_some, isNull_replaceAt]
    cases u.isNull <;> rfl

variable {v w i path names} in
theorem listedEntries_of_firstPresent? {v' : Json}
    (h : v'.firstPresent? names =
      (v.firstPresent? names).map fun u => u.replaceAt (.item i :: path) w) :
    listedEntries v' names = (listedEntries v names).modify i fun u => u.replaceAt path w := by
  simp only [listedEntries, h]
  cases v.firstPresent? names with
  | none => simp
  | some u =>
    rw [Option.map_some, Option.bind_some, Option.bind_some, items?_replaceAt]
    cases u.items? <;> simp

/-- A list that is looked up under several names is changed at the position, or it is another one
and stays. -/
theorem listedEntries_replaceAt :
    ∃ f, listedEntries (v.replaceAt (.field key :: .item i :: path) w) names =
      (listedEntries v names).modify i f := by
  rcases firstPresent?_replaceAt v w key i path names with h | h
  · exact ⟨id, by rw [listedEntries, h, List.modify_id, listedEntries]⟩
  · exact ⟨_, listedEntries_of_firstPresent? h⟩

end replacing

section collecting

variable {α β : Type} {read : α → Except Fault (Option β)}

/-- A reader that never fails reads two lists that differ at one position alike, apart from what it
makes of that position. -/
theorem collect_modify (ht : ∀ a, ∃ piece, read a = .ok piece) (as : List α) (j : Nat) (f : α → α)
    {R : Option β → Option β → Prop} (h₀ : as[j]? = none → R none none)
    (hR : ∀ a p p', as[j]? = some a → read a = .ok p → read (f a) = .ok p' → R p p') :
    ∃ bs bs', collect read as = .ok bs ∧ collect read (as.modify j f) = .ok bs' ∧
      AgreeBut read as j R bs bs' := by
  choose g hg using ht
  have hc : ∀ as, collect read as = .ok (as.filterMap g) := collect_eq_filterMap g hg
  have hsplit : as = as.take j ++ (as[j]?.toList ++ as.drop (j + 1)) := by
    rw [← List.drop_eq_getElem?_toList_append, List.take_append_drop]
  have hmodify : as.modify j f = as.take j ++ ((as[j]?.map f).toList ++ as.drop (j + 1)) := by
    rw [List.modify_eq_take_drop, List.drop_eq_getElem?_toList_append]
    cases hj : as[j]? with
    | none =>
      have hd : as.drop (j + 1) = [] :=
        List.drop_eq_nil_of_le (Nat.le_succ_of_le (List.getElem?_eq_none_iff.mp hj))
      rw [hd]
      rfl
    | some a => rfl
  have htoList : ∀ x : Option α, x.toList.filterMap g = (x.bind g).toList := by
    intro x
    cases x with
    | none => rfl
    | some a => cases h : g a <;> simp [h]
  refine ⟨_, _, hc as, hc _, _, _, as[j]?.bind g, (as[j]?.map f).bind g, hc _, hc _, ?_, ?_, ?_⟩
  · rw [congrArg (List.filterMap g) hsplit, List.filterMap_append, List.filterMap_append, htoList,
      List.append_assoc]
  · rw [hmodify, List.filterMap_append, List.filterMap_append, htoList, List.append_assoc]
  · cases hj : as[j]? with
    | none => exact h₀ hj
    | some a => exact hR a (g a) (g (f a)) hj (hg a) (hg (f a))

theorem numbered_modify (es : List Json) (j : Nat) (f : Json → Json) :
    numbered (es.modify j f) = (numbered es).modify j fun x => (f x.1, x.2) := by
  apply List.ext_getElem?
  intro i
  rw [numbered, numbered, List.getElem?_zipIdx, List.getElem?_modify, List.getElem?_modify,
    List.getElem?_zipIdx]
  by_cases h : j = i <;> cases es[i]? <;> simp [h]

/-- Positions are not renumbered, whatever becomes of the entry that is replaced. -/
theorem collect_numbered_modify {read : Json × Nat → Except Fault (Option NamedRule)}
    (ht : ∀ x, ∃ piece, read x = .ok piece) (es : List Json) (j : Nat) (f : Json → Json) :
    ∃ rs rs', collect read (numbered es) = .ok rs ∧
      collect read (numbered (es.modify j f)) = .ok rs' ∧ RulesAgreeBut read es j rs rs' := by
  rw [numbered_modify]
  refine collect_modify ht (numbered es) j _ (fun _ => by simp) ?_
  intro x p p' hx hp hp' r hr
  have hj : x.2 = j := by
    rw [numbered, List.getElem?_zipIdx] at hx
    obtain ⟨e, -, rfl⟩ := Option.map_eq_some_iff.mp hx
    exact Nat.zero_add j
  rcases List.mem_append.mp hr with hr | hr
  · rw [Option.mem_toList.mp hr] at hp
    exact ⟨x.1, hj ▸ hp⟩
  · rw [Option.mem_toList.mp hr] at hp'
    exact ⟨f x.1, hj ▸ hp'⟩

end collecting

section templates

variable {key : String} (v w : Json) (j : Nat)

theorem filter_rules_of_agree {name : String} {es : List Json} {rs rs' : List NamedRule}
    (h : RulesAgreeBut (readTemplateRule .lenient name) es j rs rs') :
    rs'.filter (·.id ≠ templateId name j) = rs.filter (·.id ≠ templateId name j) := by
  obtain ⟨before, after, old, new, -, -, rfl, rfl, hj⟩ := h
  have hid : ∀ piece : Option NamedRule, (∀ r ∈ piece.toList, r ∈ old.toList ++ new.toList) →
      piece.toList.filter (·.id ≠ templateId name j) = [] := by
    intro piece hp
    apply List.filter_eq_nil_iff.mpr
    intro r hr
    obtain ⟨e, he⟩ := hj r (hp r hr)
    simp [id_of_readTemplateRule he]
  simp only [List.filter_append, hid old fun r hr => List.mem_append_left _ hr,
    hid new fun r hr => List.mem_append_right _ hr]

/-- A template keeps all but the rule of the entry that is replaced; one without a name is dropped
before and after. -/
theorem readTemplate_replaceAt (hk : key ∉ ["static_rules", "staticRules"]) :
    ∃ t t', readTemplate .lenient v = .ok t ∧
      readTemplate .lenient (v.replaceAt [.field key, .item j] w) = .ok t' ∧
      Option.Rel (fun t t' => t.AgreesBut v j t') t t' := by
  simp only [readTemplate, firstText?_replaceAt, firstPresent?_replaceAt_of_notMem v w key _ _ hk]
  cases v.firstText? ["name"] with
  | none => exact ⟨none, none, rfl, rfl, .none⟩
  | some name =>
    obtain ⟨gates, hg⟩ :=
      (readGates_forgiving (v.firstPresent? ["static_rules", "staticRules"])).total
    have ht : ∀ x, ∃ piece, readTemplateRule .lenient name x = .ok piece :=
      fun x => (Forgiving.map _ (readRule_forgiving x.1)).total
    obtain ⟨f, hf⟩ := listedEntries_replaceAt v w key j [] ["taint_rules", "taintRules"]
    obtain ⟨rs, rs', hr, hr', ha⟩ := collect_numbered_modify ht (ruleEntries v) j f
    rw [ruleEntries, ← hf] at hr'
    rw [ruleEntries] at hr
    simp only [hg, hr, hr', ok_bind]
    exact ⟨_, _, rfl, rfl, .some ⟨rfl, rfl, rfl, ha, filter_rules_of_agree j ha⟩⟩

theorem templateEntries_replaceTemplateEntry (i : Nat) (document : Json) :
    templateEntries (replaceTemplateEntry i key j w document) =
      (templateEntries document).modify i fun v => v.replaceAt [.field key, .item j] w :=
  listedEntries_of_firstPresent?
    (firstPresent?_replaceAt_self document w "rule_templates" i [.field key, .item j])

theorem readTemplates_replaceTemplateEntry (hk : key ∉ ["static_rules", "staticRules"])
    {document : Json} {i : Nat} (hv : (templateEntries document)[i]? = some v) :
    ∃ ts ts', readTemplates .lenient document = .ok ts ∧
      readTemplates .lenient (replaceTemplateEntry i key j w document) = .ok ts' ∧
      AgreeBut (readTemplate .lenient) (templateEntries document) i
        (Option.Rel fun t t' => t.AgreesBut v j t') ts ts' := by
  have hne : templateEntries document ≠ [] := by
    intro he
    simp [he] at hv
  have hne' : templateEntries (replaceTemplateEntry i key j w document) ≠ [] := by
    rw [templateEntries_replaceTemplateEntry, Ne, List.modify_eq_nil_iff]
    exact hne
  rw [readTemplates_of_templateEntries hne, readTemplates_of_templateEntries hne',
    templateEntries_replaceTemplateEntry]
  have ht : ∀ v, ∃ t, readTemplate .lenient v = .ok t := fun v => (readTemplate_forgiving v).total
  refine collect_modify ht (templateEntries document) i _ (fun hi => ?_) ?_
  · rw [hv] at hi
    cases hi
  · intro v' t t' hv' ht ht'
    obtain rfl : v = v' := Option.some.inj (hv ▸ hv')
    obtain ⟨u, u', hu, hu', hrel⟩ := readTemplate_replaceAt v w j hk
    rw [hu] at ht
    rw [hu'] at ht'
    cases ht
    cases ht'
    exact hrel

end templates

section policies

variable {key : String} (w : Json) (j : Nat) (document : Json)

theorem firstPolicy?_replacePolicyEntry :
    firstPolicy? (replacePolicyEntry key j w document) =
      (firstPolicy? document).map fun policy => policy.replaceAt [.field key, .item j] w := by
  rw [firstPolicy?, replacePolicyEntry, listedEntries_of_firstPresent?
    (firstPresent?_replaceAt_self document w "policies" 0 [.field key, .item j]), firstPolicy?]
  cases listedEntries document ["policies"] <;> rfl

theorem policyEntries_replacePolicyEntry :
    ∃ f, policyEntries (replacePolicyEntry key j w document) =
      (policyEntries document).modify j f := by
  rw [policyEntries, policyEntries, firstPolicy?_replacePolicyEntry]
  cases firstPolicy? document with
  | none => exact ⟨id, by simp⟩
  | some policy => exact listedEntries_replaceAt policy w key j [] ["taint_rules", "taintRules"]

theorem policyGates?_replacePolicyEntry (hk : key ∉ ["static_rules", "staticRules"]) :
    policyGates? (replacePolicyEntry key j w document) = policyGates? document := by
  rw [policyGates?, policyGates?, firstPolicy?_replacePolicyEntry]
  cases firstPolicy? document with
  | none => rfl
  | some policy => exact firstPresent?_replaceAt_of_notMem policy w key _ _ hk

theorem restoredFrame_replacePolicyEntry (catalog : Catalog) (gates : Fields Gate) :
    restoredFrame catalog (replacePolicyEntry key j w document) gates =
      restoredFrame catalog document gates := by
  rw [restoredFrame, restoredFrame, firstPolicy?_replacePolicyEntry]
  cases firstPolicy? document with
  | none => rfl
  | some policy =>
    rw [Option.map_some, Option.bind_some, Option.bind_some, firstText?_replaceAt]

/-- A restored selection keeps all but the rule of the entry that is replaced. -/
theorem restore_replacePolicyEntry (hk : key ∉ ["static_rules", "staticRules"]) (catalog : Catalog)
    (assigner : Assigner) :
    ∃ s s', restore catalog assigner .lenient document = .ok s ∧
      restore catalog assigner .lenient (replacePolicyEntry key j w document) = .ok s' ∧
      s' = { s with rules := s'.rules } ∧
      RulesAgreeBut (restoreRule assigner .lenient) (policyEntries document) j s.rules s'.rules := by
  obtain ⟨s, hs⟩ := (restore_forgiving catalog assigner document).total
  obtain ⟨s', hs'⟩ :=
    (restore_forgiving catalog assigner (replacePolicyEntry key j w document)).total
  refine ⟨s, s', hs, hs', ?_⟩
  obtain ⟨gates, rules, hg, hr, rfl⟩ := restore_eq_ok hs
  obtain ⟨gates', rules', hg', hr', rfl⟩ := restore_eq_ok hs'
  rw [policyGates?_replacePolicyEntry w j document hk, hg] at hg'
  cases hg'
  refine ⟨by rw [restoredFrame_replacePolicyEntry], ?_⟩
  have ht : ∀ x, ∃ piece, restoreRule assigner .lenient x = .ok piece :=
    fun x => (Forgiving.map _ (readRule_forgiving x.1)).total
  obtain ⟨f, hf⟩ := policyEntries_replacePolicyEntry w j document
  obtain ⟨rs, rs', hc, hc', ha⟩ := collect_numbered_modify ht (policyEntries document) j f
  rw [hf, hc'] at hr'
  rw [hc] at hr
  cases hr
  cases hr'
  exact ha

end policies

/-- When an entry of the rules of one template is replaced by any value, lenient reading makes the
same templates of the document, up to the rule with the id of that position in that template. When
an entry of the rules of the first policy is replaced, the restored selection keeps its name, its
tools and all rules of other entries, with their ids. -/
theorem replaced_entry_is_local (j : Nat) (w : Json) :
    (∀ document i v, (templateEntries document)[i]? = some v →
      ∀ key ∈ ["taint_rules", "taintRules"], ∃ ts ts',
        readTemplates .lenient document = .ok ts ∧
        readTemplates .lenient (replaceTemplateEntry i key j w document) = .ok ts' ∧
        AgreeBut (readTemplate .lenient) (templateEntries document) i
          (Option.Rel fun t t' => t.AgreesBut v j t') ts ts') ∧
    ∀ document, ∀ key ∈ ["taint_rules", "taintRules"], ∀ catalog assigner, ∃ s s',
      restore catalog assigner .lenient document = .ok s ∧
      restore catalog assigner .lenient (replacePolicyEntry key j w document) = .ok s' ∧
      s' = { s with rules := s'.rules } ∧
      RulesAgreeBut (restoreRule assigner .lenient) (policyEntries document) j s.rules s'.rules := by
  have hk : ∀ key ∈ ["taint_rules", "taintRules"], key ∉ ["static_rules", "staticRules"] := by
    decide
  constructor
  · intro document i v hv key hkey
    exact readTemplates_replaceTemplateEntry v w j (hk key hkey) hv
  · intro document key hkey catalog assigner
    exact restore_replacePolicyEntry w j document (hk key hkey) catalog assigner

section drift

/-! A list of three rules, the second one no mapping, in a template and in a policy. The second
becomes readable, and the third keeps its id. -/

def driftRules (second : Json) : Json :=
  .arr [.obj [("action", .str "ADD_TAINT"), ("tool", .str "mail")], second,
    .obj [("action", .str "CHECK_TAINT"), ("tool", .str "shell")]]

def driftRule : Json := .obj [("action", .str "BLOCK_SECOND"), ("tool", .str "disk")]

def driftDocument (second : Json) : Json :=
  .obj [("rule_templates", .arr [.null, .obj [("name", .str "T"), ("taintRules", driftRules second)]]),
    ("policies", .arr [.obj [("taint_rules", driftRules second)]])]

def driftTemplate : Json := .obj [("name", .str "T"), ("taintRules", driftRules .null)]

theorem replaced_entry_is_local_drift :
    (templateEntries (driftDocument .null))[1]? = some driftTemplate ∧
    "taintRules" ∈ ["taint_rules", "taintRules"] ∧
    (∃ ts ts', AgreeBut (readTemplate .lenient) (templateEntries (driftDocument .null)) 1
        (Option.Rel fun t t' => t.AgreesBut driftTemplate 1 t') ts ts' ∧
      (corpusOf ts).map (·.id) = ["T-0", "T-2"] ∧
      (corpusOf ts').map (·.id) = ["T-0", "T-1", "T-2"]) ∧
    "taint_rules" ∈ ["taint_rules", "taintRules"] ∧
    ∃ s s' : Selection, RulesAgreeBut (restoreRule (.random fun _ => "0") .lenient)
        (policyEntries (driftDocument .null)) 1 s.rules s'.rules ∧
      s.ruleIds = ["imported-0-0", "imported-2-0"] ∧
      s'.ruleIds = ["imported-0-0", "imported-1-0", "imported-2-0"] := by
  have hv : (templateEntries (driftDocument .null))[1]? = some driftTemplate := rfl
  have hk : "taintRules" ∈ ["taint_rules", "taintRules"] := by decide
  have hk' : "taint_rules" ∈ ["taint_rules", "taintRules"] := by decide
  obtain ⟨ts, ts', ht, ht', ha⟩ := (replaced_entry_is_local 1 driftRule).1 _ _ _ hv _ hk
  obtain ⟨s, s', hs, hs', -, hr⟩ := (replaced_entry_is_local 1 driftRule).2
    (driftDocument .null) _ hk' .empty (.random fun _ => "0")
  cases ht
  cases ht'
  cases hs
  cases hs'
  exact ⟨hv, hk, ⟨_, _, ha, rfl, rfl⟩, hk', _, _, hr, rfl, rfl⟩

end drift

end TaintPolicy
