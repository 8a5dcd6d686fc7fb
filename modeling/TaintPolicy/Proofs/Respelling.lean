import TaintPolicy.Proofs.CompactText
import TaintPolicy.Proofs.ReadPolicies

/-!
# Spellings of keys

Some keys of a rule may be spelled in two ways. A shape says at which places of a value a reader
looks for such keys. Two values that differ there in the spelling of keys only are read alike, in
either mode and down to the faults, as long as no object holds both spellings of one key: then each
lookup finds the same value, whichever spelling it tries first.
-/

namespace TaintPolicy

/-- What a reader looks for in a value: nothing, the items of a list, or the fields of an object,
whose keys have the listed groups of spellings. -/
inductive Shape
  | any
  | list (item : Shape)
  | record (spellings : List (List String)) (field : String → Shape)

/-- One key, or two spellings of one. -/
def SameKey (spellings : List (List String)) (key key' : String) : Prop :=
  key' = key ∨ ∃ names ∈ spellings, key ∈ names ∧ key' ∈ names

/-- No key occurs in two spellings. -/
def OneSpelling (spellings : List (List String)) (fs : Fields Json) : Prop :=
  ∀ names ∈ spellings, (fs.countP fun f => f.1 ∈ names) ≤ 1

instance (spellings : List (List String)) (key key' : String) :
    Decidable (SameKey spellings key key') :=
  inferInstanceAs (Decidable (_ ∨ _))

instance (spellings : List (List String)) (fs : Fields Json) :
    Decidable (OneSpelling spellings fs) :=
  inferInstanceAs (Decidable (∀ names ∈ spellings, _))

/-- The second value is the first with some of the keys that the shape names in another spelling. No
object whose keys change has a key in two spellings. -/
def Shape.Respells : Shape → Json → Json → Prop
  | any, v, v' => v' = v
  | list item, v, v' =>
    v' = v ∨ ∃ vs vs', v = .arr vs ∧ v' = .arr vs' ∧ List.Forall₂ item.Respells vs vs'
  | record spellings field, v, v' =>
    v' = v ∨ ∃ fs fs', v = .obj fs ∧ v' = .obj fs' ∧ OneSpelling spellings fs ∧
      List.Forall₂ (fun f f' => SameKey spellings f.1 f'.1 ∧ (field f.1).Respells f.2 f'.2) fs fs'

def stepShape : Shape := .record [["class", "Class"]] fun _ => .any

def predicateShape : Shape :=
  .record [["session_has_class", "sessionHasClass"], ["current_tool_class", "currentToolClass"]]
    fun _ => .any

def conditionShape : Shape :=
  .record [["AND", "and"], ["OR", "or"]] fun key =>
    if key ∈ ["AND", "and", "OR", "or"] then .list predicateShape else .any

def patternShape : Shape :=
  .record [["maxDistance", "max_distance"]] fun key =>
    if key = "steps" then .list stepShape
    else if key = "condition" then conditionShape
    else .any

def ruleShape : Shape :=
  .record [["tool_class", "toolClass"], ["forbidden_tags", "forbiddenTags"],
    ["sourceTemplate", "source_template"]] fun key =>
    if key = "pattern" then patternShape else .any

/-- The shape of a template and of a policy. -/
def bundleShape : Shape :=
  .record [["static_rules", "staticRules"], ["taint_rules", "taintRules"]] fun key =>
    if key ∈ ["taint_rules", "taintRules"] then .list ruleShape else .any

def templatesShape : Shape :=
  .record [] fun key => if key = "rule_templates" then .list bundleShape else .any

def policiesShape : Shape :=
  .record [] fun key => if key = "policies" then .list bundleShape else .any

namespace Shape

theorem respells_refl (s : Shape) (v : Json) : s.Respells v v := by
  cases s with
  | any => rfl
  | list item => exact .inl rfl
  | record spellings field => exact .inl rfl

theorem rel_refl (s : Shape) (o : Option Json) : Option.Rel s.Respells o o := by
  cases o with
  | none => exact .none
  | some v => exact .some (s.respells_refl v)

section values

variable {s : Shape} {v v' : Json}

/-! Respelling changes neither texts nor the kind of a value. -/

theorem Respells.cases (h : s.Respells v v') :
    v' = v ∨ (∃ vs vs', v = .arr vs ∧ v' = .arr vs') ∨ ∃ fs fs', v = .obj fs ∧ v' = .obj fs' := by
  cases s with
  | any => exact .inl h
  | list item =>
    rcases h with rfl | ⟨vs, vs', rfl, rfl, -⟩
    · exact .inl rfl
    · exact .inr (.inl ⟨vs, vs', rfl, rfl⟩)
  | record spellings field =>
    rcases h with rfl | ⟨fs, fs', rfl, rfl, -, -⟩
    · exact .inl rfl
    · exact .inr (.inr ⟨fs, fs', rfl, rfl⟩)

theorem Respells.text?_eq (h : s.Respells v v') : v'.text? = v.text? := by
  rcases h.cases with rfl | ⟨vs, vs', rfl, rfl⟩ | ⟨fs, fs', rfl, rfl⟩ <;> rfl

theorem Respells.isNull_eq (h : s.Respells v v') : v'.isNull = v.isNull := by
  rcases h.cases with rfl | ⟨vs, vs', rfl, rfl⟩ | ⟨fs, fs', rfl, rfl⟩ <;> rfl

theorem Respells.isObject_eq (h : s.Respells v v') : v'.isObject = v.isObject := by
  rcases h.cases with rfl | ⟨vs, vs', rfl, rfl⟩ | ⟨fs, fs', rfl, rfl⟩ <;> rfl

theorem Respells.items?_rel {item : Shape} (h : (list item).Respells v v') :
    Option.Rel (List.Forall₂ item.Respells) v.items? v'.items? := by
  rcases h with rfl | ⟨vs, vs', rfl, rfl, h⟩
  · cases v'.items? with
    | none => exact .none
    | some vs => exact .some (List.forall₂_same.mpr fun w _ => respells_refl item w)
  · exact .some h

end values

section lookups

variable {spellings : List (List String)} {names : List String} {fs fs' : Fields Json}

/-- A key is looked up under one name or under all its spellings, and no name is a spelling of
another key. -/
def Reads (spellings : List (List String)) (names : List String) : Prop :=
  (names ∈ spellings ∨ ∀ name ∈ names, ∀ other ∈ names, name = other) ∧
    ∀ group ∈ spellings, group = names ∨ ∀ name ∈ group, name ∉ names

instance (spellings : List (List String)) (names : List String) :
    Decidable (Reads spellings names) :=
  inferInstanceAs (Decidable (_ ∧ _))

/-- The value of the first field with one of the names. -/
def fieldAmong? (names : List String) (fs : Fields Json) : Option Json :=
  (List.find? (fun f => f.1 ∈ names) fs).map (·.2)

theorem fieldAmong?_eq_none_or (names : List String) (fs : Fields Json) :
    fieldAmong? names fs = none ∨ ∃ name ∈ names, Fields.find? name fs = fieldAmong? names fs := by
  induction fs with
  | nil => exact .inl rfl
  | cons f fs ih =>
    by_cases hf : f.1 ∈ names
    · exact .inr ⟨f.1, hf, by simp [fieldAmong?, Fields.find?, hf]⟩
    · have hskip : fieldAmong? names (f :: fs) = fieldAmong? names fs := by
        simp [fieldAmong?, hf]
      rw [hskip]
      refine ih.imp_right ?_
      rintro ⟨name, hn, he⟩
      have hne : f.1 ≠ name := by
        rintro rfl
        exact hf hn
      exact ⟨name, hn, (Fields.find?_cons_of_ne hne f.2 fs).trans he⟩

theorem find?_eq_none_or
    (hc : (fs.countP fun f => f.1 ∈ names) ≤ 1 ∨ ∀ name ∈ names, ∀ other ∈ names, name = other)
    {name : String} (hn : name ∈ names) :
    Fields.find? name fs = none ∨ Fields.find? name fs = fieldAmong? names fs := by
  induction fs with
  | nil => exact .inl rfl
  | cons f fs ih =>
    by_cases he : f.1 = name
    · exact .inr (by simp [fieldAmong?, Fields.find?, he, hn])
    rw [Fields.find?_cons_of_ne he]
    by_cases hf : f.1 ∈ names
    · rcases hc with hc | hc
      · -- The one field with such a name is the first, so no field is left for this name.
        have hrest : name ∉ Fields.names fs := by
          intro hm
          obtain ⟨g, hg, rfl⟩ := List.mem_map.mp hm
          have hpos : 0 < fs.countP fun f => f.1 ∈ names :=
            List.countP_pos_iff.mpr ⟨g, hg, by simpa using hn⟩
          rw [List.countP_cons_of_pos (by simpa using hf)] at hc
          omega
        exact .inl (Fields.find?_eq_none_iff.mpr hrest)
      · exact absurd (hc _ hf _ hn) he
    · have hskip : fieldAmong? names (f :: fs) = fieldAmong? names fs := by
        simp [fieldAmong?, hf]
      rw [hskip]
      exact ih (hc.imp_left fun hc => by simpa [hf] using hc)

/-- Where one field at most has one of the names, it does not matter which name is tried first. -/
theorem findSome?_find? {γ : Type} {look : Option Json → Option γ} (hl : look none = none)
    (hc : (fs.countP fun f => f.1 ∈ names) ≤ 1 ∨ ∀ name ∈ names, ∀ other ∈ names, name = other) :
    (names.findSome? fun name => look (Fields.find? name fs)) = look (fieldAmong? names fs) := by
  cases h : names.findSome? fun name => look (Fields.find? name fs) with
  | none =>
    rw [List.findSome?_eq_none_iff] at h
    rcases fieldAmong?_eq_none_or names fs with ha | ⟨name, hn, ha⟩
    · rw [ha, hl]
    · rw [← ha, h name hn]
  | some found =>
    obtain ⟨name, hn, hf⟩ := List.exists_of_findSome?_eq_some h
    rcases find?_eq_none_or hc hn with ha | ha
    · rw [ha, hl] at hf
      cases hf
    · rw [← ha, hf]

theorem mem_iff_of_sameKey {key key' : String} (h : SameKey spellings key key')
    (hr : Reads spellings names) : key' ∈ names ↔ key ∈ names := by
  rcases h with rfl | ⟨group, hg, hk, hk'⟩
  · rfl
  · rcases hr.2 group hg with rfl | hd
    · simp only [hk, hk']
    · simp only [hd key hk, hd key' hk']

/-- The fields of two spellings of an object. -/
def FieldsRespell (spellings : List (List String)) (field : String → Shape) :
    Fields Json → Fields Json → Prop :=
  List.Forall₂ fun f f' => SameKey spellings f.1 f'.1 ∧ (field f.1).Respells f.2 f'.2

theorem countP_eq {field : String → Shape} (h : FieldsRespell spellings field fs fs')
    (hr : Reads spellings names) :
    (fs'.countP fun f => f.1 ∈ names) = fs.countP fun f => f.1 ∈ names := by
  induction h with
  | nil => rfl
  | cons hf _ ih => simp only [List.countP_cons, ih, mem_iff_of_sameKey hf.1 hr]

theorem fieldAmong?_rel {field : String → Shape} (h : FieldsRespell spellings field fs fs')
    (hr : Reads spellings names) :
    Option.Rel (fun w w' => ∃ name ∈ names, (field name).Respells w w') (fieldAmong? names fs)
      (fieldAmong? names fs') := by
  induction h with
  | nil => exact .none
  | @cons f f' fs fs' hf _ ih =>
    have hm := mem_iff_of_sameKey hf.1 hr
    by_cases hn : f.1 ∈ names
    · have hw := Option.Rel.some (r := fun w w' => ∃ name ∈ names, (field name).Respells w w')
        ⟨f.1, hn, hf.2⟩
      simpa [fieldAmong?, hn, hm] using hw
    · simpa [fieldAmong?, hn, hm] using ih

variable {field : String → Shape} {v v' : Json}

/-- Looking a key up under all its spellings finds the values of one field, in either value. -/
theorem Respells.findSome?_rel (h : (record spellings field).Respells v v')
    (hr : Reads spellings names) :
    v' = v ∨ ∃ o o', Option.Rel (fun w w' => ∃ name ∈ names, (field name).Respells w w') o o' ∧
      ∀ {γ : Type} (look : Option Json → Option γ), look none = none →
        (names.findSome? fun name => look (v.get? name)) = look o ∧
        (names.findSome? fun name => look (v'.get? name)) = look o' := by
  rcases h with rfl | ⟨fs, fs', rfl, rfl, hs, h⟩
  · exact .inl rfl
  have hc : (fs.countP fun f => f.1 ∈ names) ≤ 1 ∨
      ∀ name ∈ names, ∀ other ∈ names, name = other := hr.1.imp_left (hs names)
  have hc' := hc
  rw [← countP_eq h hr] at hc'
  exact .inr ⟨_, _, fieldAmong?_rel h hr, fun look hl =>
    ⟨findSome?_find? hl hc, findSome?_find? hl hc'⟩⟩

theorem Respells.firstText?_eq (h : (record spellings field).Respells v v')
    (hr : Reads spellings names) : v'.firstText? names = v.firstText? names := by
  rcases h.findSome?_rel hr with rfl | ⟨o, o', ho, hlook⟩
  · rfl
  obtain ⟨hv, hv'⟩ := hlook (fun w => nonEmpty (w.bind Json.text?)) rfl
  rw [Json.firstText?, Json.firstText?, hv, hv']
  cases ho with
  | none => rfl
  | some hw =>
    obtain ⟨name, -, hw⟩ := hw
    rw [Option.bind_some, Option.bind_some, hw.text?_eq]

theorem Respells.firstPresent?_rel (h : (record spellings field).Respells v v')
    (names : List String) (hr : Reads spellings names) {s : Shape}
    (hs : ∀ name ∈ names, field name = s) :
    Option.Rel s.Respells (v.firstPresent? names) (v'.firstPresent? names) := by
  rcases h.findSome?_rel hr with rfl | ⟨o, o', ho, hlook⟩
  · exact s.rel_refl _
  obtain ⟨hv, hv'⟩ := hlook (fun o => o.filter fun w => !w.isNull) rfl
  rw [Json.firstPresent?, Json.firstPresent?, hv, hv']
  cases ho with
  | none => exact .none
  | @some w w' hw =>
    obtain ⟨name, hn, hw⟩ := hw
    rw [Option.filter_some, Option.filter_some, hw.isNull_eq]
    split
    · exact .some (hs name hn ▸ hw)
    · exact .none

theorem Respells.get?_rel (h : (record spellings field).Respells v v') (name : String)
    (hr : Reads spellings [name]) :
    Option.Rel (field name).Respells (v.get? name) (v'.get? name) := by
  rcases h.findSome?_rel hr with rfl | ⟨o, o', ho, hlook⟩
  · exact (field name).rel_refl _
  obtain ⟨hv, hv'⟩ := hlook id rfl
  have hone : ∀ u : Json, ([name].findSome? fun name => id (u.get? name)) = u.get? name := by
    intro u
    simp only [List.findSome?_cons, List.findSome?_nil, id]
    cases u.get? name <;> rfl
  rw [← hone v, ← hone v', hv, hv']
  cases ho with
  | none => exact .none
  | some hw =>
    obtain ⟨other, hn, hw⟩ := hw
    exact .some (List.mem_singleton.mp hn ▸ hw)

end lookups

end Shape

section readers

variable {v v' : Json} {o o' : Option Json} (mode : Mode)

theorem collect_congr {α β : Type} {R : α → α → Prop} {read : α → Except Fault (Option β)}
    {as as' : List α} (h : List.Forall₂ R as as') (hr : ∀ a a', R a a' → read a' = read a) :
    collect read as' = collect read as := by
  induction h with
  | nil => rfl
  | cons ha _ ih => simp only [collect, hr _ _ ha, ih]

theorem eq_of_rel_any (h : Option.Rel Shape.any.Respells o o') : o' = o := by
  cases h with
  | none => rfl
  | some h => exact congrArg some h

theorem bind_items?_rel {item : Shape} (h : Option.Rel (Shape.list item).Respells o o') :
    Option.Rel (List.Forall₂ item.Respells) (o.bind Json.items?) (o'.bind Json.items?) := by
  cases h with
  | none => exact .none
  | some h => exact h.items?_rel

theorem readStep_congr (h : stepShape.Respells v v') : readStep mode v' = readStep mode v := by
  rw [readStep, readStep, h.firstText?_eq (by decide)]

theorem readDistance_congr (h : patternShape.Respells v v') :
    readDistance mode v' = readDistance mode v := by
  have hd := h.firstPresent?_rel ["maxDistance", "max_distance"] (by decide) (s := .any) (by simp)
  rw [readDistance, readDistance, eq_of_rel_any hd]

theorem readSequence_congr (h : patternShape.Respells v v') :
    readSequence mode v' = readSequence mode v := by
  have hs := bind_items?_rel (h.get?_rel "steps" (by decide))
  rw [readSequence, readSequence, readDistance_congr mode h]
  generalize (v.get? "steps").bind Json.items? = vs at hs ⊢
  generalize (v'.get? "steps").bind Json.items? = vs' at hs ⊢
  cases hs with
  | none => rfl
  | some hs => simp only [collect_congr hs fun _ _ => readStep_congr mode]

theorem readPredicate_congr (h : predicateShape.Respells v v') :
    readPredicate mode v' = readPredicate mode v := by
  rw [readPredicate, readPredicate, h.isNull_eq, h.firstText?_eq (by decide),
    h.firstText?_eq (by decide)]

theorem readBranch_congr (h : Option.Rel (Shape.list predicateShape).Respells o o') :
    readBranch mode o' = readBranch mode o := by
  cases h with
  | none => rfl
  | @some w w' h =>
    have hs := h.items?_rel
    rw [readBranch, readBranch]
    generalize w.items? = vs at hs ⊢
    generalize w'.items? = vs' at hs ⊢
    cases hs with
    | none => rfl
    | some hs => simp only [collect_congr hs fun _ _ => readPredicate_congr mode]

theorem readLogic_congr (h : patternShape.Respells v v') :
    readLogic mode v' = readLogic mode v := by
  have hc := h.firstPresent?_rel ["condition"] (by decide) (s := conditionShape) (by simp)
  rw [readLogic, readLogic, readCondition, readCondition, h.isObject_eq]
  generalize v.firstPresent? ["condition"] = c at hc ⊢
  generalize v'.firstPresent? ["condition"] = c' at hc ⊢
  cases hc with
  | none => rfl
  | @some c c' hc =>
    have hand :=
      hc.firstPresent?_rel ["AND", "and"] (by decide) (s := .list predicateShape) (by simp)
    have hor :=
      hc.firstPresent?_rel ["OR", "or"] (by decide) (s := .list predicateShape) (by simp)
    have ho := hc.isObject_eq
    cases hk : c.isObject with
    | false => simp only [ho, hk, Bool.false_eq_true, if_false]
    | true =>
      simp only [ho, hk, if_true, ok_bind, Option.bind_some, readBranch_congr mode hand,
        readBranch_congr mode hor]

theorem readPattern_congr (h : patternShape.Respells v v') :
    readPattern mode v' = readPattern mode v := by
  have ht := eq_of_rel_any (h.get?_rel "type" (by decide))
  rw [readPattern, readPattern, ht, readSequence_congr mode h, readLogic_congr mode h]

theorem readRulePattern_congr (h : ruleShape.Respells v v') :
    readRulePattern mode v' = readRulePattern mode v := by
  have hp := h.firstPresent?_rel ["pattern"] (by decide) (s := patternShape) (by simp)
  rw [readRulePattern, readRulePattern]
  generalize v.firstPresent? ["pattern"] = p at hp ⊢
  generalize v'.firstPresent? ["pattern"] = p' at hp ⊢
  cases hp with
  | none => rfl
  | some hp => exact readPattern_congr mode hp

theorem readRule_congr (h : ruleShape.Respells v v') : readRule mode v' = readRule mode v := by
  have htags : readTags mode v' = readTags mode v := by
    have ht :=
      h.firstPresent?_rel ["forbidden_tags", "forbiddenTags"] (by decide) (s := .any) (by simp)
    rw [readTags, readTags, eq_of_rel_any ht]
  have htext : ∀ names, Shape.Reads _ names → v'.firstText? names = v.firstText? names :=
    fun names hr => h.firstText?_eq hr
  simp only [readRule, readAction, h.isObject_eq, htags, readRulePattern_congr mode h,
    htext ["action"] (by decide), htext ["tool"] (by decide), htext ["tag"] (by decide),
    htext ["error"] (by decide), htext ["id"] (by decide),
    htext ["tool_class", "toolClass"] (by decide),
    htext ["sourceTemplate", "source_template"] (by decide)]

/-- Each entry keeps its position. -/
theorem forall₂_numbered {R : Json → Json → Prop} {vs vs' : List Json} (h : List.Forall₂ R vs vs') :
    List.Forall₂ (fun e e' => R e.1 e'.1 ∧ e'.2 = e.2) (numbered vs) (numbered vs') := by
  suffices hn : ∀ n, List.Forall₂ (fun e e' => R e.1 e'.1 ∧ e'.2 = e.2) (vs.zipIdx n)
      (vs'.zipIdx n) from hn 0
  induction h with
  | nil => exact fun _ => .nil
  | cons hv _ ih => exact fun n => .cons ⟨hv, rfl⟩ (ih (n + 1))

/-- The entries of a list are respelled with it. -/
theorem listedEntries_rel {spellings : List (List String)} {field : String → Shape}
    (h : (Shape.record spellings field).Respells v v') (names : List String)
    (hr : Shape.Reads spellings names) {s : Shape} (hs : ∀ name ∈ names, field name = .list s) :
    List.Forall₂ s.Respells (listedEntries v names) (listedEntries v' names) := by
  have hi := bind_items?_rel (h.firstPresent?_rel names hr hs)
  rw [listedEntries, listedEntries]
  generalize (v.firstPresent? names).bind Json.items? = vs at hi ⊢
  generalize (v'.firstPresent? names).bind Json.items? = vs' at hi ⊢
  cases hi with
  | none => exact .nil
  | some hi => exact hi

section bundles

variable (h : bundleShape.Respells v v')
include h

theorem bundle_gates_eq : v'.firstPresent? ["static_rules", "staticRules"] =
    v.firstPresent? ["static_rules", "staticRules"] :=
  eq_of_rel_any (h.firstPresent?_rel _ (by decide) (by simp))

/-- The rules of a template or a policy are read alike by any reader that reads each rule alike. -/
theorem bundle_rules_congr {α : Type} (read : Json × Nat → Except Fault (Option α))
    (hr : ∀ w w' i, ruleShape.Respells w w' → read (w', i) = read (w, i)) :
    collect read (numbered (listedEntries v' ["taint_rules", "taintRules"])) =
      collect read (numbered (listedEntries v ["taint_rules", "taintRules"])) := by
  have hrel := listedEntries_rel h ["taint_rules", "taintRules"] (by decide) (s := ruleShape)
    (by simp)
  refine collect_congr (forall₂_numbered hrel) ?_
  rintro ⟨w, i⟩ ⟨w', j⟩ ⟨hw, rfl⟩
  exact hr w w' _ hw

theorem readTemplate_congr : readTemplate mode v' = readTemplate mode v := by
  have hrules := fun name => bundle_rules_congr h (readTemplateRule mode name)
    fun w w' i hw => by rw [readTemplateRule, readTemplateRule, readRule_congr mode hw]
  have hname : v'.firstText? ["name"] = v.firstText? ["name"] := h.firstText?_eq (by decide)
  have hdescription : v'.firstText? ["description"] = v.firstText? ["description"] :=
    h.firstText?_eq (by decide)
  simp only [readTemplate, bundle_gates_eq h, hrules, hname, hdescription]

end bundles

theorem readTemplates_congr (h : templatesShape.Respells v v') :
    readTemplates mode v' = readTemplates mode v := by
  have ht := h.firstPresent?_rel ["rule_templates"] (by decide) (s := .list bundleShape) (by simp)
  rw [readTemplates, readTemplates]
  generalize v.firstPresent? ["rule_templates"] = w at ht ⊢
  generalize v'.firstPresent? ["rule_templates"] = w' at ht ⊢
  cases ht with
  | none => rfl
  | @some w w' ht =>
    have hi := ht.items?_rel
    generalize hvs : w.items? = vs at hi
    generalize hvs' : w'.items? = vs' at hi
    cases hi with
    | none => simp only [hvs, hvs']
    | some hi =>
      simp only [hvs, hvs', collect_congr hi fun _ _ => readTemplate_congr mode]

theorem restore_congr (catalog : Catalog) (assigner : Assigner) (h : policiesShape.Respells v v') :
    restore catalog assigner mode v' = restore catalog assigner mode v := by
  have hp := listedEntries_rel h ["policies"] (by decide) (s := bundleShape) (by simp)
  rw [restore, restore, firstPolicy?, firstPolicy?]
  generalize listedEntries v ["policies"] = ps at hp ⊢
  generalize listedEntries v' ["policies"] = ps' at hp ⊢
  cases hp with
  | nil => rfl
  | @cons policy policy' _ _ hp _ =>
    have hrules := bundle_rules_congr hp (restoreRule assigner mode)
      fun w w' i hw => by rw [restoreRule, restoreRule, readRule_congr mode hw]
    have hname : policy'.firstText? ["name"] = policy.firstText? ["name"] :=
      hp.firstText?_eq (by decide)
    simp only [List.head?_cons, bundle_gates_eq hp, hrules, hname]

end readers

/-- What is read of a rule, of a text of templates and of a policy does not depend on the spelling
of any key, and neither does what is wrong with it. -/
theorem spelling_is_immaterial (mode : Mode) :
    (∀ v v', ruleShape.Respells v v' → readRule mode v' = readRule mode v) ∧
    (∀ text text' v v', Yaml.read text = .ok v → Yaml.read text' = .ok v' →
      templatesShape.Respells v v' →
      Template.listOfText mode text' = Template.listOfText mode text) ∧
    ∀ catalog assigner v v', policiesShape.Respells v v' →
      restore catalog assigner mode v' = restore catalog assigner mode v := by
  refine ⟨fun v v' h => readRule_congr mode h, fun text text' v v' hv hv' h => ?_,
    fun catalog assigner v v' h => restore_congr mode catalog assigner h⟩
  rw [Template.listOfText, Template.listOfText, hv, hv']
  exact readTemplates_congr mode h

section spellings

theorem Shape.Respells.obj {spellings : List (List String)} {field : String → Shape}
    {fs fs' : Fields Json} (hs : OneSpelling spellings fs)
    (h : FieldsRespell spellings field fs fs') :
    (record spellings field).Respells (.obj fs) (.obj fs') :=
  .inr ⟨fs, fs', rfl, rfl, hs, h⟩

theorem Shape.Respells.arr {item : Shape} {vs vs' : List Json}
    (h : List.Forall₂ item.Respells vs vs') : (list item).Respells (.arr vs) (.arr vs') :=
  .inr ⟨vs, vs', rfl, rfl, h⟩

/-- A rule as a policy spells it. -/
def snakeRule : Json :=
  .obj [("action", .str "BLOCK_CURRENT"), ("forbidden_tags", .arr [.str "pii"]),
    ("source_template", .str "T"), ("pattern", .obj [("type", .str "logic"), ("condition", .obj [
      ("AND", .arr [.obj [("session_has_class", .str "SENSITIVE_READ"),
        ("current_tool_class", .str "CONSEQUENTIAL_WRITE")]])])])]

/-- The same rule as it is saved. -/
def camelRule : Json :=
  .obj [("action", .str "BLOCK_CURRENT"), ("forbiddenTags", .arr [.str "pii"]),
    ("sourceTemplate", .str "T"), ("pattern", .obj [("type", .str "logic"), ("condition", .obj [
      ("and", .arr [.obj [("sessionHasClass", .str "SENSITIVE_READ"),
        ("currentToolClass", .str "CONSEQUENTIAL_WRITE")]])])])]

theorem respells_camelRule : ruleShape.Respells snakeRule camelRule := by
  refine .obj (by decide) (.cons ⟨by decide, rfl⟩ (.cons ⟨by decide, rfl⟩ (.cons ⟨by decide, rfl⟩
    (.cons ⟨by decide, ?_⟩ .nil))))
  refine .obj (by decide) (.cons ⟨by decide, rfl⟩ (.cons ⟨by decide, ?_⟩ .nil))
  refine .obj (by decide) (.cons ⟨by decide, .arr (.cons ?_ .nil)⟩ .nil)
  exact .obj (by decide) (.cons ⟨by decide, rfl⟩ (.cons ⟨by decide, rfl⟩ .nil))

/-- A document with one policy. -/
def spelledPolicy (gatesKey rulesKey : String) (rule : Json) : Json :=
  .obj [("policies", .arr [.obj [("name", .str "T"), (gatesKey, .obj [("shell", .str "DENY")]),
    (rulesKey, .arr [rule])]])]

theorem respells_spelledPolicy :
    policiesShape.Respells (spelledPolicy "static_rules" "taint_rules" snakeRule)
      (spelledPolicy "staticRules" "taintRules" camelRule) := by
  refine .obj (by decide) (.cons ⟨by decide, .arr (.cons ?_ .nil)⟩ .nil)
  exact .obj (by decide) (.cons ⟨by decide, rfl⟩ (.cons ⟨by decide, rfl⟩
    (.cons ⟨by decide, .arr (.cons respells_camelRule .nil)⟩ .nil)))

def snakeTemplates : Json :=
  .obj [("rule_templates", .arr [.obj [("name", .str "T"), ("taint_rules", .arr [
    .obj [("action", .str "ADD_TAINT"), ("tool_class", .str "SAFE_READ")]])]])]

def camelTemplates : Json :=
  .obj [("rule_templates", .arr [.obj [("name", .str "T"), ("taintRules", .arr [
    .obj [("action", .str "ADD_TAINT"), ("toolClass", .str "SAFE_READ")]])]])]

theorem respells_camelTemplates : templatesShape.Respells snakeTemplates camelTemplates := by
  refine .obj (by decide) (.cons ⟨by decide, .arr (.cons ?_ .nil)⟩ .nil)
  refine .obj (by decide) (.cons ⟨by decide, rfl⟩ (.cons ⟨by decide, .arr (.cons ?_ .nil)⟩ .nil))
  exact .obj (by decide) (.cons ⟨by decide, rfl⟩ (.cons ⟨by decide, rfl⟩ .nil))

def snakeText : String :=
  "rule_templates:\n- name: T\n  taint_rules:\n  - action: ADD_TAINT\n    tool_class: SAFE_READ\n"

def camelText : String :=
  "rule_templates:\n- name: T\n  taintRules:\n  - action: ADD_TAINT\n    toolClass: SAFE_READ\n"

theorem spelling_is_immaterial_snake :
    readRule .strict camelRule = readRule .strict snakeRule ∧
    Template.listOfText .strict camelText = Template.listOfText .strict snakeText ∧
    restore .empty .fingerprint .lenient (spelledPolicy "staticRules" "taintRules" camelRule) =
      restore .empty .fingerprint .lenient
        (spelledPolicy "static_rules" "taint_rules" snakeRule) := by
  obtain ⟨hrule, htext, -⟩ := spelling_is_immaterial .strict
  -- Values cannot be compared by evaluation, but their compact texts can.
  have hread : ∀ {x : Except Fault Json} {v : Json},
      x.map Json.compact = .ok v.compact → x = .ok v := by
    intro x v h
    obtain ⟨w, rfl, hw⟩ := map_eq_ok.mp h
    rw [Json.compact_injective hw]
  have hsnake : Yaml.read snakeText = .ok snakeTemplates := hread (by decide +kernel)
  have hcamel : Yaml.read camelText = .ok camelTemplates := hread (by decide +kernel)
  exact ⟨hrule _ _ respells_camelRule, htext _ _ _ _ hsnake hcamel respells_camelTemplates,
    (spelling_is_immaterial .lenient).2.2 _ _ _ _ respells_spelledPolicy⟩

end spellings

end TaintPolicy
