import TaintPolicy.Proofs.RuleCodec

/-!
# Entries as JSON

Reading the JSON form of a compiled entry gives the entry back. So an entry can leave out what is
not set: no two entries have one JSON form.
-/

namespace TaintPolicy

namespace Json

variable {α : Type} {read : Json → Option α} {write : α → Json} {name : String} {fs : Fields Json}

theorem optional?_written (hr : ∀ a, read (write a) = some a) (hn : ∀ a, (write a).isNull = false)
    {a : Option α} (hf : Fields.find? name fs = a.map write) :
    optional? read name fs = some a := by
  cases a with
  | none => rw [optional?, hf, Option.map_none]
  | some a =>
    have hw := hn a
    rw [optional?, hf, Option.map_some]
    dsimp only
    rw [nullable?, hr a]
    · rfl
    · intro he
      rw [he] at hw
      exact absurd hw (by decide)

theorem defaulted?_written (hr : ∀ a, read (write a) = some a) {as : List α}
    (hf : Fields.find? name fs = if as = [] then none else some (arr (as.map write))) :
    defaulted? (list? read) [] name fs = some as := by
  rw [defaulted?, hf]
  by_cases he : as = []
  · rw [if_pos he, he]
  · rw [if_neg he]
    exact list?_map read write hr as

theorem field?_written {v : Json} {a : α} (hf : Fields.find? name fs = some v)
    (hr : read v = some a) : field? read name fs = some a := by
  rw [field?, hf, Option.bind_some, hr]

end Json

theorem TaintClass.isNull_toJson (c : TaintClass) : c.toJson.isNull = false := rfl

theorem Predicate.get?_toJson (spelling : Spelling) (p : Predicate) :
    (p.toJson spelling).get? spelling.sessionKey = p.session.map TaintClass.toJson ∧
      (p.toJson spelling).get? spelling.currentKey = p.current.map TaintClass.toJson := by
  cases spelling <;>
    simp [toJson, Fields.find?_append, find?_fieldWhen, Spelling.sessionKey, Spelling.currentKey]

theorem Predicate.ofJson?_toJson (spelling : Spelling) (p : Predicate) :
    ofJson? spelling (p.toJson spelling) = some p := by
  obtain ⟨hs, hc⟩ := p.get?_toJson spelling
  rw [toJson, Json.get?_obj] at hs hc
  rw [ofJson?, toJson, Json.record?_obj]
  simp only [Option.bind_eq_bind, Option.bind_some,
    Json.optional?_written TaintClass.ofJson?_toJson TaintClass.isNull_toJson hs,
    Json.optional?_written TaintClass.ofJson?_toJson TaintClass.isNull_toJson hc]

theorem stepOfJson?_stepToJson (c : TaintClass) : stepOfJson? (stepToJson c) = some c := by
  simp [stepOfJson?, stepToJson, Json.field?]

/-- The key of the kind stands before the fields of a pattern, which do not see it. -/
theorem SequencePattern.ofJson?_written (spelling : Spelling) (p : SequencePattern) :
    ofJson? spelling (.obj (("type", .str "sequence") :: p.toFields spelling)) = some p := by
  have hs : Fields.find? "steps" (("type", .str "sequence") :: p.toFields spelling) =
      some (.arr (p.steps.map stepToJson)) := by
    simp [toFields, Fields.find?]
  have hm : Fields.find? spelling.distanceKey (("type", .str "sequence") :: p.toFields spelling) =
      p.maxDistance.map Json.ofWord := by
    cases spelling <;> simp [toFields, Fields.find?, find?_fieldWhen, Spelling.distanceKey]
  simp [ofJson?, Json.field?_written hs (Json.list?_map _ _ stepOfJson?_stepToJson p.steps),
    Json.optional?_written Json.word?_ofWord Json.isNull_ofWord hm]

theorem EntryPattern.conditionOfJson?_written (and or : List Predicate) :
    conditionOfJson? (.obj (Json.fieldUnlessEmpty "AND" (and.map (Predicate.toJson .snake)) ++
      Json.fieldUnlessEmpty "OR" (or.map (Predicate.toJson .snake)))) = some (logic and or) := by
  have hbranch : ∀ ps : List Predicate, ∀ name fs,
      Fields.find? name fs =
        (if ps = [] then none else some (.arr (ps.map (Predicate.toJson .snake)))) →
      Json.defaulted? (Json.list? (Predicate.ofJson? .snake)) [] name fs = some ps :=
    fun ps name fs hf => Json.defaulted?_written (Predicate.ofJson?_toJson .snake) hf
  rw [conditionOfJson?, Json.record?_obj, Option.bind_eq_bind, Option.bind_some,
    hbranch and "AND" _ (by simp [Fields.find?_append, find?_fieldUnlessEmpty]),
    hbranch or "OR" _ (by simp [Fields.find?_append, find?_fieldUnlessEmpty])]
  rfl

theorem EntryPattern.ofJson?_toJson (p : EntryPattern) : ofJson? p.toJson = some p := by
  cases p with
  | sequence p =>
    have := SequencePattern.ofJson?_written .snake p
    simp [ofJson?, toJson, taggedJson?, this]
  | logic and or =>
    simp [ofJson?, toJson, taggedJson?, Json.field?, Fields.find?, conditionOfJson?_written]

theorem EntryPattern.isNull_toJson (p : EntryPattern) : p.toJson.isNull = false := by
  cases p <;> rfl

theorem Entry.find?_toFields (e : Entry) :
    Fields.find? "action" e.toFields = some e.action.toJson ∧
    Fields.find? "tool" e.toFields = e.tool.map .str ∧
    Fields.find? "tool_class" e.toFields = e.toolClass.map TaintClass.toJson ∧
    Fields.find? "tag" e.toFields = e.tag.map .str ∧
    Fields.find? "forbidden_tags" e.toFields =
      (if e.forbiddenTags = [] then none else some (.arr (e.forbiddenTags.map .str))) ∧
    Fields.find? "error" e.toFields = e.error.map .str ∧
    Fields.find? "pattern" e.toFields = e.pattern.map EntryPattern.toJson := by
  refine ⟨?_, ?_, ?_, ?_, ?_, ?_, ?_⟩ <;>
    simp [toFields, Fields.find?, Fields.find?_append, find?_fieldWhen, find?_fieldUnlessEmpty]

theorem Entry.ofJson?_toJson (e : Entry) : ofJson? e.toJson = some e := by
  obtain ⟨haction, htool, hclass, htag, htags, herror, hpattern⟩ := e.find?_toFields
  have htext : ∀ {name : String} {s : Option String}, Fields.find? name e.toFields = s.map .str →
      Json.optional? Json.text? name e.toFields = some s :=
    Json.optional?_written Json.text?_str fun _ => rfl
  rw [ofJson?, toJson, Json.record?_obj]
  simp only [Option.bind_eq_bind, Option.bind_some, htext htool, htext htag, htext herror,
    Json.field?_written haction (TaintAction.ofJson?_toJson _),
    Json.optional?_written TaintClass.ofJson?_toJson TaintClass.isNull_toJson hclass,
    Json.defaulted?_written Json.text?_str htags,
    Json.optional?_written EntryPattern.ofJson?_toJson EntryPattern.isNull_toJson hpattern]

theorem Entry.toJson_injective : Function.Injective Entry.toJson := by
  intro e e' h
  have hread := congrArg ofJson? h
  rw [ofJson?_toJson, ofJson?_toJson] at hread
  exact Option.some.inj hread

end TaintPolicy
