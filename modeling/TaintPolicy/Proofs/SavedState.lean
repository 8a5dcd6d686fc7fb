import TaintPolicy.Proofs.CompiledGates
import TaintPolicy.Proofs.EntryCodec
import TaintPolicy.Proofs.JsonText
import TaintPolicy.Template

/-!
# Saved state

Selections, templates and policy files are saved as JSON and read back as they were, whatever they
hold. A record writes its fields under distinct names and leaves out what is not set, so that an
absent branch differs from an empty one; the fields of a named rule stand beside its id and its
source and have other names; the kind of a pattern stands beside its fields and has another name.
-/

namespace TaintPolicy

/-- Some of the names in their order, each with a tidy value. -/
structure Fields.AreTidy (names : List String) (fs : Fields Json) : Prop where
  sublist : (Fields.names fs).Sublist names
  values : ∀ f ∈ fs, f.2.IsTidy

namespace Fields.AreTidy

variable {name : String} {names : List String} {fs : Fields Json}

theorem nil : AreTidy [] [] := ⟨.slnil, by simp⟩

theorem skip (h : AreTidy names fs) : AreTidy (name :: names) fs := ⟨h.sublist.cons _, h.values⟩

theorem field {v : Json} (hv : v.IsTidy) (h : AreTidy names fs) :
    AreTidy (name :: names) ((name, v) :: fs) :=
  ⟨h.sublist.cons_cons _, List.forall_mem_cons.mpr ⟨hv, h.values⟩⟩

theorem fieldWhen {α : Type} {write : α → Json} (hw : ∀ a, (write a).IsTidy) {a : Option α}
    (h : AreTidy names fs) : AreTidy (name :: names) (Json.fieldWhen name (a.map write) ++ fs) := by
  cases a with
  | none => exact h.skip
  | some a => exact h.field (hw a)

theorem fieldUnlessEmpty {vs : List Json} (hv : (Json.arr vs).IsTidy) (h : AreTidy names fs) :
    AreTidy (name :: names) (Json.fieldUnlessEmpty name vs ++ fs) := by
  cases vs with
  | nil => exact h.skip
  | cons v vs => exact h.field hv

theorem isTidy (h : AreTidy names fs) (hn : names.Nodup) : (Json.obj fs).IsTidy :=
  .obj (h.sublist.nodup hn) h.values

end Fields.AreTidy

namespace Json

variable {α : Type} {write : α → Json} {read : Json → Option α}

/-- Reading undoes writing, and no object that is written repeats a name. -/
structure IsCodec (write : α → Json) (read : Json → Option α) : Prop where
  tidy : ∀ a, (write a).IsTidy
  read_write : ∀ a, read (write a) = some a

/-- The value is read back from its JSON form, and from the text of that form in either layout. -/
def ReadsBack (write : α → Json) (read : Json → Option α) (a : α) : Prop :=
  read (write a) = some a ∧
  (read? (write a).compact).bind read = some a ∧
  (read? (write a).pretty).bind read = some a

namespace IsCodec

theorem readsBack (h : IsCodec write read) (a : α) : ReadsBack write read a := by
  refine ⟨h.read_write a, ?_, ?_⟩
  · rw [(h.tidy a).read?_compact]
    exact h.read_write a
  · rw [(h.tidy a).read?_pretty]
    exact h.read_write a

theorem list (h : IsCodec write read) :
    IsCodec (fun as : List α => arr (as.map write)) (list? read) where
  tidy as := by
    refine .arr fun v hv => ?_
    obtain ⟨a, -, rfl⟩ := List.mem_map.mp hv
    exact h.tidy a
  read_write := list?_map read write h.read_write

theorem text : IsCodec str text? := ⟨.str, fun _ => rfl⟩

theorem word : IsCodec ofWord word? := ⟨.count, word?_ofWord⟩

end IsCodec

end Json

open Json

section words

theorem TaintClass.isCodec : IsCodec toJson ofJson? := ⟨fun c => .str c.text, ofJson?_toJson⟩

theorem Gate.isCodec : IsCodec toJson ofJson? := ⟨fun g => .str g.text, ofJson?_toJson⟩

end words

section patterns

theorem Predicate.isCodec (spelling : Spelling) : IsCodec (toJson spelling) (ofJson? spelling) where
  tidy p := by
    have hn : [spelling.sessionKey, spelling.currentKey].Nodup := by cases spelling <;> decide
    rw [toJson, ← List.append_nil (fieldWhen spelling.currentKey _)]
    exact Fields.AreTidy.isTidy
      (.fieldWhen TaintClass.isCodec.tidy (.fieldWhen TaintClass.isCodec.tidy .nil)) hn
  read_write := ofJson?_toJson spelling

theorem stepIsCodec : IsCodec stepToJson stepOfJson? where
  tidy c := Fields.AreTidy.isTidy (.field (TaintClass.isCodec.tidy c) .nil) (by simp)
  read_write := stepOfJson?_stepToJson

theorem SequencePattern.isTidy (spelling : Spelling) (p : SequencePattern) :
    (Json.obj (("type", .str "sequence") :: p.toFields spelling)).IsTidy := by
  have hn : ["type", "steps", spelling.distanceKey].Nodup := by cases spelling <;> decide
  rw [toFields, ← List.append_nil (fieldWhen spelling.distanceKey _)]
  exact Fields.AreTidy.isTidy
    (.field (.str _) (.field (stepIsCodec.list.tidy p.steps) (.fieldWhen IsCodec.word.tidy .nil))) hn

/-- An empty branch is written as an empty list, and an absent branch is left out. -/
theorem LogicPattern.conditionOfJson?_written (p : LogicPattern) :
    conditionOfJson? (.obj (fieldWhen "AND" (p.and.map branchToJson) ++
      fieldWhen "OR" (p.or.map branchToJson))) = some p := by
  have hbranch : ∀ {name fs} {b : Option (List Predicate)},
      Fields.find? name fs = b.map branchToJson →
      optional? (list? (Predicate.ofJson? .camel)) name fs = some b :=
    optional?_written (Predicate.isCodec .camel).list.read_write fun _ => rfl
  rw [conditionOfJson?, record?_obj, Option.bind_eq_bind, Option.bind_some,
    hbranch (b := p.and) (by simp [Fields.find?_append, find?_fieldWhen]),
    hbranch (b := p.or) (by simp [Fields.find?_append, find?_fieldWhen])]
  rfl

theorem Pattern.isCodec : IsCodec toJson ofJson? where
  tidy p := by
    cases p with
    | sequence p => exact p.isTidy .camel
    | logic p =>
      have hbranch := (Predicate.isCodec .camel).list.tidy
      rw [toJson, LogicPattern.toFields, ← List.append_nil (fieldWhen "OR" _)]
      refine Fields.AreTidy.isTidy (.field (.str _) (.field ?_ .nil)) (by simp)
      exact Fields.AreTidy.isTidy (.fieldWhen hbranch (.fieldWhen hbranch .nil)) (by simp)
  read_write p := by
    cases p with
    | sequence p =>
      simp [ofJson?, toJson, taggedJson?, SequencePattern.ofJson?_written .camel p]
    | logic p =>
      simp [ofJson?, toJson, taggedJson?, LogicPattern.toFields, LogicPattern.ofJson?, field?,
        Fields.find?, LogicPattern.conditionOfJson?_written]

theorem Pattern.isNull_toJson (p : Pattern) : p.toJson.isNull = false := by
  cases p <;> rfl

theorem EntryPattern.isCodec : IsCodec toJson ofJson? where
  tidy p := by
    cases p with
    | sequence p => exact p.isTidy .snake
    | logic and or =>
      have hbranch := (Predicate.isCodec .snake).list.tidy
      rw [toJson, ← List.append_nil (fieldUnlessEmpty "OR" _)]
      refine Fields.AreTidy.isTidy (.field (.str _) (.field ?_ .nil)) (by simp)
      exact Fields.AreTidy.isTidy
        (.fieldUnlessEmpty (hbranch and) (.fieldUnlessEmpty (hbranch or) .nil)) (by simp)
  read_write := ofJson?_toJson

end patterns

section rules

theorem NamedRule.find?_written (r : NamedRule) :
    let fs := ("id", Json.str r.id) :: ("sourceTemplate", .str r.source) :: r.rule.toFields
    Fields.find? "id" fs = some (.str r.id) ∧
    Fields.find? "sourceTemplate" fs = some (.str r.source) ∧
    Fields.find? "action" fs = some r.rule.action.toJson ∧
    Fields.find? "tool" fs = r.rule.tool.map .str ∧
    Fields.find? "toolClass" fs = r.rule.toolClass.map TaintClass.toJson ∧
    Fields.find? "tag" fs = r.rule.tag.map .str ∧
    Fields.find? "forbiddenTags" fs =
      (if r.rule.forbiddenTags = [] then none else some (.arr (r.rule.forbiddenTags.map .str))) ∧
    Fields.find? "error" fs = r.rule.error.map .str ∧
    Fields.find? "pattern" fs = r.rule.pattern.map Pattern.toJson := by
  refine ⟨?_, ?_, ?_, ?_, ?_, ?_, ?_, ?_, ?_⟩ <;>
    simp [Rule.toFields, Fields.find?, Fields.find?_append, find?_fieldWhen, find?_fieldUnlessEmpty]

/-- The rule finds its fields beside the id and the source of the entry. -/
theorem NamedRule.ofJson?_toJson (r : NamedRule) : ofJson? r.toJson = some r := by
  obtain ⟨hid, hsource, haction, htool, hclass, htag, htags, herror, hpattern⟩ := r.find?_written
  have htext : ∀ {name : String} {s : Option String} {fs : Fields Json},
      Fields.find? name fs = s.map .str → optional? text? name fs = some s :=
    optional?_written text?_str fun _ => rfl
  rw [toJson, ofJson?, Rule.ofFields?]
  simp only [Option.bind_eq_bind, Option.bind_some, field?_written hid (text?_str _),
    field?_written hsource (text?_str _), htext htool, htext htag, htext herror,
    field?_written haction (TaintAction.ofJson?_toJson _),
    optional?_written TaintClass.ofJson?_toJson TaintClass.isNull_toJson hclass,
    defaulted?_written text?_str htags,
    optional?_written Pattern.isCodec.read_write Pattern.isNull_toJson hpattern]

theorem NamedRule.isCodec : IsCodec toJson ofJson? where
  tidy r := by
    have hkeys : ("id" :: "sourceTemplate" :: Rule.keys).Nodup := by decide
    rw [toJson, Rule.toFields, ← List.append_nil (fieldWhen "pattern" _)]
    refine Fields.AreTidy.isTidy ?_ hkeys
    exact .field (.str _) (.field (.str _) (.field (.str _)
      (.fieldWhen IsCodec.text.tidy
      (.fieldWhen TaintClass.isCodec.tidy
      (.fieldWhen IsCodec.text.tidy
      (.fieldUnlessEmpty (IsCodec.text.list.tidy _)
      (.fieldWhen IsCodec.text.tidy
      (.fieldWhen Pattern.isCodec.tidy .nil))))))))
  read_write := ofJson?_toJson

theorem Entry.isCodec : IsCodec toJson ofJson? where
  tidy e := by
    have hkeys : keys.Nodup := by decide
    rw [toJson, toFields, ← List.append_nil (fieldWhen "pattern" _)]
    refine Fields.AreTidy.isTidy ?_ hkeys
    exact .field (.str _)
      (.fieldWhen IsCodec.text.tidy
      (.fieldWhen TaintClass.isCodec.tidy
      (.fieldWhen IsCodec.text.tidy
      (.fieldUnlessEmpty (IsCodec.text.list.tidy _)
      (.fieldWhen IsCodec.text.tidy
      (.fieldWhen EntryPattern.isCodec.tidy .nil))))))
  read_write := ofJson?_toJson

end rules

section maps

variable {α : Type} {write : α → Json} {read : Json → Option α}

theorem KeyMap.readEntries?_written (h : ∀ a, read (write a) = some a) (es : List (String × α)) :
    readEntries? read (es.map fun e => (e.1, write e.2)) = some es := by
  induction es with
  | nil => rfl
  | cons e es ih => simp [readEntries?, h, ih]

/-- The entries of a map are written in key order, and are read back in that order. -/
theorem KeyMap.isCodec (h : IsCodec write read) : IsCodec (toJson write) (ofJson? read) where
  tidy m := by
    have hn : Fields.names (m.entries.map fun e => (e.1, write e.2)) = Fields.names m.entries := by
      rw [Fields.names, List.map_map]
      rfl
    refine .obj (hn ▸ m.nodup_names) fun f hf => ?_
    obtain ⟨e, -, rfl⟩ := List.mem_map.mp hf
    exact h.tidy e.2
  read_write m := by
    rw [toJson, ofJson?, readEntries?_written h.read_write, Option.map_some]
    exact congrArg some (KeyMap.ext (entries_ofList m.sorted))

end maps

section tools

theorem Argument.isCodec : IsCodec toJson ofJson? where
  tidy a := Fields.AreTidy.isTidy (.field (.str _) (.field (.str _) .nil)) (by simp)
  read_write a := by simp [ofJson?, toJson, field?, Fields.find?]

theorem InputSchema.isCodec : IsCodec toJson ofJson? where
  tidy s := Fields.AreTidy.isTidy (.field (.str _)
    (.field ((KeyMap.isCodec Argument.isCodec).tidy _)
      (.field (IsCodec.text.list.tidy _) .nil))) (by simp)
  read_write s := by
    have hp := (KeyMap.isCodec Argument.isCodec).read_write s.properties
    have hr : list? text? (ofTexts s.required) = some s.required :=
      IsCodec.text.list.read_write s.required
    simp [ofJson?, toJson, field?, Fields.find?, hp, hr]

theorem Tool.isCodec : IsCodec toJson ofJson? where
  tidy t := by
    have hkeys : keys.Nodup := by decide
    refine Fields.AreTidy.isTidy ?_ hkeys
    exact .field (.str _) (.field (.str _) (.field (.str _)
      (.field (TaintClass.isCodec.list.tidy _)
      (.field (.str _)
      (.field (InputSchema.isCodec.tidy _)
      (.field (.flag _) .nil))))))
  read_write t := by
    have hc := TaintClass.isCodec.list.read_write t.classes
    simp [ofJson?, toJson, field?, Fields.find?, hc, InputSchema.isCodec.read_write, flag?]

theorem Selected.isCodec : IsCodec toJson ofJson? where
  tidy s := Fields.AreTidy.isTidy (.field (Tool.isCodec.tidy _) (.field (.str _) .nil)) (by simp)
  read_write s := by
    simp [ofJson?, toJson, field?, defaulted?, Fields.find?, Tool.isCodec.read_write]

end tools

section states

theorem Selection.isCodec : IsCodec toJson ofJson? where
  tidy s := by
    have ht : (textOrNull s.activeTemplate).IsTidy := by
      cases s.activeTemplate with
      | none => exact .null
      | some name => exact .str name
    exact Fields.AreTidy.isTidy (.field (.str _) (.field (Selected.isCodec.list.tidy _)
      (.field (NamedRule.isCodec.list.tidy _) (.field ht .nil)))) (by simp)
  read_write s := by
    have ht : nullable? text? (textOrNull s.activeTemplate) = some s.activeTemplate := by
      cases s.activeTemplate <;> rfl
    have htools := Selected.isCodec.list.read_write s.tools
    have hrules := NamedRule.isCodec.list.read_write s.rules
    simp [ofJson?, toJson, field?, optional?, Fields.find?, htools, hrules, ht]

theorem Template.gateIsCodec : IsCodec gateToJson gateOfJson? where
  tidy g := .arr (by simp [IsTidy.str, Gate.toJson])
  read_write g := by simp [gateOfJson?, gateToJson]

theorem Template.isCodec : IsCodec toJson ofJson? where
  tidy t := Fields.AreTidy.isTidy (.field (.str _) (.field (.str _)
    (.field (gateIsCodec.list.tidy _) (.field (NamedRule.isCodec.list.tidy _) .nil)))) (by simp)
  read_write t := by
    have hgates := gateIsCodec.list.read_write t.gates
    have hrules := NamedRule.isCodec.list.read_write t.rules
    simp [ofJson?, toJson, field?, defaulted?, Fields.find?, hgates, hrules]

theorem Customer.isCodec : IsCodec toJson ofJson? where
  tidy c := Fields.AreTidy.isTidy
    (.field (.str _) (.field (.str _) (.field (.str _) (.field (.str _) .nil)))) (by simp)
  read_write c := by simp [ofJson?, toJson, field?, Fields.find?]

theorem Policy.isCodec : IsCodec toJson ofJson? where
  tidy p := Fields.AreTidy.isTidy (.field (.str _)
    (.field ((KeyMap.isCodec Gate.isCodec).tidy _) (.field (Entry.isCodec.list.tidy _) .nil)))
    (by simp)
  read_write p := by
    have hgates := (KeyMap.isCodec Gate.isCodec).read_write p.gates
    have hrules := Entry.isCodec.list.read_write p.rules
    simp [ofJson?, toJson, field?, Fields.find?, hgates, hrules]

theorem PolicyFile.isCodec : IsCodec toJson ofJson? where
  tidy f := Fields.AreTidy.isTidy
    (.field (Customer.isCodec.list.tidy _) (.field (Policy.isCodec.list.tidy _) .nil)) (by simp)
  read_write f := by
    have hcustomers := Customer.isCodec.list.read_write f.customers
    have hpolicies := Policy.isCodec.list.read_write f.policies
    simp [ofJson?, toJson, field?, Fields.find?, hcustomers, hpolicies]

end states

/-- Every selection, every template and every policy file is read back from what it is saved as. -/
theorem saved_state_reads_back :
    (∀ s : Selection, ReadsBack Selection.toJson Selection.ofJson? s) ∧
    (∀ t : Template, ReadsBack Template.toJson Template.ofJson? t) ∧
    ∀ f : PolicyFile, ReadsBack PolicyFile.toJson PolicyFile.ofJson? f :=
  ⟨Selection.isCodec.readsBack, Template.isCodec.readsBack, PolicyFile.isCodec.readsBack⟩

end TaintPolicy
