import Mathlib.Data.List.Nodup
import TaintPolicy.Proofs.CompiledGates
import TaintPolicy.Proofs.DistinctKeys
import TaintPolicy.Tool.Registry

/-!
# Listed tools

A catalog lists the entries of its registry whose keys hold a text and one of whose classes is
known, in the order of the registry, and describes each by the known classes and the arguments that
are written there. Names are distinct, and so are those of required arguments, unless the registry
tells two keys of one text apart by their tags.
-/

namespace TaintPolicy

open Yaml

namespace Yaml.Value

/-- What stands under a name, where it stands first. -/
def field? (name : String) (v : Value) : Option Value :=
  (v.entries?.getD []).findSome? fun e => if e.1.text? = some name then some e.2 else none

/-- The fields of a record with those of one more entry. -/
def addField (known : List String) (fs : Fields Value) (e : Value × Value) :
    Option (Fields Value) := do
  let name ← e.1.text?
  if !known.contains name then some fs
  else if (Fields.find? name fs).isSome then none
  else some (fs ++ [(name, e.2)])

section fields

variable {known : List String} {name : String} {v : Value} {fs gs : Fields Value}

theorem record?_eq (known : List String) (v : Value) :
    v.record? known = v.entries?.bind fun es => es.foldlM (addField known) [] := rfl

theorem find?_addField {e : Value × Value} (hn : name ∈ known)
    (h : addField known fs e = some gs) :
    Fields.find? name gs =
      (Fields.find? name fs).or (if e.1.text? = some name then some e.2 else none) := by
  obtain ⟨key, hkey, h⟩ := Option.bind_eq_some_iff.mp h
  simp only [hkey, Option.some.injEq]
  split at h
  · next hunknown =>
    cases h
    have hne : key ≠ name := by
      rintro rfl
      simp [hn] at hunknown
    rw [if_neg hne, Option.or_none]
  · split at h
    · cases h
    · cases h
      rw [Fields.find?_append, Fields.find?, Fields.find?_nil]

theorem find?_foldlM_addField {es : List (Value × Value)} (hn : name ∈ known)
    (h : es.foldlM (addField known) fs = some gs) :
    Fields.find? name gs = (Fields.find? name fs).or
      (es.findSome? fun e => if e.1.text? = some name then some e.2 else none) := by
  induction es generalizing fs with
  | nil =>
    cases h
    rw [List.findSome?_nil, Option.or_none]
  | cons e es ih =>
    obtain ⟨mid, hmid, h⟩ := Option.bind_eq_some_iff.mp h
    rw [ih h, find?_addField hn hmid, Option.or_assoc, List.findSome?_cons]
    split <;> rfl

/-- A record has under a known name what stands there first. -/
theorem find?_of_record? (h : v.record? known = some fs) (hn : name ∈ known) :
    Fields.find? name fs = v.field? name := by
  rw [record?_eq] at h
  obtain ⟨es, hes, h⟩ := Option.bind_eq_some_iff.mp h
  rw [find?_foldlM_addField hn h, field?, hes]
  rfl

/-- A field with a fallback is what can be read of it, or else the fallback. -/
theorem eq_of_defaulted? {α : Type} {read : Value → Option α} {fallback a : α}
    (hr : v.record? known = some fs) (hn : name ∈ known)
    (h : defaulted? read fallback name fs = some a) :
    a = ((v.field? name).bind read).getD fallback := by
  rw [← find?_of_record? hr hn]
  rw [defaulted?] at h
  split at h
  · next hnone =>
    cases h
    rw [hnone]
    rfl
  · next w hsome =>
    rw [hsome, Option.bind_some, h]
    rfl

theorem KeysOnce.field? {w : Value} (h : v.KeysOnce) (hw : v.field? name = some w) :
    w.KeysOnce := by
  obtain ⟨e, he, hw⟩ := List.exists_of_findSome?_eq_some hw
  cases hes : v.entries? with
  | none => simp [hes] at he
  | some es =>
    rw [hes, Option.getD_some] at he
    obtain ⟨-, hw⟩ := Option.ite_none_right_eq_some.mp hw
    cases hw
    exact (h.entries hes).2 e he

end fields

end Yaml.Value

namespace Registry

section views

/-- The words that name the classes of an entry, known or not. -/
def classWords (v : Value) : List String :=
  ((v.field? "classes").bind fun w => w.items?.bind (·.mapM Value.text?)).getD []

/-- The arguments of an entry, with any keys. -/
def arguments (v : Value) : List (Value × Value) := ((v.field? "args").bind Value.entries?).getD []

/-- The argument is marked as required. -/
def isRequired (e : Value × Value) : Bool :=
  ((e.2.field? "required").bind Value.flag?).getD false

/-- The words of the seven classes. -/
def knownWords : List String := TaintClass.all.map TaintClass.text

/-- The key holds a text, and one of the classes is known. -/
def isListed (e : Value × Value) : Bool :=
  e.1.text?.isSome && (classWords e.2).any knownWords.contains

/-- The tool is what the registry says under its name. -/
structure Describes (e : Value × Value) (t : Tool) : Prop where
  name : e.1.text? = some t.name
  classes : t.classes.map TaintClass.text = (classWords e.2).filter knownWords.contains
  primary : t.classes.head? = some t.taintClass
  properties : ∀ name, name ∈ t.inputSchema.properties.keys ↔ name ∈ textNames (arguments e.2)
  required : t.inputSchema.required = textNames ((arguments e.2).filter isRequired)
  requiredKeys : ∀ name ∈ t.inputSchema.required, name ∈ t.inputSchema.properties.keys
  requiredOnce : t.inputSchema.required.Nodup ↔ NamesApart ((arguments e.2).filter isRequired)

end views

section arguments

variable {s s' : InputSchema} {e : Value × Value} {es : List (Value × Value)}

theorem isRequired_of_readArgument {a : Argument} {required : Bool}
    (h : readArgument e.2 = some (a, required)) : required = isRequired e := by
  obtain ⟨fs, hr, h⟩ := Option.bind_eq_some_iff.mp h
  obtain ⟨kind, -, h⟩ := Option.bind_eq_some_iff.mp h
  obtain ⟨description, -, h⟩ := Option.bind_eq_some_iff.mp h
  obtain ⟨flag, hflag, h⟩ := Option.bind_eq_some_iff.mp h
  cases h
  exact Value.eq_of_defaulted? hr (by simp) hflag

/-- An argument with a text for its key becomes a property, and a required one if it is marked. -/
theorem addArgument_eq_some (h : addArgument s e = some s') :
    s'.required = s.required ++ textNames ([e].filter isRequired) ∧
      ∀ name, name ∈ s'.properties.keys ↔ name ∈ s.properties.keys ∨ name ∈ textNames [e] := by
  rw [addArgument] at h
  split at h
  · next hkey =>
    cases h
    constructor
    · cases hq : isRequired e <;> simp [textNames, hkey, hq]
    · simp [textNames, hkey]
  · next key hkey =>
    obtain ⟨⟨a, required⟩, hread, h⟩ := Option.bind_eq_some_iff.mp h
    have hrequired := isRequired_of_readArgument hread
    cases h
    constructor
    · cases hq : isRequired e <;> simp [textNames, hkey, hrequired, hq]
    · intro name
      have hone : textNames [e] = [key] := by simp [textNames, hkey]
      rw [hone, List.mem_singleton, or_comm]
      exact KeyMap.mem_names_insertEntry key name a s.properties.entries

theorem foldlM_addArgument (h : es.foldlM addArgument s = some s') :
    s'.required = s.required ++ textNames (es.filter isRequired) ∧
      ∀ name, name ∈ s'.properties.keys ↔ name ∈ s.properties.keys ∨ name ∈ textNames es := by
  induction es generalizing s with
  | nil =>
    cases h
    exact ⟨(List.append_nil _).symm, fun name => by simp [textNames]⟩
  | cons e es ih =>
    obtain ⟨mid, hmid, h⟩ := Option.bind_eq_some_iff.mp h
    obtain ⟨hrequired, hkeys⟩ := addArgument_eq_some hmid
    obtain ⟨hrequired', hkeys'⟩ := ih h
    rw [← List.singleton_append, List.filter_append, textNames_append, textNames_append]
    refine ⟨by rw [hrequired', hrequired, List.append_assoc], fun name => ?_⟩
    rw [hkeys', hkeys, List.mem_append, or_assoc]

end arguments

section tools

variable {name : String} {v : Value} {e : Value × Value} {es : List (Value × Value)}
  {tools tools' : List Tool}

theorem contains_knownWords (w : String) :
    knownWords.contains w = (TaintClass.ofText? w).isSome := by
  rw [Bool.eq_iff_iff, List.contains_iff_mem, Option.isSome_iff_exists, knownWords, List.mem_map]
  have hall : ∀ c : TaintClass, c ∈ TaintClass.all := by
    intro c
    cases c <;> decide
  refine exists_congr fun c => ?_
  rw [TaintClass.ofText?_eq_some_iff, and_iff_right (hall c), eq_comm]

/-- The known classes are named by the known words, in their order. -/
theorem map_text_knownClasses (words : List String) :
    (knownClasses words).map TaintClass.text = words.filter knownWords.contains := by
  induction words with
  | nil => rfl
  | cons w words ih =>
    rw [knownClasses, List.filterMap_cons, List.filter_cons, contains_knownWords]
    cases hw : TaintClass.ofText? w with
    | none => exact ih
    | some c =>
      rw [TaintClass.ofText?_eq_some_iff.mp hw]
      exact congrArg (c.text :: ·) ih

theorem isListed_iff :
    isListed e = true ↔ e.1.text?.isSome = true ∧ knownClasses (classWords e.2) ≠ [] := by
  have hnone : knownClasses (classWords e.2) = [] ↔
      (classWords e.2).filter knownWords.contains = [] := by
    rw [← map_text_knownClasses, List.map_eq_nil_iff]
  rw [isListed, Bool.and_eq_true, Ne, hnone, List.filter_eq_nil_iff, List.any_eq_true]
  simp only [not_forall, not_not, exists_prop]

/-- A tool is read of the known classes and of the arguments, and none where no class is known. -/
theorem readTool_eq_some {read : Option Tool} (h : readTool name v = some read) :
    (knownClasses (classWords v) = [] ∧ read = none) ∨
      ∃ c cs description schema, knownClasses (classWords v) = c :: cs ∧
        (arguments v).foldlM addArgument {} = some schema ∧
        read = some { Tool.ofClass name c description with
          classes := c :: cs, inputSchema := schema } := by
  obtain ⟨fs, hr, h⟩ := Option.bind_eq_some_iff.mp h
  obtain ⟨description, -, h⟩ := Option.bind_eq_some_iff.mp h
  obtain ⟨words, hwords, h⟩ := Option.bind_eq_some_iff.mp h
  obtain ⟨args, hargs, h⟩ := Option.bind_eq_some_iff.mp h
  have hwords : words = classWords v := Value.eq_of_defaulted? hr (by simp) hwords
  have hargs : args = arguments v := Value.eq_of_defaulted? hr (by simp) hargs
  subst hwords hargs
  split at h
  · next hnone =>
    cases h
    exact .inl ⟨hnone, rfl⟩
  · next c cs hsome =>
    obtain ⟨schema, hschema, h⟩ := Option.bind_eq_some_iff.mp h
    cases h
    exact .inr ⟨c, cs, description, schema, hsome, hschema, rfl⟩

theorem distinctKeys_arguments (h : v.KeysOnce) : DistinctKeys (arguments v) := by
  rw [arguments]
  cases hargs : (v.field? "args").bind Value.entries? with
  | none => exact .nil
  | some es =>
    obtain ⟨w, hw, hes⟩ := Option.bind_eq_some_iff.mp hargs
    exact ((h.field? hw).entries hes).1

/-- A listed entry is described by the tool that is read of it. -/
theorem describes_of_readTool (hkey : e.1.text? = some name) (hk : e.2.KeysOnce) {c : TaintClass}
    {cs : List TaintClass} {description : String} {schema : InputSchema}
    (hclasses : knownClasses (classWords e.2) = c :: cs)
    (hschema : (arguments e.2).foldlM addArgument {} = some schema) :
    Describes e { Tool.ofClass name c description with
      classes := c :: cs, inputSchema := schema } := by
  obtain ⟨hrequired, hkeys⟩ := foldlM_addArgument hschema
  have hrequired : schema.required = textNames ((arguments e.2).filter isRequired) := hrequired
  have hkeys : ∀ name, name ∈ schema.properties.keys ↔ name ∈ textNames (arguments e.2) :=
    fun name => (hkeys name).trans (or_iff_right List.not_mem_nil)
  exact {
    name := hkey
    classes := hclasses ▸ map_text_knownClasses (classWords e.2)
    primary := rfl
    properties := hkeys
    required := hrequired
    requiredKeys := by
      intro name hname
      rw [hrequired] at hname
      exact (hkeys name).mpr ((List.filter_sublist.filterMap _).subset hname)
    requiredOnce := by
      rw [hrequired]
      exact nodup_textNames_iff ((distinctKeys_arguments hk).filter _) }

/-- An entry adds the tool that it describes if it is listed, and nothing otherwise. -/
theorem addTool_eq_some (hk : e.2.KeysOnce) (h : addTool tools e = some tools') :
    ∃ added, tools' = tools ++ added ∧ List.Forall₂ Describes ([e].filter isListed) added := by
  have hnone : isListed e = false → List.Forall₂ Describes ([e].filter isListed) [] := by
    intro hl
    rw [List.filter_singleton, hl]
    exact .nil
  rw [addTool] at h
  split at h
  · next hkey =>
    cases h
    exact ⟨[], (List.append_nil _).symm, hnone (by rw [isListed, hkey]; rfl)⟩
  · next name hkey =>
    obtain ⟨read, hread, rfl⟩ := Option.map_eq_some_iff.mp h
    rcases readTool_eq_some hread with
      ⟨hclasses, rfl⟩ | ⟨c, cs, description, schema, hclasses, hschema, rfl⟩
    · refine ⟨[], rfl, hnone (Bool.eq_false_iff.mpr fun hl => ?_)⟩
      exact (isListed_iff.mp hl).2 hclasses
    · have hl : isListed e = true := isListed_iff.mpr ⟨by rw [hkey]; rfl, by simp [hclasses]⟩
      refine ⟨_, rfl, ?_⟩
      rw [List.filter_singleton, hl]
      exact .cons (describes_of_readTool hkey hk hclasses hschema) .nil

theorem foldlM_addTool (hk : ∀ e ∈ es, e.2.KeysOnce) (h : es.foldlM addTool tools = some tools') :
    ∃ added, tools' = tools ++ added ∧ List.Forall₂ Describes (es.filter isListed) added := by
  induction es generalizing tools with
  | nil =>
    cases h
    exact ⟨[], (List.append_nil _).symm, .nil⟩
  | cons e es ih =>
    obtain ⟨he, hes⟩ := List.forall_mem_cons.mp hk
    obtain ⟨mid, hmid, h⟩ := Option.bind_eq_some_iff.mp h
    obtain ⟨first, rfl, hfirst⟩ := addTool_eq_some he hmid
    obtain ⟨rest, rfl, hrest⟩ := ih hes h
    refine ⟨first ++ rest, List.append_assoc .., ?_⟩
    rw [← List.singleton_append, List.filter_append]
    exact List.rel_append hfirst hrest

/-- The tools that are listed have the names of their keys. -/
theorem names_of_describes (h : List.Forall₂ Describes es tools) :
    tools.map (·.name) = textNames es := by
  induction h with
  | nil => rfl
  | @cons e t es tools ht _ ih =>
    have hone : textNames [e] = [t.name] := by simp [textNames, ht.name]
    rw [List.map_cons, ih, ← List.singleton_append, ← hone, ← textNames_append,
      List.singleton_append]

end tools

section texts

variable {text : String} {es : List (Value × Value)}

/-- The entries of a registry, in the order of its text. -/
def entriesOfText? (text : String) : Option (List (Value × Value)) := do
  let d ← Document.ofText? text
  let (es, _) ← (entries d).run 0
  some es

theorem yields_entries (d : Document) :
    (entries d).Yields fun es => DistinctKeys es ∧ ∀ e ∈ es, e.2.KeysOnce := by
  have hnil : DistinctKeys [] ∧ ∀ e ∈ ([] : List (Value × Value)), e.2.KeysOnce :=
    ⟨.nil, by simp⟩
  refine (Walk.Yields.any _).bind fun fs _ => ?_
  split
  · exact .pure hnil
  · refine (Walk.Yields.any _).bind fun nodes _ => ?_
    exact .foldlM (fun e _ es hes => Document.yields_addEntry (d.yields_value _) hes e) hnil

theorem distinctKeys_of_entriesOfText? (h : entriesOfText? text = some es) :
    DistinctKeys es ∧ ∀ e ∈ es, e.2.KeysOnce := by
  obtain ⟨d, -, h⟩ := Option.bind_eq_some_iff.mp h
  obtain ⟨⟨es', followed⟩, hrun, h⟩ := Option.bind_eq_some_iff.mp h
  cases h
  exact yields_entries d 0 es followed hrun

end texts

end Registry

namespace Catalog

variable {text : String} {c : Catalog}

/-- A catalog is made of the entries of its registry, one after the other. -/
theorem exists_of_ofText (h : ofText text = .ok c) :
    ∃ es, Registry.entriesOfText? text = some es ∧
      es.foldlM Registry.addTool [] = some c.tools := by
  rw [ofText] at h
  split at h
  · next hc =>
    cases h
    obtain ⟨d, hd, hc⟩ := Option.bind_eq_some_iff.mp hc
    obtain ⟨⟨es, followed⟩, hrun, hc⟩ := Option.bind_eq_some_iff.mp hc
    obtain ⟨tools, htools, hc⟩ := Option.bind_eq_some_iff.mp hc
    cases hc
    refine ⟨es, ?_, htools⟩
    exact Option.bind_eq_some_iff.mpr ⟨d, hd, Option.bind_eq_some_iff.mpr ⟨_, hrun, rfl⟩⟩
  · cases h

theorem get?_of_nodup (hn : (c.tools.map (·.name)).Nodup) {t : Tool} (ht : t ∈ c.tools) :
    c.get? t.name = some t := by
  obtain ⟨u, hu⟩ := Option.isSome_iff_exists.mp (isSome_get?_of_mem ht)
  rw [hu, List.inj_on_of_nodup_map hn (mem_of_get? hu) ht (name_of_get? hu)]

end Catalog

/-- A catalog lists, in the order of its registry, the entries whose keys hold a text and one of
whose classes is known, and describes each as the registry does. Its names are distinct exactly if
no two listed keys are the same text under different tags, and then each tool is found by its
name. -/
theorem catalog_lists_registry {text : String} {c : Catalog} (h : Catalog.ofText text = .ok c) :
    ∃ es, Registry.entriesOfText? text = some es ∧
      List.Forall₂ Registry.Describes (es.filter Registry.isListed) c.tools ∧
      ((c.tools.map (·.name)).Nodup ↔ NamesApart (es.filter Registry.isListed)) ∧
      (NamesApart (es.filter Registry.isListed) → ∀ t ∈ c.tools, c.get? t.name = some t) := by
  obtain ⟨es, hes, hfold⟩ := Catalog.exists_of_ofText h
  obtain ⟨hkeys, hvalues⟩ := Registry.distinctKeys_of_entriesOfText? hes
  obtain ⟨tools, htools, hlisted⟩ := Registry.foldlM_addTool hvalues hfold
  rw [List.nil_append] at htools
  subst htools
  have hnames : (c.tools.map (·.name)).Nodup ↔ NamesApart (es.filter Registry.isListed) := by
    rw [Registry.names_of_describes hlisted]
    exact nodup_textNames_iff (hkeys.filter _)
  exact ⟨es, hes, hlisted, hnames, fun ha t ht => Catalog.get?_of_nodup (hnames.mpr ha) ht⟩

section registries

/-! A registry with a tool of unknown class, and one that has a name twice. -/

def deskRegistry : String :=
  "tools:\n  mail:\n    classes: [FLY, SAFE_WRITE]\n    args: {to: {required: true}, cc: {}}\n" ++
    "  fly: {classes: [FLY]}\n"

def deskMailer : Tool :=
  { Tool.ofClass "mail" .safeWrite "" with
    inputSchema := {
      properties := .ofList [("cc", ⟨"", ""⟩), ("to", ⟨"", ""⟩)]
      required := ["to"] } }

theorem catalog_lists_registry_desk :
    Catalog.ofText deskRegistry = .ok ⟨[deskMailer]⟩ ∧
    ∃ es, Registry.entriesOfText? deskRegistry = some es ∧
      List.Forall₂ Registry.Describes (es.filter Registry.isListed) [deskMailer] ∧
      NamesApart (es.filter Registry.isListed) ∧
      Catalog.get? ⟨[deskMailer]⟩ "mail" = some deskMailer := by
  have hc : Catalog.ofText deskRegistry = .ok ⟨[deskMailer]⟩ := by decide +kernel
  obtain ⟨es, hes, hlisted, hnames, hget⟩ := catalog_lists_registry hc
  have ha : NamesApart (es.filter Registry.isListed) := hnames.mp (by decide)
  exact ⟨hc, es, hes, hlisted, ha, hget ha deskMailer (by simp)⟩

/-- Two keys of one text, one of them under a tag. -/
def taggedRegistry : String :=
  "tools:\n  read:\n    classes: [SAFE_READ]\n  !old read:\n    classes: [SENSITIVE_READ]\n"

theorem tagged_keys_repeat_names :
    ¬ ∀ (text : String) (c : Catalog), Catalog.ofText text = .ok c →
        (c.tools.map (·.name)).Nodup ∧ ∀ t ∈ c.tools, c.get? t.name = some t := by
  intro hall
  have hc : Catalog.ofText taggedRegistry =
      .ok ⟨[.ofClass "read" .safeRead "", .ofClass "read" .sensitiveRead ""]⟩ := by
    decide +kernel
  exact absurd (hall _ _ hc).1 (by decide)

end registries

end TaintPolicy
