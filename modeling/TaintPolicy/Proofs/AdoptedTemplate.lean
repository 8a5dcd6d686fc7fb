import Mathlib.Data.List.Induction
import TaintPolicy.Proofs.CompactText
import TaintPolicy.Proofs.DistinctFields
import TaintPolicy.Proofs.PolicyNames
import TaintPolicy.Proofs.Restoration
import TaintPolicy.Proofs.RuleIds
import TaintPolicy.Proofs.ToolLists

/-!
# Adopted templates

Starting over from a template that was read chooses the tools that it allows, as far as the catalog
has them, and its rules; of what was chosen before nothing but the policy name is left. A template
has one gate for each tool, also where a document repeats the key of a tool: the last value counts,
in the place of the first.
-/

namespace TaintPolicy

namespace Fields

variable {α : Type}

theorem ofEntries_concat (es : List (String × α)) (e : String × α) :
    ofEntries (es ++ [e]) = put e.1 e.2 (ofEntries es) := by
  rw [ofEntries, List.foldl_append]
  rfl

/-- Of the values under one name the last one is found. -/
theorem find?_ofEntries (es : List (String × α)) (name : String) :
    find? name (ofEntries es) = find? name es.reverse := by
  induction es using List.reverseRecOn with
  | nil => rfl
  | append_singleton es e ih =>
    rw [ofEntries_concat, find?_put, ih, List.reverse_append, List.reverse_singleton,
      List.singleton_append, find?]

/-- A name stands where it was put first. -/
theorem names_ofEntries (es : List (String × α)) :
    names (ofEntries es) = (names es).eraseDups := by
  induction es using List.reverseRecOn with
  | nil => rfl
  | append_singleton es e ih =>
    have hnames : names (es ++ [e]) = names es ++ [e.1] := List.map_append
    rw [ofEntries_concat, names_put, hnames, List.eraseDups_append]
    have hone : [e.1].eraseDups = [e.1] := by simp [List.eraseDups_cons]
    by_cases h : e.1 ∈ names es <;> simp [h, ih, hone, List.removeAll]

/-- Fields with distinct names are their names with what is found under these. -/
theorem eq_filterMap_names {fs : Fields α} (h : (names fs).Nodup) :
    fs = (names fs).filterMap fun name => (find? name fs).map fun a => (name, a) := by
  have hfind : ∀ f ∈ fs, ((find? f.1 fs).map fun a => (f.1, a)) = some f := by
    intro f hf
    rw [find?_of_mem h hf, Option.map_some]
  rw [names, List.filterMap_map]
  exact ((List.filterMap_congr hfind).trans List.filterMap_some).symm

end Fields

/-- The gate that a value names. -/
def Json.gate? : Json → Option Gate
  | str s => Gate.ofText? s
  | _ => none

section gates

variable {mode : Mode}

theorem eq_of_readGate {f : String × Json} {piece : Option (String × Gate)}
    (h : readGate mode f = .ok piece) : piece = f.2.gate?.map fun g => (f.1, g) := by
  have htext : Gate.ofText? (f.2.text?.getD "") = f.2.gate? := by
    have hempty : Gate.ofText? "" = none := by decide
    cases f.2 with
    | str s => rfl
    | _ => exact hempty
  rw [readGate, htext] at h
  cases hg : f.2.gate? with
  | some g =>
    rw [hg] at h
    exact (Except.ok.inj h).symm
  | none =>
    rw [hg] at h
    cases mode with
    | lenient => exact (Except.ok.inj h).symm
    | strict => cases h

/-- The gates of a mapping, whichever entries it was filled with: one for each key that ends up with
a gate, in the order in which the keys came up. -/
theorem readGates_ofEntries {es : List (String × Json)} {gates : Fields Gate}
    (h : readGates mode (some (.obj (Fields.ofEntries es))) = .ok gates) :
    gates = (Fields.names es).eraseDups.filterMap fun tool =>
      ((Fields.find? tool es.reverse).bind Json.gate?).map fun g => (tool, g) := by
  have hcollect : collect (readGate mode) (Fields.ofEntries es) = .ok gates := h
  rw [eq_filterMap_of_collect (fun _ _ => eq_of_readGate) hcollect,
    Fields.eq_filterMap_names (Fields.nodup_names_ofEntries es), List.filterMap_filterMap,
    Fields.names_ofEntries]
  apply List.filterMap_congr
  intro tool _
  rw [Fields.find?_ofEntries]
  cases Fields.find? tool es.reverse <;> rfl

end gates

namespace Template

variable {t : Template}

theorem IsParsed.nodup_gates {mode : Mode} (h : t.IsParsed mode) :
    (Fields.names t.gates).Nodup := by
  obtain ⟨text, ts, h, ht⟩ := h
  obtain ⟨document, hy, h⟩ := bind_eq_ok.mp h
  obtain ⟨v, hv, hread⟩ := exists_of_mem_collect (readTemplates_eq_ok h) ht
  obtain ⟨-, hgates, -⟩ := readTemplate_eq_ok hread
  have honce : v.NamesOnce := (Yaml.namesOnce_of_read hy).listedEntries hv
  exact nodup_names_readGates (fun w hw => honce.firstPresent? hw) hgates

/-- With one gate for each tool, a tool is allowed exactly if its gate says so. -/
theorem mem_allowedTools_iff (h : (Fields.names t.gates).Nodup) {name : String} :
    name ∈ t.allowedTools ↔ t.gate? name = some .allow := by
  rw [allowedTools, gate?, List.mem_map]
  constructor
  · rintro ⟨g, hg, rfl⟩
    obtain ⟨hg, hallow⟩ := List.mem_filter.mp hg
    rw [Fields.find?_of_mem h hg, of_decide_eq_true hallow]
  · intro hfind
    exact ⟨(name, .allow), List.mem_filter.mpr ⟨Fields.mem_of_find? hfind, decide_eq_true rfl⟩, rfl⟩

theorem nodup_allowedTools (h : (Fields.names t.gates).Nodup) : t.allowedTools.Nodup :=
  (List.filter_sublist.map _).nodup h

end Template

section selecting

variable {t : Template} (catalog : Catalog)

/-- Looking tools up keeps their names. -/
theorem names_filterMap_get?_sublist (names : List String) :
    ((names.filterMap catalog.get?).map (·.name)).Sublist names := by
  induction names with
  | nil => exact .slnil
  | cons name names ih =>
    cases hget : catalog.get? name with
    | none => simpa [hget] using ih.cons name
    | some u => simpa [hget, Catalog.name_of_get? hget] using ih

theorem mem_names_filterMap_get? {names : List String} {name : String} :
    name ∈ (names.filterMap catalog.get?).map (·.name) ↔
      name ∈ names ∧ ∃ u ∈ catalog.tools, u.name = name := by
  constructor
  · intro h
    obtain ⟨u, hu, rfl⟩ := List.mem_map.mp h
    obtain ⟨name, -, hget⟩ := List.mem_filterMap.mp hu
    exact ⟨(names_filterMap_get?_sublist catalog names).subset h, u, Catalog.mem_of_get? hget, rfl⟩
  · rintro ⟨h, u, hu, rfl⟩
    obtain ⟨w, hget⟩ := Option.isSome_iff_exists.mp (Catalog.isSome_get?_of_mem hu)
    exact List.mem_map.mpr ⟨w, List.mem_filterMap.mpr ⟨u.name, h, hget⟩, Catalog.name_of_get? hget⟩

/-- All of the selection after starting over from a template with one gate for each tool. -/
theorem selectTemplate_eq (h : (Fields.names t.gates).Nodup) (s : Selection) :
    s.selectTemplate t catalog = {
      policyName := s.policyName
      tools := (t.allowedTools.filterMap catalog.get?).map (⟨·, .allow⟩)
      rules := t.rules
      activeTemplate := some t.name } := by
  have hn : ((t.allowedTools.filterMap catalog.get?).map (·.name)).Nodup :=
    (names_filterMap_get?_sublist catalog _).nodup (Template.nodup_allowedTools h)
  have htools := s.clearTools.tools_addTools (t.allowedTools.filterMap catalog.get?)
  have hnone : s.clearTools.toolNames = [] := rfl
  rw [hnone, firstOfEach_of_nodup hn, List.filter_eq_self.mpr (by simp)] at htools
  have hname := policyName_addTools s.clearTools (t.allowedTools.filterMap catalog.get?)
  rw [Selection.selectTemplate, htools, hname]
  rfl

end selecting

/-- Starting over from a template that was read chooses exactly the tools of the catalog that the
template allows, in file order and each once, and exactly its rules, which have distinct ids; of
what was chosen before only the policy name matters. What the template allows is what its gates say,
and these are the last gates of the keys of the file, in the order in which the keys came up. -/
theorem selectTemplate_adopts_gates {mode : Mode} {text : String} {ts : List Template}
    (h : Template.listOfText mode text = .ok ts) {t : Template} (ht : t ∈ ts) :
    (∀ (catalog : Catalog) (s : Selection),
      let chosen := s.selectTemplate t catalog
      (∀ name, name ∈ chosen.toolNames ↔
        t.gate? name = some .allow ∧ ∃ u ∈ catalog.tools, u.name = name) ∧
      chosen.tools = (t.allowedTools.filterMap catalog.get?).map (⟨·, .allow⟩) ∧
      chosen.toolNames.Nodup ∧
      chosen.rules = t.rules ∧ chosen.ruleIds.Nodup ∧
      chosen.activeTemplate = some t.name ∧ chosen.policyName = s.policyName ∧
      ∀ s' : Selection, s'.policyName = s.policyName → s'.selectTemplate t catalog = chosen) ∧
    (∀ name, name ∈ t.allowedTools ↔ t.gate? name = some .allow) ∧ t.allowedTools.Nodup ∧
    ∃ document v, Yaml.read text = .ok document ∧ v ∈ templateEntries document ∧
      readTemplate mode v = .ok (some t) ∧
      ∀ es, v.firstPresent? ["static_rules", "staticRules"] = some (.obj (Fields.ofEntries es)) →
        t.gates = (Fields.names es).eraseDups.filterMap fun tool =>
          ((Fields.find? tool es.reverse).bind Json.gate?).map fun g => (tool, g) := by
  have hp : t.IsParsed mode := ⟨text, ts, h, ht⟩
  have hn := hp.nodup_gates
  have hallowed := Template.nodup_allowedTools hn
  refine ⟨fun catalog s => ?_, fun name => Template.mem_allowedTools_iff hn, hallowed, ?_⟩
  · intro chosen
    have hchosen : chosen = _ := selectTemplate_eq catalog hn s
    have hnames : chosen.toolNames = (t.allowedTools.filterMap catalog.get?).map (·.name) := by
      rw [hchosen, Selection.toolNames, List.map_map]
      rfl
    have hmem : ∀ name, name ∈ chosen.toolNames ↔
        t.gate? name = some .allow ∧ ∃ u ∈ catalog.tools, u.name = name := by
      intro name
      rw [hnames, mem_names_filterMap_get?, Template.mem_allowedTools_iff hn]
    have hnodup : chosen.toolNames.Nodup := by
      rw [hnames]
      exact (names_filterMap_get?_sublist catalog _).nodup hallowed
    refine ⟨hmem, ?_, hnodup, rfl, hp.nodup_ids, rfl, ?_, ?_⟩
    · rw [hchosen]
    · rw [hchosen]
    · intro s' hname
      rw [hchosen, selectTemplate_eq catalog hn s', hname]
  · obtain ⟨document, hy, h⟩ := bind_eq_ok.mp h
    obtain ⟨v, hv, hread⟩ := exists_of_mem_collect (readTemplates_eq_ok h) ht
    obtain ⟨-, hgates, -⟩ := readTemplate_eq_ok hread
    refine ⟨document, v, hy, hv, hread, fun es hes => ?_⟩
    rw [hes] at hgates
    exact readGates_ofEntries hgates

section revised

/-! A template file that takes back what it says about two tools. -/

def revisedText : String :=
  "rule_templates:\n- name: Mail\n  static_rules:\n    mail: DENY\n    read: ALLOW\n" ++
    "    find: ALLOW\n    mail: ALLOW\n    read: MAYBE\n"

def revisedEntries : List (String × Json) :=
  [("mail", .str "DENY"), ("read", .str "ALLOW"), ("find", .str "ALLOW"), ("mail", .str "ALLOW"),
    ("read", .str "MAYBE")]

def revisedDocument : Json :=
  .obj [("rule_templates", .arr [.obj [("name", .str "Mail"),
    ("static_rules", .obj (Fields.ofEntries revisedEntries))]])]

def revisedTemplate : Template where
  name := "Mail"
  description := ""
  gates := [("mail", .allow), ("find", .allow)]
  rules := []

def revisedCatalog : Catalog := ⟨[.ofClass "read" .safeRead "", .ofClass "mail" .safeWrite ""]⟩

/-- A session that chose and denied another tool. -/
def beforeRevision : Selection where
  policyName := "old"
  tools := [⟨.ofClass "read" .safeRead "", .deny⟩]

-- Values are compared by their texts, since equality of values is not decided.
theorem read_revisedText : Yaml.read revisedText = .ok revisedDocument := by
  have htext : (Yaml.read revisedText).map Json.compact = .ok revisedDocument.compact := by
    decide +kernel
  obtain ⟨document, hread, he⟩ := map_eq_ok.mp htext
  rw [hread, Json.compact_injective he]

theorem selectTemplate_adopts_gates_revised :
    Template.listOfText .lenient revisedText = .ok [revisedTemplate] ∧
    revisedTemplate ∈ [revisedTemplate] ∧
    (∀ name, name ∈ (beforeRevision.selectTemplate revisedTemplate revisedCatalog).toolNames ↔
      revisedTemplate.gate? name = some .allow ∧ ∃ u ∈ revisedCatalog.tools, u.name = name) ∧
    (beforeRevision.selectTemplate revisedTemplate revisedCatalog).tools =
      [⟨.ofClass "mail" .safeWrite "", .allow⟩] ∧
    revisedTemplate.gates = (Fields.names revisedEntries).eraseDups.filterMap fun tool =>
      ((Fields.find? tool revisedEntries.reverse).bind Json.gate?).map fun g => (tool, g) := by
  have ht : Template.listOfText .lenient revisedText = .ok [revisedTemplate] := by
    rw [Template.listOfText, read_revisedText]
    rfl
  have hm : revisedTemplate ∈ [revisedTemplate] := List.mem_singleton.mpr rfl
  obtain ⟨hchosen, -, -, document, v, hy, hv, -, hgates⟩ := selectTemplate_adopts_gates ht hm
  obtain ⟨hmem, htools, -⟩ := hchosen revisedCatalog beforeRevision
  cases read_revisedText.symm.trans hy
  cases List.mem_singleton.mp hv
  exact ⟨ht, hm, hmem, htools.trans (by decide), hgates revisedEntries rfl⟩

end revised

end TaintPolicy
