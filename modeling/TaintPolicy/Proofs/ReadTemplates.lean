import TaintPolicy.Proofs.RuleCodec

/-!
# Templates that were read

What a reader promises of the templates of a text: each comes from one entry of its list, and so
does each of its rules, under the position that it has there.
-/

namespace TaintPolicy

/-- One of the templates of some text. -/
def Template.IsParsed (mode : Mode) (t : Template) : Prop :=
  ∃ text ts, Template.listOfText mode text = .ok ts ∧ t ∈ ts

/-- The entries that a document lists as templates. -/
def templateEntries (document : Json) : List Json := listedEntries document ["rule_templates"]

/-- The entries that a template or a policy lists as its rules. -/
def ruleEntries (v : Json) : List Json := listedEntries v ["taint_rules", "taintRules"]

theorem readTemplates_eq_ok {mode : Mode} {document : Json} {ts : List Template}
    (h : readTemplates mode document = .ok ts) :
    collect (readTemplate mode) (templateEntries document) = .ok ts := by
  simp only [readTemplates] at h
  rw [templateEntries, listedEntries]
  cases hd : document.firstPresent? ["rule_templates"] with
  | none =>
    cases mode <;> simp [hd] at h
    simp [h]
  | some v =>
    cases hv : v.items? with
    | none => simp [hd, hv] at h
    | some entries => simpa [hd, hv] using h

theorem readTemplates_of_templateEntries {document : Json} (h : templateEntries document ≠ [])
    (mode : Mode) :
    readTemplates mode document = collect (readTemplate mode) (templateEntries document) := by
  rw [templateEntries, listedEntries] at h ⊢
  simp only [readTemplates]
  cases hd : document.firstPresent? ["rule_templates"] with
  | none => simp [hd] at h
  | some v =>
    cases hv : v.items? with
    | none => simp [hd, hv] at h
    | some entries => simp [hv]

theorem exists_of_mem_readTemplates {mode : Mode} {document : Json} {ts : List Template}
    (h : readTemplates mode document = .ok ts) {t : Template} (ht : t ∈ ts) :
    ∃ v, readTemplate mode v = .ok (some t) := by
  obtain ⟨v, -, hv⟩ := exists_of_mem_collect (readTemplates_eq_ok h) ht
  exact ⟨v, hv⟩

theorem Template.IsParsed.exists_readTemplate {mode : Mode} {t : Template} (h : t.IsParsed mode) :
    ∃ v, readTemplate mode v = .ok (some t) := by
  obtain ⟨text, ts, h, ht⟩ := h
  obtain ⟨document, -, h⟩ := bind_eq_ok.mp h
  exact exists_of_mem_readTemplates h ht

/-- The parts of a template that was read, each with the reader it came from. -/
theorem readTemplate_eq_ok {mode : Mode} {v : Json} {t : Template}
    (h : readTemplate mode v = .ok (some t)) :
    v.firstText? ["name"] = some t.name ∧
    readGates mode (v.firstPresent? ["static_rules", "staticRules"]) = .ok t.gates ∧
    collect (readTemplateRule mode t.name)
      (numbered (listedEntries v ["taint_rules", "taintRules"])) = .ok t.rules := by
  simp only [readTemplate] at h
  cases hn : v.firstText? ["name"] with
  | none => cases mode <;> simp [hn] at h
  | some name =>
    rw [hn] at h
    obtain ⟨gates, hg, h⟩ := bind_eq_ok.mp h
    obtain ⟨rules, hr, h⟩ := bind_eq_ok.mp h
    cases h
    exact ⟨rfl, hg, hr⟩

theorem Template.IsParsed.isReadable {mode : Mode} {t : Template} (h : t.IsParsed mode)
    {r : NamedRule} (hr : r ∈ t.rules) : r.rule.IsReadable mode := by
  obtain ⟨v, hv⟩ := h.exists_readTemplate
  obtain ⟨-, -, hc⟩ := readTemplate_eq_ok hv
  obtain ⟨entry, -, hentry⟩ := exists_of_mem_collect hc hr
  obtain ⟨read, hread, hm⟩ := map_eq_ok.mp hentry
  obtain ⟨read, rfl, rfl⟩ := Option.map_eq_some_iff.mp hm
  exact isReadable_of_readRule hread

end TaintPolicy
