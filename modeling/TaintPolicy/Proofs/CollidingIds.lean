import TaintPolicy.Proofs.ReadPolicies
import TaintPolicy.Proofs.RuleIds

/-!
# Colliding ids

Where two rules share an id there is a reason in the document. Rules of templates share one only if
they stand at one position of two templates with one name. Imported rules share one only if the
document gives it to one of them: an id that is made up shows its position, whatever the tokens are.
-/

namespace TaintPolicy

/-- The rule was read from the entry at position `k` of the template at position `i`. -/
def NamedRule.IsTemplateRule (mode : Mode) (document : Json) (i k : Nat) (r : NamedRule) : Prop :=
  ∃ v t e, (templateEntries document)[i]? = some v ∧ readTemplate mode v = .ok (some t) ∧
    (ruleEntries v)[k]? = some e ∧ readTemplateRule mode t.name (e, k) = .ok (some r)

/-- The rule was read from the entry at position `k` of the first policy. -/
def NamedRule.IsPolicyRule (assigner : Assigner) (mode : Mode) (document : Json) (k : Nat)
    (r : NamedRule) : Prop :=
  ∃ e, (policyEntries document)[k]? = some e ∧ restoreRule assigner mode (e, k) = .ok (some r)

/-- The entry at position `k` of the first policy states this id. -/
def StatesId (document : Json) (k : Nat) (id : String) : Prop :=
  ∃ e, (policyEntries document)[k]? = some e ∧ e.firstText? ["id"] = some id

theorem getElem?_of_mem_numbered {vs : List Json} {x : Json × Nat} (h : x ∈ numbered vs) :
    vs[x.2]? = some x.1 :=
  List.mem_zipIdx_iff_getElem?.mp h

section templates

variable {mode : Mode} {document : Json} {ts : List Template}

theorem source_of_readTemplateRule {template : String} {entry : Json × Nat} {named : NamedRule}
    (h : readTemplateRule mode template entry = .ok (some named)) : named.source = template := by
  obtain ⟨read, -, hm⟩ := map_eq_ok.mp h
  obtain ⟨r, -, rfl⟩ := Option.map_eq_some_iff.mp hm
  rfl

/-- Each rule of a template was read from the entry at some position. -/
theorem exists_of_mem_rules {v : Json} {t : Template} (hv : readTemplate mode v = .ok (some t))
    {r : NamedRule} (hr : r ∈ t.rules) :
    ∃ k e, (ruleEntries v)[k]? = some e ∧ readTemplateRule mode t.name (e, k) = .ok (some r) := by
  obtain ⟨-, -, hc⟩ := readTemplate_eq_ok hv
  obtain ⟨entry, he, hread⟩ := exists_of_mem_collect hc hr
  exact ⟨entry.2, entry.1, getElem?_of_mem_numbered he, hread⟩

/-- Two templates of a document were read from entries at two positions. -/
theorem readTemplates_pairwise (h : readTemplates mode document = .ok ts) :
    ts.Pairwise fun t t' => ∃ (i i' : Nat) (v v' : Json), i ≠ i' ∧
      (templateEntries document)[i]? = some v ∧ readTemplate mode v = .ok (some t) ∧
      (templateEntries document)[i']? = some v' ∧ readTemplate mode v' = .ok (some t') := by
  have hc := readTemplates_eq_ok h
  rw [← List.zipIdx_map_fst 0 (templateEntries document), collect_map_eq] at hc
  refine collect_pairwise ?_ (List.pairwise_map.mp (nodup_positions (templateEntries document))) hc
  intro x hx y hy hne t t' ht ht'
  exact ⟨x.2, y.2, x.1, y.1, hne, getElem?_of_mem_numbered hx, ht, getElem?_of_mem_numbered hy, ht'⟩

/-- Rules with one id come from one position of two templates with one name. -/
theorem corpusOf_pairwise (h : readTemplates mode document = .ok ts) :
    (corpusOf ts).Pairwise fun r r' => r.id = r'.id → r.source = r'.source ∧
      ∃ i i' k, i ≠ i' ∧ r.IsTemplateRule mode document i k ∧
        r'.IsTemplateRule mode document i' k := by
  refine List.pairwise_flatMap.mpr ⟨fun t ht => ?_, ?_⟩
  · obtain ⟨v, hv⟩ := exists_of_mem_readTemplates h ht
    have hn := List.pairwise_map.mp (nodup_ids_of_readTemplate hv)
    exact hn.imp fun hne hid => absurd hid hne
  · refine (readTemplates_pairwise h).imp ?_
    rintro t t' ⟨i, i', v, v', hne, hi, hv, hi', hv'⟩ r hr r' hr' hid
    obtain ⟨k, e, he, hread⟩ := exists_of_mem_rules hv hr
    obtain ⟨k', e', he', hread'⟩ := exists_of_mem_rules hv' hr'
    rw [id_of_readTemplateRule hread, id_of_readTemplateRule hread'] at hid
    obtain ⟨hname, rfl⟩ := templateId_injective hid
    rw [source_of_readTemplateRule hread, source_of_readTemplateRule hread']
    exact ⟨hname, i, i', k, hne, ⟨v, t, e, hi, hv, he, hread⟩, ⟨v', t', e', hi', hv', he', hread'⟩⟩

/-- Ids of different templates differ with the names of these. -/
theorem nodup_ids_corpusOf (h : readTemplates mode document = .ok ts)
    (hn : (ts.map (·.name)).Nodup) : ((corpusOf ts).map (·.id)).Nodup := by
  have hid : ∀ t ∈ ts, ∀ r ∈ t.rules, ∃ k, r.id = templateId t.name k := by
    intro t ht r hr
    obtain ⟨v, hv⟩ := exists_of_mem_readTemplates h ht
    obtain ⟨k, e, -, hread⟩ := exists_of_mem_rules hv hr
    exact ⟨k, id_of_readTemplateRule hread⟩
  refine List.pairwise_map.mpr (List.pairwise_flatMap.mpr ⟨fun t ht => ?_, ?_⟩)
  · obtain ⟨v, hv⟩ := exists_of_mem_readTemplates h ht
    exact List.pairwise_map.mp (nodup_ids_of_readTemplate hv)
  · refine (List.pairwise_map.mp hn).imp_of_mem ?_
    intro t t' ht ht' hne r hr r' hr' he
    obtain ⟨k, hk⟩ := hid t ht r hr
    obtain ⟨k', hk'⟩ := hid t' ht' r' hr'
    exact hne (templateId_injective (hk ▸ hk' ▸ he)).1

/-- Nothing is repeated among words that are distinct and were not seen before. -/
theorem repeatedFrom_eq_nil {seen ss : List String} (hn : ss.Nodup) (hd : ∀ s ∈ ss, s ∉ seen) :
    repeatedFrom seen ss = [] := by
  induction ss generalizing seen with
  | nil => rfl
  | cons s ss ih =>
    obtain ⟨hs, hn⟩ := List.nodup_cons.mp hn
    have hc : seen.count s = 0 := List.count_eq_zero_of_not_mem (hd s (by simp))
    rw [repeatedFrom, hc, if_neg (by decide)]
    refine ih hn fun s' hs' hm => ?_
    rcases List.mem_cons.mp hm with rfl | hm
    · exact hs hs'
    · exact hd s' (by simp [hs']) hm

end templates

section policies

variable {catalog : Catalog} {assigner : Assigner} {mode : Mode} {document : Json} {s : Selection}

/-- A restored rule has the id that its entry states, or one that is made of its position. -/
theorem id_of_restoreRule {entry : Json × Nat} {named : NamedRule}
    (h : restoreRule assigner mode entry = .ok (some named)) :
    entry.1.firstText? ["id"] = some named.id ∨
      ∃ r, named.id = assigner.importedId entry.2 r := by
  obtain ⟨read, hr, hm⟩ := map_eq_ok.mp h
  obtain ⟨read, rfl, rfl⟩ := Option.map_eq_some_iff.mp hm
  have hid := (labels_of_readRule hr).1
  rw [Assigner.name, hid, nonEmpty_firstText?]
  cases entry.1.firstText? ["id"] with
  | none => exact .inr ⟨read.rule, rfl⟩
  | some id => exact .inl rfl

/-- Of two restored rules with one id, the entry of at least one states it. -/
theorem restore_rules_pairwise (h : restore catalog assigner mode document = .ok s) :
    s.rules.Pairwise fun r r' => r.id = r'.id →
      ∃ k k', k ≠ k' ∧ r.IsPolicyRule assigner mode document k ∧
        r'.IsPolicyRule assigner mode document k' ∧
        (StatesId document k r.id ∨ StatesId document k' r.id) := by
  obtain ⟨gates, rules, -, hc, rfl⟩ := restore_eq_ok h
  refine collect_pairwise ?_ (List.pairwise_map.mp (nodup_positions (policyEntries document))) hc
  intro x hx y hy hne r r' hr hr' hid
  have hx' := getElem?_of_mem_numbered hx
  have hy' := getElem?_of_mem_numbered hy
  refine ⟨x.2, y.2, hne, ⟨x.1, hx', hr⟩, ⟨y.1, hy', hr'⟩, ?_⟩
  rcases id_of_restoreRule hr with hs | ⟨q, hq⟩
  · exact .inl ⟨x.1, hx', hs⟩
  rcases id_of_restoreRule hr' with hs | ⟨q', hq'⟩
  · exact .inr ⟨y.1, hy', hid ▸ hs⟩
  · exact absurd (importedId_inj (hq ▸ hq' ▸ hid)) hne

end policies

/-- In the corpus of a text, two rules share an id only if they come from the same position of two
templates with the same name. So ids are distinct if the names of the templates are. Of two rules of
a restored policy that share an id, at least one carried it in the document. -/
theorem ids_collide_only :
    (∀ mode text ts, Template.listOfText mode text = .ok ts →
      ∃ document, Yaml.read text = .ok document ∧
        ((corpusOf ts).Pairwise fun r r' => r.id = r'.id → r.source = r'.source ∧
          ∃ i i' k, i ≠ i' ∧ r.IsTemplateRule mode document i k ∧
            r'.IsTemplateRule mode document i' k) ∧
        ((ts.map (·.name)).Nodup → duplicateIds (corpusOf ts) = [])) ∧
    ∀ catalog assigner mode document s, restore catalog assigner mode document = .ok s →
      s.rules.Pairwise fun r r' => r.id = r'.id →
        ∃ k k', k ≠ k' ∧ r.IsPolicyRule assigner mode document k ∧
          r'.IsPolicyRule assigner mode document k' ∧
          (StatesId document k r.id ∨ StatesId document k' r.id) := by
  constructor
  · intro mode text ts h
    obtain ⟨document, hy, h⟩ := bind_eq_ok.mp h
    refine ⟨document, hy, corpusOf_pairwise h, fun hn => ?_⟩
    exact repeatedFrom_eq_nil (nodup_ids_corpusOf h hn) fun _ _ => List.not_mem_nil
  · intro catalog assigner mode document s h
    exact restore_rules_pairwise h

section namesakes

/-! Two templates share a name that looks like an id, and a policy states the id that its second
rule is going to get. -/

def shellCheck : NamedRule := ⟨"T-1-0", "T-1", .forTool .checkTaint "shell"⟩

def shellTaint : NamedRule := ⟨"T-1-0", "T-1", .forTool .addTaint "shell"⟩

def namesakesText : String :=
  "rule_templates:\n- name: T-1\n  taint_rules:\n  - action: CHECK_TAINT\n    tool: shell\n" ++
    "- name: T-1\n  taintRules:\n  - action: ADD_TAINT\n    tool: shell\n"

def foreseenPolicy : Json :=
  .obj [("policies", .arr [.obj [("taint_rules", .arr [
    .obj [("id", .str "imported-1-0"), ("action", .str "CHECK_TAINT"), ("tool", .str "shell")],
    .obj [("action", .str "ADD_TAINT"), ("tool", .str "shell")]])]])]

def foreseen : Selection where
  rules := [⟨"imported-1-0", importedSource, .forTool .checkTaint "shell"⟩,
    ⟨"imported-1-0", importedSource, .forTool .addTaint "shell"⟩]

theorem ids_collide_only_namesakes :
    Template.listOfText .strict namesakesText =
      .ok [⟨"T-1", "", [], [shellCheck]⟩, ⟨"T-1", "", [], [shellTaint]⟩] ∧
    (∃ document i i' k, Yaml.read namesakesText = .ok document ∧ i ≠ i' ∧
      shellCheck.IsTemplateRule .strict document i k ∧
      shellTaint.IsTemplateRule .strict document i' k) ∧
    restore .empty (.random fun _ => "0") .lenient foreseenPolicy = .ok foreseen ∧
    ∃ k k', k ≠ k' ∧
      (StatesId foreseenPolicy k "imported-1-0" ∨ StatesId foreseenPolicy k' "imported-1-0") := by
  have ht : Template.listOfText .strict namesakesText =
      .ok [⟨"T-1", "", [], [shellCheck]⟩, ⟨"T-1", "", [], [shellTaint]⟩] := by decide +kernel
  have hp : restore .empty (.random fun _ => "0") .lenient foreseenPolicy = .ok foreseen := rfl
  obtain ⟨document, hy, hc, -⟩ := ids_collide_only.1 _ _ _ ht
  obtain ⟨-, i, i', k, hne, hr, hr'⟩ := List.pairwise_pair.mp hc rfl
  obtain ⟨j, j', hne', -, -, hs⟩ := List.pairwise_pair.mp (ids_collide_only.2 _ _ _ _ _ hp) rfl
  exact ⟨ht, ⟨document, i, i', k, hy, hne, hr, hr'⟩, hp, j, j', hne', hs⟩

end namesakes

end TaintPolicy
