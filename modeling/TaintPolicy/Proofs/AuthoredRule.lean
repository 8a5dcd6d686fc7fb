import TaintPolicy.Proofs.CanonicalPattern
import TaintPolicy.Proofs.Restoration

/-!
# Rules written by hand

A rule that may be written by hand is exported and read back in either mode. Its entry drops an
empty tool, tag or error and empty predicates as the reader does, but it keeps empty forbidden tags,
which the reader drops. So the entry, and with it the fingerprint, survives the way through a policy
file exactly if no forbidden tag is empty.
-/

namespace TaintPolicy

section entries

/-- Of what normalizing drops, an entry shows only the empty tags. -/
theorem Rule.toEntry_normal (r : Rule) :
    r.normal.toEntry = { r.toEntry with forbiddenTags := r.forbiddenTags.filter (· ≠ "") } := by
  have hp : Pattern.toEntry ∘ Pattern.normal = Pattern.toEntry := funext Pattern.toEntry_normal
  simp only [toEntry, normal, nonEmpty_nonEmpty, Option.map_map, hp]

theorem Rule.toEntry_normal_eq_iff (r : Rule) :
    r.normal.toEntry = r.toEntry ↔ "" ∉ r.forbiddenTags := by
  have hf : r.forbiddenTags.filter (· ≠ "") = r.forbiddenTags ↔ "" ∉ r.forbiddenTags := by
    rw [List.filter_eq_self]
    constructor
    · intro h hm
      exact absurd (h "" hm) (by decide)
    · intro h tag ht
      exact decide_eq_true fun he => h (he ▸ ht)
  rw [← hf, Rule.toEntry_normal]
  constructor
  · intro h
    exact congrArg Entry.forbiddenTags h
  · intro h
    rw [h]
    rfl

/-- Rules with the same entry share their fingerprint, and so the id that it gives them. -/
theorem Assigner.importedId_congr {r r' : Rule} (h : r.toEntry = r'.toEntry) (assigner : Assigner)
    (index : Nat) : assigner.importedId index r = assigner.importedId index r' := by
  have hf : r.fingerprint = r'.fingerprint := by
    rw [Rule.fingerprint, Rule.entryText, h, Rule.fingerprint, Rule.entryText]
  cases assigner with
  | fingerprint => simp only [importedId, token, hf]
  | random words => rfl

end entries

section files

/-- The entry at a position of the first policy. -/
def PolicyFile.entryAt (f : PolicyFile) (i : Nat) : Option Entry :=
  f.policies.head?.bind fun p => p.rules[i]?

theorem entryAt_compile (honor : Bool) (s : Selection) (i : Nat) :
    (s.compile honor).entryAt i = s.rules[i]?.map fun r => r.rule.toEntry := by
  simp [PolicyFile.entryAt, Selection.compile, compileParts]

theorem getElem?_restoredRules (assigner : Assigner) (rules : List NamedRule) (i : Nat) :
    (restoredRules assigner rules)[i]? =
      rules[i]?.map fun r => assigner.name i r.rule.normal none none := by
  simp only [restoredRules, List.getElem?_map, List.getElem?_zipIdx, Option.map_map, Nat.zero_add]
  rfl

/-- Writing a rule by hand succeeds once its target fits. -/
theorem Selection.authorRule_of_targetDefect? {r : Rule} (h : r.targetDefect? = none)
    (s : Selection) (assigner : Assigner) :
    ∃ k, s.authorRule assigner r =
      .ok (⟨assigner.importedId k r, authoredSource, r⟩,
        s.pushRule ⟨assigner.importedId k r, authoredSource, r⟩) := by
  rw [authorRule, h]
  exact ⟨_, rfl⟩

end files

/-- A rule whose target fits is read back from its entry in either mode, as a rule with the same
entry exactly if no forbidden tag is empty. It can be written by hand, under an id with its
fingerprint. In a policy file whose other rules the mode accepts, it keeps its position, and under
the same condition it keeps its entry and its fingerprint when the file is read and compiled again. -/
theorem authored_rule_survives_iff (r : Rule) (h : r.targetDefect? = none) :
    (∀ mode, ∃ read, readRule mode r.toEntry.toJson = .ok (some read) ∧
      (read.rule.toEntry = r.toEntry ↔ "" ∉ r.forbiddenTags)) ∧
    (∀ (s : Selection) assigner, ∃ k named,
      s.authorRule assigner r = .ok (named, s.pushRule named) ∧ named.rule = r ∧
        named.id = assigner.importedId k r) ∧
    ∀ (s : Selection) (i : Nat), s.rules[i]?.map (·.rule) = some r →
      ∀ catalog assigner mode honor, (∀ other ∈ s.rules, checkTarget mode other.rule = .ok ()) →
        (s.compile honor).entryAt i = some r.toEntry ∧
        ∃ s' restored, restore catalog assigner mode (s.compile honor).toJson = .ok s' ∧
          s'.rules[i]? = some restored ∧
          ((s'.compile honor).entryAt i = some r.toEntry ↔ "" ∉ r.forbiddenTags) ∧
          ("" ∉ r.forbiddenTags → restored.id = assigner.importedId i r) := by
  refine ⟨fun mode => ?_, fun s assigner => ?_,
    fun s i hi catalog assigner mode honor hs => ⟨?_, ?_⟩⟩
  · have hc : checkTarget mode r = .ok () := by rw [checkTarget, h]
    refine ⟨⟨r.normal, none, none⟩, ?_, r.toEntry_normal_eq_iff⟩
    rw [readRule_toEntry, hc, map_ok]
  · obtain ⟨k, hk⟩ := s.authorRule_of_targetDefect? h assigner
    exact ⟨k, _, hk, rfl, rfl⟩
  · obtain ⟨named, hn, rfl⟩ := Option.map_eq_some_iff.mp hi
    rw [entryAt_compile, hn, Option.map_some]
  · obtain ⟨named, hn, rfl⟩ := Option.map_eq_some_iff.mp hi
    refine ⟨_, assigner.name i named.rule.normal none none, restore_compile hs, ?_, ?_, ?_⟩
    · rw [getElem?_restoredRules, hn, Option.map_some]
    · rw [entryAt_compile, getElem?_restoredRules, hn, Option.map_some, Option.map_some,
        Option.some.injEq]
      exact named.rule.toEntry_normal_eq_iff
    · intro ht
      exact Assigner.importedId_congr (named.rule.toEntry_normal_eq_iff.mpr ht) assigner i

/-- A check of one tag, for a selection that holds another rule before it. -/
def tagCheck : Rule :=
  { Rule.forClass .checkTaint .consequentialWrite with forbiddenTags := ["pii"], tag := some "" }

def tagCheckSelection : Selection where
  rules := [⟨"T-0", "T", .forTool .addTaint "read_file"⟩, ⟨"r-1", authoredSource, tagCheck⟩]

theorem authored_rule_survives_tagCheck :
    tagCheck.targetDefect? = none ∧
    tagCheckSelection.rules[1]?.map (·.rule) = some tagCheck ∧
    (∀ other ∈ tagCheckSelection.rules, checkTarget .strict other.rule = .ok ()) ∧
    ∃ s' restored, restore .empty .fingerprint .strict (tagCheckSelection.compile true).toJson =
        .ok s' ∧ s'.rules[1]? = some restored ∧
      (s'.compile true).entryAt 1 = some tagCheck.toEntry ∧
      restored.id = Assigner.fingerprint.importedId 1 tagCheck := by
  have ht : tagCheck.targetDefect? = none := rfl
  have hi : tagCheckSelection.rules[1]?.map (·.rule) = some tagCheck := rfl
  have hs : ∀ other ∈ tagCheckSelection.rules, checkTarget .strict other.rule = .ok () := by
    simp only [tagCheckSelection, List.forall_mem_cons]
    exact ⟨rfl, rfl, by simp⟩
  obtain ⟨-, s', restored, hr, hm, he, hid⟩ :=
    (authored_rule_survives_iff tagCheck ht).2.2 tagCheckSelection 1 hi .empty .fingerprint .strict
      true hs
  have htags : "" ∉ tagCheck.forbiddenTags := by decide
  exact ⟨ht, hi, hs, s', restored, hr, hm, he.mpr htags, hid htags⟩

/-- The same check beside an empty tag. -/
def emptyTagCheck : Rule := { tagCheck with forbiddenTags := ["", "pii"] }

theorem authored_rule_with_empty_tag_changes :
    emptyTagCheck.targetDefect? = none ∧
    ∃ read, readRule .strict emptyTagCheck.toEntry.toJson = .ok (some read) ∧
      read.rule.toEntry ≠ emptyTagCheck.toEntry := by
  refine ⟨rfl, ⟨emptyTagCheck.normal, none, none⟩, rfl, ?_⟩
  decide

end TaintPolicy
