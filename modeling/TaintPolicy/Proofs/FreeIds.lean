import Mathlib.Order.Bounds.Basic
import TaintPolicy.Proofs.RuleIds
import TaintPolicy.Proofs.Session

/-!
# Ids of rules written by hand

The search for an id tries one index after the other, from the number of chosen rules on. It ends,
since no two indices have one id and only so many ids are taken; and it ends at the least index with
a free id. Nothing but the list of rules changes, and that only by one rule at its end.
-/

namespace TaintPolicy

/-- The search as it goes on from an index: a free id ends it, and after a taken one the next index
is tried. It ends after `count` candidates at the index `found`. -/
inductive Searches (taken : List String) (idAt : Nat → String) : Nat → Nat → Nat → Prop
  | free {index : Nat} : idAt index ∉ taken → Searches taken idAt index 1 index
  | taken {index count found : Nat} : idAt index ∈ taken →
    Searches taken idAt (index + 1) count found → Searches taken idAt index (count + 1) found

section search

variable {taken : List String} {idAt : Nat → String}

/-- Every index before the one that is found was tried, and its id is taken. -/
theorem Searches.isLeast {index count found : Nat} (h : Searches taken idAt index count found) :
    IsLeast {k | index ≤ k ∧ idAt k ∉ taken} found := by
  induction h with
  | free hfree => exact ⟨⟨Nat.le_refl _, hfree⟩, fun k hk => hk.1⟩
  | @taken index count found htaken _ ih =>
    obtain ⟨⟨hle, hfree⟩, hleast⟩ := ih
    refine ⟨⟨Nat.le_of_succ_le hle, hfree⟩, ?_⟩
    rintro k ⟨hk, hkfree⟩
    have hne : index ≠ k := fun he => hkfree (he ▸ htaken)
    exact hleast ⟨by omega, hkfree⟩

/-- A bounded search that comes to a free id is the search without a bound. -/
theorem searches_freshIndex {bound index : Nat}
    (h : idAt (Selection.freshIndex taken idAt bound index) ∉ taken) :
    ∃ count ≤ bound + 1,
      Searches taken idAt index count (Selection.freshIndex taken idAt bound index) := by
  induction bound generalizing index with
  | zero => exact ⟨1, Nat.le_refl _, .free h⟩
  | succ bound ih =>
    rw [Selection.freshIndex] at h ⊢
    split at h
    · next htaken =>
      rw [if_pos htaken]
      obtain ⟨count, hcount, hs⟩ := ih h
      exact ⟨count + 1, by omega, .taken htaken hs⟩
    · next hfree =>
      rw [if_neg hfree]
      exact ⟨1, by omega, .free hfree⟩

end search

theorem Assigner.importedId_eq (assigner : Assigner) (index : Nat) (r : Rule) :
    assigner.importedId index r =
      "imported-" ++ Nat.repr index ++ "-" ++ assigner.token index r := by
  have hs : importedSource ++ "-" = "imported-" := by decide
  rw [importedId, hs]

namespace Selection

variable (s : Selection) (assigner : Assigner) (r : Rule)

/-- The index of the id that the rule gets. -/
def authoredIndex : Nat :=
  freshIndex s.ruleIds (assigner.importedId · r) s.rules.length s.rules.length

/-- Whatever the tokens are, one more candidate than there are rules is enough. -/
theorem exists_searches_authoredIndex :
    ∃ count ≤ s.rules.length + 1, Searches s.ruleIds (assigner.importedId · r) s.rules.length count
      (s.authoredIndex assigner r) := by
  apply searches_freshIndex
  apply freshIndex_notMem fun _ _ he => importedId_inj he
  simp [ruleIds]

theorem authorRule_eq_ok_of_target {r : Rule} (h : r.targetDefect? = none) :
    let named : NamedRule :=
      ⟨assigner.importedId (s.authoredIndex assigner r) r, authoredSource, r⟩
    s.authorRule assigner r = .ok (named, { s with rules := s.rules ++ [named] }) := by
  rw [authorRule, h]
  rfl

theorem authorRule_eq_error {r : Rule} {defect : TargetDefect} (h : r.targetDefect? = some defect) :
    s.authorRule assigner r = .error (.invalidTarget defect) := by
  rw [authorRule, h]

end Selection

/-- Writing a rule by hand fails with the defect of its target, and then changes nothing. Otherwise
it tries at most one candidate more than there are rules, whatever token a candidate draws, and adds
the rule at the end under an id that was free: the id of the least index, from the number of rules
on, whose id is. The rest of the selection stays as it is. -/
theorem authorRule_takes_least_free_id (s : Selection) (assigner : Assigner) (r : Rule) :
    (∀ defect, r.targetDefect? = some defect →
      s.authorRule assigner r = .error (.invalidTarget defect) ∧
      (Operation.authorRule assigner r).run s = s) ∧
    (r.targetDefect? = none → ∃ index, ∃ count ≤ s.rules.length + 1,
      Searches s.ruleIds (assigner.importedId · r) s.rules.length count index ∧
      IsLeast {k | s.rules.length ≤ k ∧ assigner.importedId k r ∉ s.ruleIds} index ∧
      let named : NamedRule :=
        ⟨"imported-" ++ Nat.repr index ++ "-" ++ assigner.token index r, "custom", r⟩
      s.authorRule assigner r = .ok (named, { s with rules := s.rules ++ [named] }) ∧
      (Operation.authorRule assigner r).run s = { s with rules := s.rules ++ [named] } ∧
      named.id ∉ s.ruleIds ∧
      (assigner = .fingerprint →
        named.id = "imported-" ++ Nat.repr index ++ "-" ++ r.fingerprint)) := by
  constructor
  · intro defect hd
    have ha := s.authorRule_eq_error assigner hd
    exact ⟨ha, by rw [Operation.run, ha]⟩
  · intro hd
    obtain ⟨count, hcount, hs⟩ := s.exists_searches_authoredIndex assigner r
    have hleast := hs.isLeast
    have hfree := hleast.1.2
    have ha := s.authorRule_eq_ok_of_target assigner hd
    rw [assigner.importedId_eq] at hfree ha
    refine ⟨_, count, hcount, hs, hleast, ha, ?_, hfree, ?_⟩
    · rw [Operation.run, ha]
      rfl
    · rintro rfl
      rfl

section removed

/-! After a removal, the number of rules is the index of an id that is still taken. -/

def shellTag : Rule := .forTool .addTaint "shell"

/-- The second of two rules that were written by hand, after the first one was removed. -/
def keptSecond : Selection where
  rules := [⟨Assigner.fingerprint.importedId 1 shellTag, authoredSource, shellTag⟩]

def reauthored : NamedRule := ⟨"imported-2-" ++ shellTag.fingerprint, "custom", shellTag⟩

theorem authorRule_takes_least_free_id_keptSecond :
    shellTag.targetDefect? = none ∧
    keptSecond.authorRule .fingerprint shellTag =
      .ok (reauthored, keptSecond.pushRule reauthored) ∧
    ({ shellTag with toolClass := some .safeRead } : Rule).targetDefect? = some .both ∧
    keptSecond.authorRule .fingerprint { shellTag with toolClass := some .safeRead } =
      .error (.invalidTarget .both) := by
  have ht : shellTag.targetDefect? = none := rfl
  have hd : ({ shellTag with toolClass := some .safeRead } : Rule).targetDefect? = some .both := rfl
  have hids : ∀ k, Assigner.fingerprint.importedId k shellTag ∉ keptSecond.ruleIds ↔ k ≠ 1 := by
    intro k
    rw [Selection.ruleIds, keptSecond, List.map_singleton, List.mem_singleton]
    exact not_congr ⟨importedId_inj, fun h => h ▸ rfl⟩
  obtain ⟨index, count, -, -, hleast, ha, -, -, -⟩ :=
    (authorRule_takes_least_free_id keptSecond .fingerprint shellTag).2 ht
  have htwo : index = 2 := by
    refine hleast.unique ⟨⟨by decide, (hids 2).mpr (by decide)⟩, ?_⟩
    rintro k ⟨hk, hfree⟩
    exact Nat.lt_of_le_of_ne hk (Ne.symm ((hids k).mp hfree))
  have hprefix : "imported-" ++ Nat.repr index ++ "-" = "imported-2-" := by
    rw [htwo]
    decide
  refine ⟨ht, ?_, hd, ((authorRule_takes_least_free_id _ _ _).1 _ hd).1⟩
  have htoken : Assigner.fingerprint.token index shellTag = shellTag.fingerprint := rfl
  rw [ha, hprefix, htoken]
  rfl

end removed

end TaintPolicy
