import TaintPolicy.Proofs.RuleCodec

/-!
# Canonical patterns

A pattern is canonical when none of its branches is empty and each of its predicates names a class.
Normalizing keeps these patterns and no others, and they are the ones that a reader makes. Between
them and the entries without empty predicates, writing and reading are inverse to each other.
-/

namespace TaintPolicy

/-- There is no branch, or one with predicates that all name a class. -/
def IsCanonicalBranch : Option (List Predicate) → Prop
  | none => True
  | some ps => ps ≠ [] ∧ ∀ p ∈ ps, p.isEmpty = false

def Pattern.IsCanonical : Pattern → Prop
  | .sequence _ => True
  | .logic p => IsCanonicalBranch p.and ∧ IsCanonicalBranch p.or

/-- Every predicate names a class. -/
def EntryPattern.IsMinimal : EntryPattern → Prop
  | .sequence _ => True
  | .logic and or => ∀ p ∈ and ++ or, p.isEmpty = false

section normal

theorem normalBranch_eq_self_iff (branch : Option (List Predicate)) :
    normalBranch branch = branch ↔ IsCanonicalBranch branch := by
  cases branch with
  | none => exact ⟨fun _ => trivial, fun _ => rfl⟩
  | some ps => exact ⟨normalBranch_eq_some, fun h => normalBranch_of_forall h.1 h.2⟩

/-- The canonical patterns are those in normal form. -/
theorem Pattern.normal_eq_self_iff (p : Pattern) : p.normal = p ↔ p.IsCanonical := by
  cases p with
  | sequence p => exact ⟨fun _ => trivial, fun _ => rfl⟩
  | logic p =>
    cases p with
    | mk and or =>
      simp only [normal, LogicPattern.normal, Pattern.logic.injEq, LogicPattern.mk.injEq,
        normalBranch_eq_self_iff, IsCanonical]

/-- An entry holds only what normalizing keeps. -/
theorem entryBranch_normalBranch (branch : Option (List Predicate)) :
    entryBranch (normalBranch branch) = entryBranch branch := by
  rw [← getD_normalBranch, normalBranch_normalBranch, getD_normalBranch]

theorem Pattern.toEntry_normal (p : Pattern) : p.normal.toEntry = p.toEntry := by
  cases p with
  | sequence p => rfl
  | logic p => simp only [normal, LogicPattern.normal, toEntry, entryBranch_normalBranch]

end normal

section entries

theorem entryBranch_some_of_forall {ps : List Predicate} (h : ∀ p ∈ ps, p.isEmpty = false) :
    entryBranch (some ps) = ps := by
  apply List.filter_eq_self.mpr
  intro p hp
  simp [h p hp]

/-- Every entry without empty predicates is the entry of a pattern. -/
theorem EntryPattern.IsMinimal.exists_toEntry_eq {e : EntryPattern} (h : e.IsMinimal) :
    ∃ p : Pattern, p.toEntry = e := by
  cases e with
  | sequence p => exact ⟨.sequence p, rfl⟩
  | logic and or =>
    obtain ⟨hand, hor⟩ := List.forall_mem_append.mp h
    refine ⟨.logic ⟨some and, some or⟩, ?_⟩
    rw [Pattern.toEntry, entryBranch_some_of_forall hand, entryBranch_some_of_forall hor]

end entries

/-- Reading an entry gives the normal form of the pattern that it was written from, which is that
pattern exactly if it is canonical. An entry without empty predicates is the entry of the pattern
that it is read as. Whatever is read is canonical, so that it comes back from its own entry. -/
theorem reading_inverts_entries :
    (∀ mode (p : Pattern),
      readPattern mode p.toEntry.toJson = .ok (some p.normal) ∧
      (readPattern mode p.toEntry.toJson = .ok (some p) ↔ p.IsCanonical)) ∧
    (∀ mode (e : EntryPattern), e.IsMinimal →
      ∃ p, readPattern mode e.toJson = .ok (some p) ∧ p.toEntry = e) ∧
    ∀ mode v p, readPattern mode v = .ok (some p) →
      p.IsCanonical ∧ ∀ mode', readPattern mode' p.toEntry.toJson = .ok (some p) := by
  refine ⟨fun mode p => ?_, fun mode e he => ?_, fun mode v p h => ?_⟩
  · have hr := readPattern_toEntry mode p
    refine ⟨hr, ?_⟩
    rw [hr, Except.ok.injEq, Option.some.injEq, Pattern.normal_eq_self_iff]
  · obtain ⟨p, rfl⟩ := he.exists_toEntry_eq
    exact ⟨p.normal, readPattern_toEntry mode p, p.toEntry_normal⟩
  · have hn := normal_of_readPattern h
    refine ⟨p.normal_eq_self_iff.mp hn, fun mode' => ?_⟩
    rw [readPattern_toEntry, hn]

/-- A condition in an older spelling, with a `null` and an empty branch. -/
def spareCondition : Json :=
  .obj [("type", .str "logic"), ("condition", .obj [
    ("and", .arr [.null, .obj [("sessionHasClass", .str "SENSITIVE_READ")]]), ("OR", .arr [])])]

theorem reading_inverts_entries_spare :
    EntryPattern.IsMinimal (.logic [⟨some .sensitiveRead, none⟩] []) ∧
    (∃ p, readPattern .strict (EntryPattern.logic [⟨some .sensitiveRead, none⟩] []).toJson =
        .ok (some p) ∧ p.toEntry = .logic [⟨some .sensitiveRead, none⟩] []) ∧
    readPattern .strict spareCondition =
      .ok (some (.logic ⟨some [⟨some .sensitiveRead, none⟩], none⟩)) ∧
    Pattern.IsCanonical (.logic ⟨some [⟨some .sensitiveRead, none⟩], none⟩) := by
  have hm : EntryPattern.IsMinimal (.logic [⟨some .sensitiveRead, none⟩] []) := by
    simp [EntryPattern.IsMinimal, Predicate.isEmpty]
  have hr : readPattern .strict spareCondition =
      .ok (some (.logic ⟨some [⟨some .sensitiveRead, none⟩], none⟩)) := rfl
  exact ⟨hm, reading_inverts_entries.2.1 .strict _ hm, hr,
    (reading_inverts_entries.2.2 .strict _ _ hr).1⟩

end TaintPolicy
