import TaintPolicy.Proofs.Outcome

/-!
# Normal forms

The rules that a reader can produce: no empty text, no predicate without a class, no empty branch of
a condition. Normalizing drops such pieces and nothing else. What is read in either mode is normal,
and the check of a rule's target does not see the difference.
-/

namespace TaintPolicy

/-- The predicates that name a class; no branch where none does. -/
def normalBranch (branch : Option (List Predicate)) : Option (List Predicate) :=
  branch.bind fun ps =>
    match ps.filter fun p => !p.isEmpty with
    | [] => none
    | p :: ps => some (p :: ps)

def LogicPattern.normal (p : LogicPattern) : LogicPattern := ⟨normalBranch p.and, normalBranch p.or⟩

def Pattern.normal : Pattern → Pattern
  | .sequence p => .sequence p
  | .logic p => .logic p.normal

def Rule.normal (r : Rule) : Rule where
  action := r.action
  tool := nonEmpty r.tool
  toolClass := r.toolClass
  tag := nonEmpty r.tag
  forbiddenTags := r.forbiddenTags.filter (· ≠ "")
  error := nonEmpty r.error
  pattern := r.pattern.map Pattern.normal

section branches

theorem normalBranch_some (ps : List Predicate) :
    normalBranch (some ps) =
      if (ps.filter fun p => !p.isEmpty).isEmpty then none
      else some (ps.filter fun p => !p.isEmpty) := by
  simp only [normalBranch, Option.bind_some]
  cases ps.filter fun p => !p.isEmpty <;> rfl

theorem normalBranch_eq_some {branch : Option (List Predicate)} {ps : List Predicate}
    (h : normalBranch branch = some ps) : ps ≠ [] ∧ ∀ p ∈ ps, p.isEmpty = false := by
  obtain ⟨qs, rfl⟩ : ∃ qs, branch = some qs := by
    cases branch with
    | none => cases h
    | some qs => exact ⟨qs, rfl⟩
  rw [normalBranch_some] at h
  split at h
  · cases h
  · next hne =>
    cases h
    exact ⟨by simpa using hne, fun p hp => by simpa using (List.mem_filter.mp hp).2⟩

theorem normalBranch_of_forall {ps : List Predicate} (hne : ps ≠ [])
    (h : ∀ p ∈ ps, p.isEmpty = false) : normalBranch (some ps) = some ps := by
  have hf : ps.filter (fun p => !p.isEmpty) = ps := by
    apply List.filter_eq_self.mpr
    intro p hp
    simp [h p hp]
  rw [normalBranch_some, hf]
  simpa using hne

/-- The entry of a branch holds the predicates of its normal form. -/
theorem getD_normalBranch (branch : Option (List Predicate)) :
    (normalBranch branch).getD [] = entryBranch branch := by
  cases branch with
  | none => rfl
  | some ps =>
    rw [normalBranch_some, entryBranch, Option.getD_some]
    split
    · next h => rw [List.isEmpty_iff.mp h, Option.getD_none]
    · rfl

theorem normalBranch_normalBranch (branch : Option (List Predicate)) :
    normalBranch (normalBranch branch) = normalBranch branch := by
  cases h : normalBranch branch with
  | none => rfl
  | some ps =>
    obtain ⟨hne, hp⟩ := normalBranch_eq_some h
    exact normalBranch_of_forall hne hp

end branches

theorem LogicPattern.normal_normal (p : LogicPattern) : p.normal.normal = p.normal := by
  simp only [normal, normalBranch_normalBranch]

theorem Pattern.normal_normal (p : Pattern) : p.normal.normal = p.normal := by
  cases p with
  | sequence p => rfl
  | logic p => exact congrArg Pattern.logic p.normal_normal

theorem Rule.normal_normal (r : Rule) : r.normal.normal = r.normal := by
  have hp : Pattern.normal ∘ Pattern.normal = Pattern.normal := funext Pattern.normal_normal
  simp only [normal, nonEmpty_nonEmpty, List.filter_filter, Bool.and_self, Option.map_map, hp]

@[simp] theorem Rule.hasTool_normal (r : Rule) : r.normal.hasTool = r.hasTool := by
  simp only [hasTool, normal]
  cases r.tool with
  | none => rfl
  | some s => by_cases h : s = "" <;> simp [nonEmpty, Option.filter, h]

@[simp] theorem Rule.targetDefect?_normal (r : Rule) : r.normal.targetDefect? = r.targetDefect? := by
  have hp : r.normal.pattern.isSome = r.pattern.isSome := Option.isSome_map
  have hc : r.normal.toolClass = r.toolClass := rfl
  rw [targetDefect?, hp, hasTool_normal, hc, targetDefect?]

/-! What is read is normal: each reader drops what normalizing would drop. -/

theorem nonEmpty_firstText? (v : Json) (names : List String) :
    nonEmpty (v.firstText? names) = v.firstText? names := by
  cases h : v.firstText? names with
  | none => rfl
  | some s =>
    obtain ⟨name, -, hs⟩ := List.exists_of_findSome?_eq_some h
    exact nonEmpty_of_ne (of_decide_eq_true (Option.filter_eq_some_iff.mp hs).2)

theorem filter_keepTexts (entries : List Json) :
    (keepTexts entries).filter (· ≠ "") = keepTexts entries := by
  apply List.filter_eq_self.mpr
  intro s hs
  obtain ⟨v, -, hv⟩ := List.mem_filterMap.mp hs
  exact (Option.filter_eq_some_iff.mp hv).2

theorem filter_of_readTags {mode : Mode} {v : Json} {tags : List String}
    (h : readTags mode v = .ok tags) : tags.filter (· ≠ "") = tags := by
  simp only [readTags] at h
  cases hv : v.firstPresent? ["forbidden_tags", "forbiddenTags"] with
  | none => simp only [hv, Except.ok.injEq] at h; rw [← h]; rfl
  | some w =>
    cases hw : w.items? with
    | none =>
      cases mode <;> simp [hv, hw] at h
      rw [h]; rfl
    | some entries =>
      simp only [hv, hw, Except.ok.injEq] at h
      rw [← h, filter_keepTexts]

theorem isEmpty_of_readPredicate {mode : Mode} {v : Json} {p : Predicate}
    (h : readPredicate mode v = .ok (some p)) : p.isEmpty = false := by
  unfold readPredicate at h
  split at h
  · simp at h
  · obtain ⟨session, -, h⟩ := bind_eq_ok.mp h
    obtain ⟨current, -, h⟩ := bind_eq_ok.mp h
    dsimp only at h
    split at h
    · cases mode <;> simp at h
    · next hp =>
      cases h
      exact Bool.eq_false_iff.mpr hp

theorem normalBranch_of_readBranch {mode : Mode} {v : Option Json}
    {branch : Option (List Predicate)} (h : readBranch mode v = .ok branch) :
    normalBranch branch = branch := by
  cases v with
  | none => cases h; rfl
  | some v =>
    simp only [readBranch] at h
    cases hv : v.items? with
    | none => cases mode <;> simp [hv] at h; rw [← h]; rfl
    | some entries =>
      simp only [hv] at h
      obtain ⟨ps, hps, h⟩ := bind_eq_ok.mp h
      cases h
      split
      · rfl
      · next hne =>
        refine normalBranch_of_forall (by simpa using hne) fun p hp => ?_
        obtain ⟨entry, -, hr⟩ := exists_of_mem_collect hps hp
        exact isEmpty_of_readPredicate hr

theorem normal_of_readLogic {mode : Mode} {v : Json} {p : LogicPattern}
    (h : readLogic mode v = .ok (some p)) : p.normal = p := by
  simp only [readLogic] at h
  split at h
  · obtain ⟨condition, -, h⟩ := bind_eq_ok.mp h
    obtain ⟨and, hand, h⟩ := bind_eq_ok.mp h
    obtain ⟨or, hor, h⟩ := bind_eq_ok.mp h
    cases h
    rw [LogicPattern.normal, normalBranch_of_readBranch hand, normalBranch_of_readBranch hor]
  · cases mode <;> simp at h

theorem normal_of_readPattern {mode : Mode} {v : Json} {p : Pattern}
    (h : readPattern mode v = .ok (some p)) : p.normal = p := by
  simp only [readPattern] at h
  split at h
  · obtain ⟨q, -, h⟩ := map_eq_ok.mp h
    obtain ⟨q, -, rfl⟩ := Option.map_eq_some_iff.mp h
    rfl
  · obtain ⟨q, hq, h⟩ := map_eq_ok.mp h
    obtain ⟨q, rfl, rfl⟩ := Option.map_eq_some_iff.mp h
    exact congrArg Pattern.logic (normal_of_readLogic hq)
  · cases mode <;> simp at h

theorem normal_of_readRulePattern {mode : Mode} {v : Json} {p : Option Pattern}
    (h : readRulePattern mode v = .ok p) : p.map Pattern.normal = p := by
  simp only [readRulePattern] at h
  cases p with
  | none => rfl
  | some p =>
    cases hv : v.firstPresent? ["pattern"] with
    | none => simp [hv] at h
    | some w =>
      rw [hv] at h
      exact congrArg some (normal_of_readPattern h)

/-- The parts of a rule that was read, each with the reader it came from. -/
theorem readRule_eq_ok {mode : Mode} {v : Json} {read : ReadRule}
    (h : readRule mode v = .ok (some read)) :
    readAction mode v = .ok (some read.rule.action) ∧
    readOptionalClass mode (v.firstText? ["tool_class", "toolClass"]) = .ok read.rule.toolClass ∧
    readTags mode v = .ok read.rule.forbiddenTags ∧
    readRulePattern mode v = .ok read.rule.pattern ∧
    checkTarget mode read.rule = .ok () ∧
    read.rule.tool = v.firstText? ["tool"] ∧ read.rule.tag = v.firstText? ["tag"] ∧
    read.rule.error = v.firstText? ["error"] := by
  simp only [readRule] at h
  split at h
  · obtain ⟨action, ha, h⟩ := bind_eq_ok.mp h
    cases action with
    | none => cases h
    | some action =>
      obtain ⟨toolClass, hc, h⟩ := bind_eq_ok.mp h
      obtain ⟨forbiddenTags, ht, h⟩ := bind_eq_ok.mp h
      obtain ⟨pattern, hp, h⟩ := bind_eq_ok.mp h
      obtain ⟨_, hd, h⟩ := bind_eq_ok.mp h
      cases h
      exact ⟨ha, hc, ht, hp, hd, rfl, rfl, rfl⟩
  · cases mode <;> simp at h

/-- The id and the source of a rule stand beside it. -/
theorem labels_of_readRule {mode : Mode} {v : Json} {read : ReadRule}
    (h : readRule mode v = .ok (some read)) :
    read.id = v.firstText? ["id"] ∧
      read.source = v.firstText? ["sourceTemplate", "source_template"] := by
  simp only [readRule] at h
  split at h
  · obtain ⟨action, -, h⟩ := bind_eq_ok.mp h
    cases action with
    | none => cases h
    | some action =>
      obtain ⟨toolClass, -, h⟩ := bind_eq_ok.mp h
      obtain ⟨forbiddenTags, -, h⟩ := bind_eq_ok.mp h
      obtain ⟨pattern, -, h⟩ := bind_eq_ok.mp h
      obtain ⟨_, -, h⟩ := bind_eq_ok.mp h
      cases h
      exact ⟨rfl, rfl⟩
  · cases mode <;> simp at h

theorem normal_of_readRule {mode : Mode} {v : Json} {read : ReadRule}
    (h : readRule mode v = .ok (some read)) : read.rule.normal = read.rule := by
  obtain ⟨-, -, ht, hp, -, htool, htag, herror⟩ := readRule_eq_ok h
  have htool' : nonEmpty read.rule.tool = read.rule.tool := by rw [htool, nonEmpty_firstText?]
  have htag' : nonEmpty read.rule.tag = read.rule.tag := by rw [htag, nonEmpty_firstText?]
  have herror' : nonEmpty read.rule.error = read.rule.error := by rw [herror, nonEmpty_firstText?]
  rw [Rule.normal, htool', htag', herror', filter_of_readTags ht, normal_of_readRulePattern hp]

end TaintPolicy
