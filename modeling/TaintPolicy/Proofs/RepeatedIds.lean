import Mathlib.Data.List.Basic
import Mathlib.Data.List.Pairwise
import TaintPolicy.Rule.Identity

/-!
# Repeated ids

One pass over the rules reports each id that several of them share, once, at the rule that repeats
it first. So the reported ids stand in the order of their second occurrences. That is the order in
which they were first seen only where no two ids cross: where one is seen before another, it is
repeated before it too.
-/

namespace TaintPolicy

/-- The id stands at this position for the second time. -/
structure RepeatsAt (ids : List String) (id : String) (k : Nat) : Prop where
  stands : ids[k]? = some id
  once : (ids.take k).count id = 1

namespace RepeatsAt

variable {ids : List String} {id : String} {k l : Nat}

theorem count_take_succ (h : RepeatsAt ids id k) : (ids.take (k + 1)).count id = 2 := by
  rw [List.take_add_one, h.stands, Option.toList_some, List.count_append, h.once,
    List.count_singleton_self]

theorem two_le_count (h : RepeatsAt ids id k) : 2 ≤ ids.count id :=
  h.count_take_succ ▸ (List.take_sublist (k + 1) ids).count_le id

theorem mem (h : RepeatsAt ids id k) : id ∈ ids := List.mem_of_getElem? h.stands

theorem not_lt (h : RepeatsAt ids id k) (h' : RepeatsAt ids id l) : ¬ k < l := by
  intro hlt
  have hle := (List.take_prefix_take_left hlt : ids.take (k + 1) <+: ids.take l).sublist.count_le id
  rw [h.count_take_succ, h'.once] at hle
  omega

theorem unique (h : RepeatsAt ids id k) (h' : RepeatsAt ids id l) : k = l :=
  Nat.le_antisymm (Nat.not_lt.mp (h'.not_lt h)) (Nat.not_lt.mp (h.not_lt h'))

end RepeatsAt

/-- Both ids are repeated, and the first one earlier. -/
def RepeatedBefore (ids : List String) (a b : String) : Prop :=
  ∃ i j, RepeatsAt ids a i ∧ RepeatsAt ids b j ∧ i < j

section pass

variable {seen ss : List String} {id : String}

/-- The rest of a pass reports the ids that it repeats, but for those that were repeated before. -/
theorem mem_repeatedFrom :
    id ∈ repeatedFrom seen ss ↔ seen.count id ≤ 1 ∧ 2 ≤ seen.count id + ss.count id := by
  induction ss generalizing seen with
  | nil =>
    simp only [repeatedFrom, List.not_mem_nil, List.count_nil, false_iff]
    omega
  | cons s ss ih =>
    have hcons : id ∈ repeatedFrom seen (s :: ss) ↔
        (seen.count s = 1 ∧ id = s) ∨ id ∈ repeatedFrom (s :: seen) ss := by
      rw [repeatedFrom]
      split
      · next h => simp [h]
      · next h => simp [h]
    rw [hcons, ih, List.count_cons, List.count_cons]
    by_cases h : s = id
    · subst h
      simp only [beq_self_eq_true, if_true, and_true]
      omega
    · simp only [beq_eq_false_iff_ne.mpr h, Bool.false_eq_true, if_false, Ne.symm h, and_false,
        false_or]
      omega

/-- What the rest of a pass reports is repeated there. -/
theorem exists_repeatsAt_of_mem (h : id ∈ repeatedFrom seen ss) :
    ∃ k, seen.length ≤ k ∧ RepeatsAt (seen.reverse ++ ss) id k := by
  induction ss generalizing seen with
  | nil => cases h
  | cons s ss ih =>
    have hshift : (s :: seen).reverse ++ ss = seen.reverse ++ s :: ss := by simp
    have hrest : id ∈ repeatedFrom (s :: seen) ss →
        ∃ k, seen.length ≤ k ∧ RepeatsAt (seen.reverse ++ s :: ss) id k := by
      intro hm
      obtain ⟨k, hk, hr⟩ := ih hm
      exact ⟨k, Nat.le_of_succ_le hk, hshift ▸ hr⟩
    rw [repeatedFrom] at h
    split at h
    · next hc =>
      rcases List.mem_cons.mp h with rfl | hm
      · exact ⟨seen.length, Nat.le_refl _, by simp, by simpa using hc⟩
      · exact hrest hm
    · exact hrest h

/-- The ids are reported in the order in which they are repeated. -/
theorem repeatedFrom_pairwise (seen ss : List String) :
    (repeatedFrom seen ss).Pairwise (RepeatedBefore (seen.reverse ++ ss)) := by
  induction ss generalizing seen with
  | nil => exact .nil
  | cons s ss ih =>
    have hshift : (s :: seen).reverse ++ ss = seen.reverse ++ s :: ss := by simp
    have hrest := hshift ▸ ih (s :: seen)
    rw [repeatedFrom]
    split
    · next hc =>
      refine List.pairwise_cons.mpr ⟨fun id hm => ?_, hrest⟩
      obtain ⟨k, hk, hr⟩ := exists_repeatsAt_of_mem hm
      exact ⟨seen.length, k, ⟨by simp, by simpa using hc⟩, hshift ▸ hr, hk⟩
    · exact hrest

end pass

namespace RepeatedBefore

variable {ids : List String} {a b : String}

theorem ne (h : RepeatedBefore ids a b) : a ≠ b := by
  rintro rfl
  obtain ⟨i, j, hi, hj, hlt⟩ := h
  exact hi.not_lt hj hlt

theorem iff_lt {i j : Nat} (hi : RepeatsAt ids a i) (hj : RepeatsAt ids b j) :
    RepeatedBefore ids a b ↔ i < j := by
  refine ⟨?_, fun hlt => ⟨i, j, hi, hj, hlt⟩⟩
  rintro ⟨k, l, hk, hl, hlt⟩
  rwa [hi.unique hk, hj.unique hl]

end RepeatedBefore

theorem either_of_pairwise {α : Type} {R : α → α → Prop} {as : List α} (h : as.Pairwise R)
    {a b : α} (ha : a ∈ as) (hb : b ∈ as) (hne : a ≠ b) : R a b ∨ R b a := by
  have hsymm : Std.Symm fun a b => R a b ∨ R b a := ⟨fun _ _ => Or.symm⟩
  have hor : as.Pairwise fun a b => R a b ∨ R b a := h.imp .inl
  exact hor.forall ha hb hne

section rules

variable (rules : List NamedRule)

theorem mem_duplicateIds {id : String} :
    id ∈ duplicateIds rules ↔ 2 ≤ (rules.map (·.id)).count id := by
  rw [duplicateIds, mem_repeatedFrom, List.count_nil, Nat.zero_add]
  exact and_iff_right (Nat.zero_le 1)

theorem duplicateIds_pairwise :
    (duplicateIds rules).Pairwise (RepeatedBefore (rules.map (·.id))) :=
  repeatedFrom_pairwise [] _

/-- The ids are reported in the order in which they are first seen exactly if no two of them
cross. -/
theorem duplicateIds_firstSeen_iff :
    let ids := rules.map (·.id)
    (duplicateIds rules).Pairwise (fun a b => ids.idxOf a < ids.idxOf b) ↔
      ∀ a b i j, RepeatsAt ids a i → RepeatsAt ids b j → ids.idxOf a < ids.idxOf b → i < j := by
  intro ids
  have hp := duplicateIds_pairwise rules
  constructor
  · intro hfirst a b i j hi hj hlt
    have hne : a ≠ b := by
      rintro rfl
      exact Nat.lt_irrefl _ hlt
    have ha := (mem_duplicateIds rules).mpr hi.two_le_count
    have hb := (mem_duplicateIds rules).mpr hj.two_le_count
    -- One of the two is reported before the other, and then it comes first in both orders.
    rcases either_of_pairwise (hp.and hfirst) ha hb hne with ⟨hrep, -⟩ | ⟨-, hback⟩
    · exact (RepeatedBefore.iff_lt hi hj).mp hrep
    · omega
  · intro h
    refine hp.imp fun {a b} hrep => ?_
    have hne := hrep.ne
    obtain ⟨i, j, hi, hj, hlt⟩ := hrep
    refine Nat.lt_of_le_of_ne (Nat.not_lt.mp fun hback => ?_) fun he => ?_
    · exact Nat.lt_asymm hlt (h b a j i hj hi hback)
    · exact hne ((List.idxOf_inj hi.mem).mp he)

end rules

/-- The ids that several rules share are reported, each once, in the order in which they are
repeated. This is the order in which they are first seen exactly if of any two of them the one that
is seen first is repeated first. -/
theorem duplicateIds_follow_repetition (rules : List NamedRule) :
    let ids := rules.map (·.id)
    (∀ id, id ∈ duplicateIds rules ↔ 2 ≤ ids.count id) ∧ (duplicateIds rules).Nodup ∧
    (duplicateIds rules).Pairwise (RepeatedBefore ids) ∧
    ((duplicateIds rules).Pairwise (fun a b => ids.idxOf a < ids.idxOf b) ↔
      ∀ a b i j, RepeatsAt ids a i → RepeatsAt ids b j → ids.idxOf a < ids.idxOf b → i < j) :=
  ⟨fun _ => mem_duplicateIds rules, (duplicateIds_pairwise rules).imp RepeatedBefore.ne,
    duplicateIds_pairwise rules, duplicateIds_firstSeen_iff rules⟩

/-- Four rules, the ids of the outer ones around those of the inner ones. -/
def crossingRules : List NamedRule :=
  ["a", "b", "b", "a"].map fun id => ⟨id, "T", .forTool .addTaint "shell"⟩

theorem crossing_ids_are_turned_around :
    ¬ ∀ rules : List NamedRule, (duplicateIds rules).Pairwise fun a b =>
        (rules.map (·.id)).idxOf a < (rules.map (·.id)).idxOf b := by
  intro hall
  have hreported : duplicateIds crossingRules = ["b", "a"] := by decide
  have hab := hall crossingRules
  rw [hreported, List.pairwise_pair] at hab
  exact absurd hab (by decide)

end TaintPolicy
