import Mathlib.Tactic.SplitIfs

/-!
# Decimal texts

A natural number is written with digits alone, and an integer with a minus sign in front of them
where it is negative. So each number has a text of its own.
-/

namespace TaintPolicy

section naturals

theorem isDigit_of_mem_toDigits {n : Nat} {c : Char} (h : c ∈ Nat.toDigits 10 n) : c.isDigit :=
  Nat.isDigit_of_mem_toDigits (by decide) (by decide) h

theorem isDigit_of_mem_repr {n : Nat} {c : Char} (h : c ∈ n.repr.toList) : c.isDigit := by
  rw [Nat.toList_repr] at h
  exact isDigit_of_mem_toDigits h

/-- There is at least one digit, and nothing else. -/
theorem exists_toDigits_eq_cons (n : Nat) :
    ∃ c ds, Nat.toDigits 10 n = c :: ds ∧ ∀ d ∈ c :: ds, d.isDigit = true := by
  obtain ⟨c, ds, h⟩ := List.exists_cons_of_ne_nil (Nat.toDigits_ne_nil (b := 10) (n := n))
  exact ⟨c, ds, h, fun d hd => isDigit_of_mem_toDigits (h ▸ hd)⟩

theorem dash_notMem_repr (n : Nat) : '-' ∉ n.repr.toList :=
  fun hm => absurd (isDigit_of_mem_repr hm) (by decide)

theorem natRepr_inj {m n : Nat} (h : m.repr.toList = n.repr.toList) : m = n := by
  rw [Nat.toList_repr, Nat.toList_repr] at h
  simpa using congrArg (Nat.ofDigitChars 10 · 0) h

end naturals

section integers

theorem toList_intRepr (i : Int) :
    i.repr.toList =
      if 0 ≤ i then i.toNat.repr.toList else '-' :: (-i).toNat.repr.toList := by
  rw [Int.repr_eq_if]
  split
  · rfl
  · exact String.toList_append

theorem isDigit_or_of_mem_repr {i : Int} {c : Char} (h : c ∈ i.repr.toList) :
    c.isDigit ∨ c = '-' := by
  rw [toList_intRepr] at h
  split at h
  · exact .inl (isDigit_of_mem_repr h)
  · exact (List.mem_cons.mp h).symm.imp_left isDigit_of_mem_repr

theorem toList_intRepr_ne_nil (i : Int) : i.repr.toList ≠ [] := by
  rw [toList_intRepr]
  split
  · exact fun h => Nat.repr_ne_empty (String.toList_inj.mp h)
  · exact List.cons_ne_nil _ _

/-- The sign and the digits make up the number. -/
theorem intRepr_inj {i j : Int} (h : i.repr.toList = j.repr.toList) : i = j := by
  rw [toList_intRepr, toList_intRepr] at h
  split_ifs at h with hi hj hj
  · have habs := natRepr_inj h
    omega
  · exact absurd (h ▸ List.mem_cons_self) (dash_notMem_repr i.toNat)
  · exact absurd (h ▸ List.mem_cons_self) (dash_notMem_repr j.toNat)
  · have habs := natRepr_inj (List.cons.inj h).2
    omega

end integers

end TaintPolicy
