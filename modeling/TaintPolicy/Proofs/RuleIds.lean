import Mathlib.Data.List.Nodup
import Mathlib.Data.List.Perm.Subperm
import TaintPolicy.Proofs.DecimalText
import TaintPolicy.Proofs.ReadTemplates
import TaintPolicy.Selection

/-!
# Rule ids

Ids are made of positions in decimal digits. Different positions give different ids, of one template
and of one hand-written rule alike, whatever the name of the template and whatever the tokens are.
So the rules of a template that was read have distinct ids, and the search for a free id finds one.
-/

namespace TaintPolicy

section positions

/-- The position is what stands after the last dash of an id, also where the name of the template
has dashes and digits of its own. -/
theorem templateId_injective : Function.Injective2 templateId := by
  have hdash : "-".toList = ['-'] := rfl
  intro n n' i i' h
  have hl := congrArg String.toList h
  simp only [templateId, String.toList_append, hdash, List.append_assoc, List.singleton_append] at hl
  -- A name that went on beyond the dash of the other id would put a dash among its digits.
  have hend : ∀ (as : List Char) (j j' : Nat), '-' :: j.repr.toList = as ++ '-' :: j'.repr.toList →
      as = [] := by
    intro as j j' ha
    cases as with
    | nil => rfl
    | cons a as =>
      have hm : '-' ∈ j.repr.toList := by
        rw [(List.cons.inj ha).2]
        simp
      exact absurd hm (dash_notMem_repr j)
  rcases List.append_eq_append_iff.mp hl with ⟨as, hn, hd⟩ | ⟨as, hn, hd⟩
  · rw [hend as i i' hd] at hn hd
    exact ⟨String.toList_inj.mp (by simpa using hn.symm), natRepr_inj (List.cons.inj hd).2⟩
  · rw [hend as i' i hd] at hn hd
    exact ⟨String.toList_inj.mp (by simpa using hn), natRepr_inj (List.cons.inj hd).2.symm⟩

/-- The digits of a position end at the first dash. -/
theorem takeWhile_repr (n : Nat) (rest : List Char) :
    (n.repr.toList ++ '-' :: rest).takeWhile (· ≠ '-') = n.repr.toList := by
  have hd : ∀ c ∈ n.repr.toList, decide (c ≠ '-') = true :=
    fun c hc => decide_eq_true fun he => dash_notMem_repr n (he ▸ hc)
  rw [List.takeWhile_append_of_pos hd, List.takeWhile_cons_of_neg (by decide), List.append_nil]

/-- No token can make up for a difference of positions. -/
theorem importedId_inj {assigner : Assigner} {r r' : Rule} {i j : Nat}
    (h : assigner.importedId i r = assigner.importedId j r') : i = j := by
  simp only [Assigner.importedId, String.append_assoc, String.append_right_inj] at h
  have hl := congrArg (fun s => s.toList.takeWhile (· ≠ '-')) h
  have hdash : "-".toList = ['-'] := rfl
  simp only [String.toList_append, hdash, List.singleton_append, takeWhile_repr] at hl
  exact natRepr_inj hl

end positions

section templates

theorem id_of_readTemplateRule {mode : Mode} {template : String} {entry : Json × Nat}
    {named : NamedRule} (h : readTemplateRule mode template entry = .ok (some named)) :
    named.id = templateId template entry.2 := by
  obtain ⟨read, -, hm⟩ := map_eq_ok.mp h
  obtain ⟨r, -, rfl⟩ := Option.map_eq_some_iff.mp hm
  rfl

theorem nodup_positions (vs : List Json) : ((numbered vs).map (·.2)).Nodup := by
  rw [numbered, List.zipIdx_map_snd]
  exact List.nodup_range'

/-- Every rule has its id from its position in the list, and no two have the same position. -/
theorem nodup_ids_of_readTemplate {mode : Mode} {v : Json} {t : Template}
    (hv : readTemplate mode v = .ok (some t)) : (t.rules.map (·.id)).Nodup := by
  obtain ⟨-, -, hc⟩ := readTemplate_eq_ok hv
  have hs := collect_map_sublist (fun _ _ hr => id_of_readTemplateRule hr) hc
  refine hs.nodup ?_
  have hp : (numbered (ruleEntries v)).map (fun entry => templateId t.name entry.2) =
      ((numbered (ruleEntries v)).map (·.2)).map (templateId t.name) := by
    rw [List.map_map]
    rfl
  rw [ruleEntries] at hp
  rw [hp]
  exact (nodup_positions _).map (templateId_injective.right t.name)

theorem Template.IsParsed.nodup_ids {mode : Mode} {t : Template} (h : t.IsParsed mode) :
    (t.rules.map (·.id)).Nodup := by
  obtain ⟨v, hv⟩ := h.exists_readTemplate
  exact nodup_ids_of_readTemplate hv

end templates

namespace Selection

section search

variable {taken : List String} {idAt : Nat → String}

/-- The search ends at an id that is not taken, unless it meets nothing but taken ids. -/
theorem freshIndex_notMem_or (bound index : Nat) :
    idAt (freshIndex taken idAt bound index) ∉ taken ∨ ∀ j ≤ bound, idAt (index + j) ∈ taken := by
  induction bound generalizing index with
  | zero =>
    by_cases h : idAt index ∈ taken
    · refine .inr fun j hj => ?_
      rw [Nat.le_zero.mp hj]
      exact h
    · exact .inl h
  | succ bound ih =>
    rw [freshIndex]
    split
    · next h =>
      refine (ih (index + 1)).imp id fun ha j hj => ?_
      cases j with
      | zero => exact h
      | succ j =>
        have hj' := ha j (by omega)
        rwa [Nat.add_right_comm] at hj'
    · next h => exact .inl h

/-- Among more distinct ids than are taken, the search finds one that is not. -/
theorem freshIndex_notMem (hinj : ∀ i j, idAt i = idAt j → i = j) {bound : Nat}
    (hb : taken.length ≤ bound) (index : Nat) : idAt (freshIndex taken idAt bound index) ∉ taken := by
  rcases @freshIndex_notMem_or taken idAt bound index with h | h
  · exact h
  · let tried := (List.range (bound + 1)).map fun j => idAt (index + j)
    have hn : tried.Nodup := by
      refine List.Nodup.map (fun i j he => ?_) List.nodup_range
      exact Nat.add_left_cancel (hinj _ _ he)
    have hs : tried ⊆ taken := by
      intro id hid
      obtain ⟨j, hj, rfl⟩ := List.mem_map.mp hid
      exact h j (Nat.lt_succ_iff.mp (List.mem_range.mp hj))
    have hl := (hn.subperm hs).length_le
    simp only [tried, List.length_map, List.length_range] at hl
    omega

/-- A rule that is written by hand gets an id that no chosen rule has. -/
theorem id_notMem_of_authorRule {s s' : Selection} {assigner : Assigner} {r : Rule}
    {named : NamedRule} (h : s.authorRule assigner r = .ok (named, s')) :
    named.id ∉ s.ruleIds := by
  simp only [authorRule] at h
  cases hd : r.targetDefect? with
  | some defect => simp [hd] at h
  | none =>
    rw [hd] at h
    cases h
    apply freshIndex_notMem (fun _ _ he => importedId_inj he)
    simp [ruleIds]

end search

end Selection

end TaintPolicy
