import Mathlib.Data.List.InsertIdx
import TaintPolicy.Proofs.Session

/-!
# Moved tools

A tool that is moved is taken out and put back in at the place of another one. That place is looked
up before the tool is taken out, while later tools still stand one further; all the same the tool
comes to stand exactly there, whether it moves to the left, to the right or nowhere, and the others
stay in their order. The move is undone by moving the tool to the one that now stands in its old
place.
-/

namespace TaintPolicy

section moves

variable {α : Type} {as bs cs : List α} {i j : Nat} {a : α}

/-- The second list is the first with its entry at `i` taken out and put back in at `j`. -/
structure IsMove (i j : Nat) (as bs : List α) : Prop where
  lands : bs[j]? = as[i]?
  others : bs.eraseIdx j = as.eraseIdx i

theorem IsMove.symm (h : IsMove i j as bs) : IsMove j i bs as := ⟨h.lands.symm, h.others.symm⟩

/-- Both places are places of the list, and the second is one after the entry is taken out too. -/
theorem le_length_eraseIdx (hi : i < as.length) (hj : j < as.length) :
    j ≤ (as.eraseIdx i).length := by
  rw [List.length_eraseIdx_of_lt hi]
  exact Nat.le_sub_one_of_lt hj

theorem isMove_insertIdx (hi : as[i]? = some a) (hj : j < as.length) :
    IsMove i j as ((as.eraseIdx i).insertIdx j a) where
  lands := by
    obtain ⟨hlt, -⟩ := List.getElem?_eq_some_iff.mp hi
    rw [List.getElem?_insertIdx_self, if_pos (le_length_eraseIdx hlt hj), hi]
  others := List.eraseIdx_insertIdx_self a

/-- What a move leads to is made of the entry and of the others. -/
theorem IsMove.eq_insertIdx (h : IsMove i j as bs) (hi : as[i]? = some a) :
    bs = (as.eraseIdx i).insertIdx j a := by
  obtain ⟨hlt, rfl⟩ := List.getElem?_eq_some_iff.mp (h.lands.trans hi)
  rw [← h.others]
  exact (List.insertIdx_eraseIdx_getElem hlt).symm

end moves

namespace Selection

variable {s : Selection} {i j : Nat} {t u : Selected}

theorem findIdx?_of_nodup {ts : List Selected} (hn : (ts.map Selected.name).Nodup)
    (hi : ts[i]? = some t) : ts.findIdx? (fun u => u.name = t.name) = some i := by
  obtain ⟨hlt, rfl⟩ := List.getElem?_eq_some_iff.mp hi
  refine List.findIdx?_eq_some_iff_getElem.mpr ⟨hlt, decide_eq_true rfl, fun k hk he => ?_⟩
  have hname : (ts.map Selected.name)[k]? = (ts.map Selected.name)[i]? := by
    rw [List.getElem?_map, List.getElem?_map, List.getElem?_eq_getElem (Nat.lt_trans hk hlt),
      List.getElem?_eq_getElem hlt]
    exact congrArg some (of_decide_eq_true he)
  have hlt' : k < (ts.map Selected.name).length := by
    rw [List.length_map]
    exact Nat.lt_trans hk hlt
  exact Nat.ne_of_lt hk ((List.getElem?_inj hlt' hn).mp hname)

theorem reorderTool_of_getElem? (hn : s.toolNames.Nodup) (hi : s.tools[i]? = some t)
    (hj : s.tools[j]? = some u) :
    s.reorderTool t.name u.name =
      (true, { s with tools := (s.tools.eraseIdx i).insertIdx j t }) := by
  rw [reorderTool, findIdx?_of_nodup hn hi, findIdx?_of_nodup hn hj]
  dsimp only
  rw [hi]

/-- A move is undone by moving the tool to the one that stands in its old place. -/
theorem reorderTool_back {after : List Selected} (hn : (after.map Selected.name).Nodup)
    (h : IsMove i j s.tools after) (hi : s.tools[i]? = some t) (hback : after[i]? = some u) :
    Selection.reorderTool { s with tools := after } t.name u.name = (true, s) := by
  have ht : after[j]? = some t := h.lands.trans hi
  rw [reorderTool_of_getElem? (s := { s with tools := after }) hn ht hback,
    ← h.symm.eq_insertIdx ht]

theorem reorderTool_of_notMem {name target : String}
    (h : name ∉ s.toolNames ∨ target ∉ s.toolNames) : s.reorderTool name target = (false, s) := by
  have hnone : ∀ {name}, name ∉ s.toolNames → s.tools.findIdx? (fun t => t.name = name) = none := by
    intro name hm
    refine List.findIdx?_eq_none_iff.mpr fun t ht => decide_eq_false fun he => hm ?_
    exact he ▸ List.mem_map_of_mem ht
  rw [reorderTool]
  rcases h with h | h
  · rw [hnone h]
  · rw [hnone h]
    split
    · next hj => cases hj
    · rfl

/-- A chosen name stands at some place. -/
theorem exists_getElem?_of_mem {name : String} (h : name ∈ s.toolNames) :
    ∃ (i : Nat) (t : Selected), s.tools[i]? = some t ∧ t.name = name := by
  obtain ⟨t, ht, hname⟩ := List.mem_map.mp h
  obtain ⟨i, hi⟩ := List.mem_iff_getElem?.mp ht
  exact ⟨i, t, hi, hname⟩

end Selection

/-- With distinct names, a chosen tool that is moved to a chosen one comes to stand, with its gate
and its classes, where that one stood; both places are within the lists that they are used in; the
other tools stay in their order, none is lost or repeated, and nothing but the tools changes. Moving
the tool to the one that then stands in its old place brings the selection back. If one of the two
is not chosen, the move is refused and nothing changes. -/
theorem reorderTool_moves_to_target {s : Selection} (hn : s.toolNames.Nodup)
    (name target : String) :
    (name ∈ s.toolNames → target ∈ s.toolNames → ∃ i j after,
      s.toolNames[i]? = some name ∧ s.toolNames[j]? = some target ∧
      i < s.tools.length ∧ j ≤ (s.tools.eraseIdx i).length ∧
      s.reorderTool name target = (true, { s with tools := after }) ∧
      IsMove i j s.tools after ∧ after.Perm s.tools ∧
      ∃ back, after[i]? = some back ∧
        Selection.reorderTool { s with tools := after } name back.name = (true, s)) ∧
    (name ∉ s.toolNames ∨ target ∉ s.toolNames → s.reorderTool name target = (false, s)) := by
  refine ⟨fun hname htarget => ?_, Selection.reorderTool_of_notMem⟩
  obtain ⟨i, t, hi, rfl⟩ := Selection.exists_getElem?_of_mem hname
  obtain ⟨j, u, hj, rfl⟩ := Selection.exists_getElem?_of_mem htarget
  obtain ⟨hilt, -⟩ := List.getElem?_eq_some_iff.mp hi
  obtain ⟨hjlt, -⟩ := List.getElem?_eq_some_iff.mp hj
  have hmoved := Selection.reorderTool_of_getElem? hn hi hj
  have hmove := isMove_insertIdx hi hjlt
  have hperm := s.tools_reorderTool_perm t.name u.name
  rw [hmoved] at hperm
  have hn' : (((s.tools.eraseIdx i).insertIdx j t).map Selected.name).Nodup :=
    (hperm.map Selected.name).nodup_iff.mpr hn
  have hback := List.getElem?_eq_getElem (hperm.length_eq ▸ hilt)
  exact ⟨i, j, _, by simp [Selection.toolNames, hi], by simp [Selection.toolNames, hj], hilt,
    le_length_eraseIdx hilt hjlt, hmoved, hmove, hperm, _, hback,
    Selection.reorderTool_back hn' hmove hi hback⟩

section lineup

/-! Four tools, the first of which is denied and moves to the third. -/

def lineup : Selection where
  policyName := "p"
  tools := [⟨.ofClass "read" .sensitiveRead "", .deny⟩, ⟨.ofClass "mail" .safeWrite "", .allow⟩,
    ⟨.ofClass "find" .safeRead "", .allow⟩, ⟨.ofClass "shell" .unsafeExecute "", .allow⟩]

theorem reorderTool_moves_to_target_lineup :
    lineup.toolNames.Nodup ∧ "read" ∈ lineup.toolNames ∧ "find" ∈ lineup.toolNames ∧
    (lineup.reorderTool "read" "find").2.toolNames = ["mail", "find", "read", "shell"] ∧
    (lineup.reorderTool "read" "find").2.tools[2]? = lineup.tools[0]? ∧
    (lineup.reorderTool "read" "find").2.reorderTool "read" "mail" = (true, lineup) ∧
    "grep" ∉ lineup.toolNames ∧ lineup.reorderTool "read" "grep" = (false, lineup) := by
  have hn : lineup.toolNames.Nodup := by decide
  have hread : "read" ∈ lineup.toolNames := by decide
  have hfind : "find" ∈ lineup.toolNames := by decide
  have hgrep : "grep" ∉ lineup.toolNames := by decide
  refine ⟨hn, hread, hfind, by decide, by decide, ?_, hgrep,
    (reorderTool_moves_to_target hn "read" "grep").2 (.inr hgrep)⟩
  obtain ⟨i, j, after, hi, -, -, -, hmoved, -, -, back, hback, hreturn⟩ :=
    (reorderTool_moves_to_target hn "read" "find").1 hread hfind
  have hfirst : i = 0 := ((List.getElem?_inj (by decide) hn).mp (hi.trans rfl).symm).symm
  have hafter : after = (lineup.reorderTool "read" "find").2.tools := by rw [hmoved]
  have hmail : back.name = "mail" := by
    rw [hfirst, hafter] at hback
    cases hback
    rfl
  rw [hmoved]
  exact hmail ▸ hreturn

end lineup

end TaintPolicy
