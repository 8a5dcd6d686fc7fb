import TaintPolicy.Proofs.Session

/-!
# Lists of chosen tools

What adding tools one after the other makes of the list of chosen tools: those that are new, each
name where it occurs first. With distinct names, changing the first tool of a name changes that tool
and no other.
-/

namespace TaintPolicy

section firsts

/-- The tools in their order, each name only where it occurs first. -/
def firstOfEach : List Tool → List Tool
  | [] => []
  | t :: ts => t :: (firstOfEach ts).filter fun u => u.name ≠ t.name

variable {ts : List Tool}

theorem firstOfEach_sublist (ts : List Tool) : (firstOfEach ts).Sublist ts := by
  induction ts with
  | nil => exact .slnil
  | cons t ts ih => exact (List.filter_sublist.trans ih).cons_cons t

theorem mem_names_firstOfEach {name : String} :
    name ∈ (firstOfEach ts).map (·.name) ↔ name ∈ ts.map (·.name) := by
  refine ⟨fun h => ((firstOfEach_sublist ts).map _).subset h, ?_⟩
  induction ts with
  | nil => exact id
  | cons t ts ih =>
    intro h
    rw [firstOfEach, List.map_cons, List.mem_cons]
    by_cases ht : name = t.name
    · exact .inl ht
    · obtain ⟨u, hu, rfl⟩ := List.mem_map.mp (ih ((List.mem_cons.mp h).resolve_left ht))
      exact .inr (List.mem_map_of_mem (List.mem_filter.mpr ⟨hu, decide_eq_true ht⟩))

theorem nodup_names_firstOfEach (ts : List Tool) : ((firstOfEach ts).map (·.name)).Nodup := by
  induction ts with
  | nil => exact List.nodup_nil
  | cons t ts ih =>
    rw [firstOfEach, List.map_cons, List.nodup_cons]
    exact ⟨by simp, (List.filter_sublist.map _).nodup ih⟩

theorem firstOfEach_of_nodup (h : (ts.map (·.name)).Nodup) : firstOfEach ts = ts := by
  induction ts with
  | nil => rfl
  | cons t ts ih =>
    rw [List.map_cons, List.nodup_cons] at h
    rw [firstOfEach, ih h.2, List.filter_eq_self.mpr]
    intro u hu
    exact decide_eq_true fun he => h.1 (he ▸ List.mem_map_of_mem hu)

theorem firstOfEach_append (ts us : List Tool) :
    firstOfEach (ts ++ us) =
      firstOfEach ts ++ (firstOfEach us).filter fun u => u.name ∉ ts.map (·.name) := by
  induction ts with
  | nil => simp [firstOfEach]
  | cons t ts ih =>
    rw [List.cons_append, firstOfEach, ih, List.filter_append, List.filter_filter, firstOfEach,
      List.cons_append]
    congr 3
    funext u
    simp

end firsts

namespace Selection

theorem addTools_append (s : Selection) (ts us : List Tool) :
    s.addTools (ts ++ us) = (s.addTools ts).addTools us :=
  List.foldl_append

/-- Of the tools that are added, the first of each name that is not chosen yet is chosen. -/
theorem tools_addTools (s : Selection) (ts : List Tool) :
    (s.addTools ts).tools =
      s.tools ++ ((firstOfEach ts).filter fun t => t.name ∉ s.toolNames).map (⟨·, .allow⟩) := by
  induction ts generalizing s with
  | nil => simp [addTools, firstOfEach]
  | cons t ts ih =>
    have hstep : s.addTools (t :: ts) = (s.addTool t).2.addTools ts := rfl
    rw [hstep, ih, firstOfEach, List.filter_cons, List.filter_filter]
    by_cases h : t.name ∈ s.toolNames
    · have hfilter : ∀ u ∈ firstOfEach ts, decide (u.name ∉ s.toolNames) =
          (decide (u.name ∉ s.toolNames) && decide (u.name ≠ t.name)) := by
        intro u _
        have hne : u.name ∉ s.toolNames → u.name ≠ t.name := fun hu he => hu (he ▸ h)
        rw [← Bool.decide_and]
        exact decide_eq_decide.mpr (and_iff_left_of_imp hne).symm
      rw [addTool_of_mem h, List.filter_congr hfilter, if_neg (by simpa using h)]
    · have hnames : ({ s with tools := s.tools ++ [⟨t, .allow⟩] } : Selection).toolNames =
          s.toolNames ++ [t.name] := by
        rw [toolNames, List.map_append]
        rfl
      simp [addTool_of_notMem h, hnames, h]

theorem changeFirst_of_nodup {ts : List Selected} (h : (ts.map Selected.name).Nodup)
    (name : String) (change : Selected → Selected) :
    changeFirst name change ts = ts.map fun t => if t.name = name then change t else t := by
  induction ts with
  | nil => rfl
  | cons t ts ih =>
    rw [List.map_cons, List.nodup_cons] at h
    rw [changeFirst, List.map_cons]
    split
    · next ht =>
      have hrest : ∀ u ∈ ts, (if u.name = name then change u else u) = u := by
        intro u hu
        refine if_neg fun he => h.1 ?_
        rw [ht, ← he]
        exact List.mem_map_of_mem hu
      rw [List.map_congr_left hrest, List.map_id']
    · rw [ih h.2]

end Selection

end TaintPolicy
