import TaintPolicy.Proofs.LocalOperations
import TaintPolicy.Proofs.Restoration
import TaintPolicy.Proofs.SavedState
import TaintPolicy.Proofs.VisibleParts

/-!
# Accepted gates

Gating a tool changes the first tool of that name, while of tools with one name the last is
compiled. So where overrides are honored, a gate that was accepted is compiled if the name is chosen
once, and changes nothing if it is chosen more often. No session comes to such a selection, but one
that was saved may be of that kind.
-/

namespace TaintPolicy

theorem Fields.find?_reverse_eq_none_iff {α : Type} {fs : Fields α} {name : String} :
    find? name fs.reverse = none ↔ name ∉ names fs := by
  rw [find?_eq_none_iff, names, List.map_reverse, List.mem_reverse]
  rfl

namespace KeyMap

variable {α : Type} {as bs : List (String × α)} {k : String} {v w : α}

theorem get?_ofList_append_cons (as bs : List (String × α)) (k x : String) (v : α) :
    (ofList (as ++ (k, v) :: bs)).get? x =
      (Fields.find? x bs.reverse).or (if k = x then some v else Fields.find? x as.reverse) := by
  rw [get?_ofList, List.reverse_append, List.reverse_cons, List.append_assoc,
    List.singleton_append, Fields.find?_append, Fields.find?]

/-- Maps in which the same is found under each key are the same. -/
theorem eq_of_get? {m n : KeyMap α} (h : ∀ k, m.get? k = n.get? k) : m = n := by
  have hmem : ∀ {m : KeyMap α} {e : String × α}, e ∈ m.entries ↔ m.get? e.1 = some e.2 :=
    ⟨Fields.find?_of_mem (nodup_names _), Fields.mem_of_find?⟩
  apply eq_of_perm
  refine (List.perm_ext_iff_of_nodup (.of_map _ m.nodup_names) (.of_map _ n.nodup_names)).mpr ?_
  intro e
  rw [hmem, hmem, h]

/-- A value is lost where its key is put again later. -/
theorem ofList_append_cons_of_mem (h : k ∈ Fields.names bs) :
    ofList (as ++ (k, v) :: bs) = ofList (as ++ (k, w) :: bs) := by
  apply eq_of_get?
  intro x
  rw [get?_ofList_append_cons, get?_ofList_append_cons]
  by_cases hx : k = x
  · have hfound : Fields.find? x bs.reverse ≠ none :=
      fun hnone => Fields.find?_reverse_eq_none_iff.mp hnone (hx ▸ h)
    obtain ⟨u, hu⟩ := Option.ne_none_iff_exists'.mp hfound
    rw [hu, Option.some_or, Option.some_or]
  · rw [if_neg hx, if_neg hx]

theorem get?_ofList_append_cons_of_notMem (h : k ∉ Fields.names bs) :
    (ofList (as ++ (k, v) :: bs)).get? k = some v := by
  rw [get?_ofList_append_cons, Fields.find?_reverse_eq_none_iff.mpr h, Option.none_or, if_pos rfl]

end KeyMap

namespace Selection

variable {s : Selection} {name : String} {gate : Gate}

/-- A gate that is accepted is set on the first tool of the name, and on no other. -/
theorem exists_of_setGate (h : (s.setGate name gate).1 = true) :
    ∃ us t vs, s.tools = us ++ t :: vs ∧ t.name = name ∧ name ∉ us.map Selected.name ∧
      (s.setGate name gate).2.tools = us ++ { t with gate } :: vs := by
  obtain ⟨t, ht⟩ := Option.isSome_iff_exists.mp (List.find?_isSome.mpr (List.any_eq_true.mp h))
  obtain ⟨hname, us, vs, htools, hfirst⟩ := List.find?_eq_some_iff_append.mp ht
  have hnot : name ∉ us.map Selected.name := by
    intro hm
    obtain ⟨u, hu, he⟩ := List.mem_map.mp hm
    simpa [he] using hfirst u hu
  have hname := of_decide_eq_true hname
  refine ⟨us, t, vs, htools, hname, hnot, ?_⟩
  rw [setGate, htools, changeFirst_append hnot, changeFirst, if_pos hname]

end Selection

theorem compileGates_append_cons (us vs : List Selected) (t : Selected) :
    compileGates true (us ++ t :: vs) =
      .ofList (shownGates true us ++ (t.name, t.gate) :: shownGates true vs) :=
  congrArg KeyMap.ofList List.map_append

/-- Where overrides are honored, a gate that was accepted is the compiled gate of its name exactly
if that is chosen once or had this gate already; if it is chosen more often, nothing changes in the
compiled policy. What is compiled for other names never changes. -/
theorem accepted_gate_is_compiled_iff {s : Selection} {name : String} {gate : Gate}
    (h : (s.setGate name gate).1 = true) :
    ∃ before after, (s.compile true).policies = [before] ∧
      ((s.setGate name gate).2.compile true).policies = [after] ∧
      (after.gates.get? name = some gate ↔
        s.toolNames.count name = 1 ∨ before.gates.get? name = some gate) ∧
      (s.toolNames.count name ≠ 1 → after = before) ∧
      ∀ other, other ≠ name → after.gates.get? other = before.gates.get? other := by
  obtain ⟨us, t, vs, htools, rfl, hnot, hset⟩ := Selection.exists_of_setGate h
  have hbefore : compileGates true s.tools =
      .ofList (shownGates true us ++ (t.name, t.gate) :: shownGates true vs) := by
    rw [htools, compileGates_append_cons]
  have hafter : compileGates true (s.setGate t.name gate).2.tools =
      .ofList (shownGates true us ++ (t.name, gate) :: shownGates true vs) := by
    rw [hset, compileGates_append_cons]
    rfl
  have hcount : s.toolNames.count t.name = 1 ↔ t.name ∉ Fields.names (shownGates true vs) := by
    rw [names_shownGates, Selection.toolNames, htools, List.map_append, List.count_append,
      List.map_cons, List.count_cons_self, List.count_eq_zero_of_not_mem hnot,
      ← List.count_eq_zero]
    omega
  have hlate : s.toolNames.count t.name ≠ 1 →
      compileGates true (s.setGate t.name gate).2.tools = compileGates true s.tools := by
    intro hc
    rw [hafter, hbefore]
    exact KeyMap.ofList_append_cons_of_mem (not_not.mp (mt hcount.mpr hc))
  refine ⟨⟨policyName s.policyName, compileGates true s.tools, _⟩,
    ⟨policyName s.policyName, compileGates true (s.setGate t.name gate).2.tools, _⟩, rfl, rfl,
    ?_, ?_, ?_⟩
  · by_cases hc : s.toolNames.count t.name = 1
    · rw [hafter, KeyMap.get?_ofList_append_cons_of_notMem (hcount.mp hc)]
      exact iff_of_true rfl (.inl hc)
    · rw [hlate hc, or_iff_right hc]
  · intro hc
    rw [hlate hc]
    rfl
  · intro other hne
    rw [hafter, hbefore, KeyMap.get?_ofList_append_cons, KeyMap.get?_ofList_append_cons,
      if_neg hne.symm, if_neg hne.symm]

theorem accepted_gate_is_compiled_doubled :
    (doubled.setGate "mail" .allow).1 = true ∧
    (∃ after, ((doubled.setGate "mail" .allow).2.compile true).policies = [after] ∧
      after.gates.get? "mail" = some .allow) ∧
    (doubled.setGate "find" .deny).1 = true ∧
    ((doubled.setGate "find" .deny).2.compile true).policies = (doubled.compile true).policies := by
  have hmail : (doubled.setGate "mail" .allow).1 = true := by decide
  have hfind : (doubled.setGate "find" .deny).1 = true := by decide
  obtain ⟨_, after, -, hafter, hgate, -, -⟩ := accepted_gate_is_compiled_iff hmail
  obtain ⟨before, same, hbefore, hsame, -, hlate, -⟩ := accepted_gate_is_compiled_iff hfind
  refine ⟨hmail, ⟨after, hafter, hgate.mpr (.inl (by decide))⟩, hfind, ?_⟩
  rw [hsame, hbefore, hlate (by decide)]

/-- In a selection that was saved, an accepted gate need not be the compiled one. -/
theorem accepted_gate_is_lost :
    ¬ ∀ (saved : Json) (s : Selection) (name : String) (gate : Gate),
        Selection.ofJson? saved = some s → (s.setGate name gate).1 = true →
        ∃ policy, ((s.setGate name gate).2.compile true).policies = [policy] ∧
          policy.gates.get? name = some gate := by
  intro hall
  have hread := Selection.isCodec.read_write doubled
  obtain ⟨policy, hpolicy, hgate⟩ := hall doubled.toJson doubled "find" .deny hread (by decide)
  have hget : (compileGates true (doubled.setGate "find" .deny).2.tools).get? "find" =
      some .allow := by decide
  cases hpolicy
  exact absurd (hget.symm.trans hgate) (by decide)

end TaintPolicy
