import Mathlib.Data.List.Induction
import Mathlib.Data.List.Perm.Basic
import TaintPolicy.Policy

/-!
# Compiled gates

Putting entries into a map by key merges those with the same key, and the last of them stays. Where
the keys are distinct none is lost: the map holds the same entries in key order. So the compiled
gates of tools with distinct names are one for each tool.
-/

namespace TaintPolicy

theorem Fields.find?_of_mem {α : Type} {fs : Fields α} (hn : (names fs).Nodup) {f : String × α}
    (hf : f ∈ fs) : find? f.1 fs = some f.2 := by
  induction fs with
  | nil => cases hf
  | cons g fs ih =>
    rw [names_cons, List.nodup_cons] at hn
    rcases List.mem_cons.mp hf with rfl | hm
    · exact find?_cons_self _ _ _
    · have hne : g.1 ≠ f.1 := fun he => hn.1 (he ▸ List.mem_map_of_mem hm)
      rw [find?, if_neg hne, ih hn.2 hm]

theorem Fields.nodup_names_iff_of_perm {α : Type} {fs gs : Fields α} (h : fs.Perm gs) :
    (names fs).Nodup ↔ (names gs).Nodup :=
  List.Perm.nodup_iff (h.map _)

/-- Keys that strictly increase are distinct. -/
theorem Fields.nodup_names_of_pairwise {α : Type} {fs : Fields α}
    (h : fs.Pairwise fun a b => a.1 < b.1) : (names fs).Nodup := by
  apply List.pairwise_map.mpr
  apply h.imp
  intro a b hlt he
  exact String.lt_irrefl _ (he ▸ hlt)

namespace KeyMap

variable {α : Type}

theorem mem_names_insertEntry (name k : String) (v : α) (es : List (String × α)) :
    k ∈ Fields.names (insertEntry name v es) ↔ k = name ∨ k ∈ Fields.names es := by
  rw [← not_iff_not, not_or, ← Fields.find?_eq_none_iff, find?_insertEntry,
    ← Fields.find?_eq_none_iff]
  by_cases hk : name = k
  · simp [hk]
  · simp [hk, Ne.symm hk]

/-- Of the values under one key the last one is in the map. -/
theorem get?_ofList (es : List (String × α)) (k : String) :
    (ofList es).get? k = Fields.find? k es.reverse := by
  induction es using List.reverseRecOn with
  | nil => rfl
  | append_singleton es e ih =>
    have hlast : ofList (es ++ [e]) = (ofList es).insert e.1 e.2 := List.foldl_append
    rw [hlast, get?_insert, ih, List.reverse_append, List.reverse_singleton, List.singleton_append,
      Fields.find?]

/-- A new key is inserted beside the entries that are there. -/
theorem insertEntry_perm {k : String} (v : α) {es : List (String × α)} (h : k ∉ Fields.names es) :
    (insertEntry k v es).Perm ((k, v) :: es) := by
  induction es with
  | nil => exact .refl _
  | cons e es ih =>
    rw [Fields.names_cons, List.mem_cons, not_or] at h
    rw [insertEntry]
    split
    · exact .refl _
    · rw [if_neg h.1]
      exact ((ih h.2).cons e).trans (.swap _ _ _)

theorem entries_ofList_perm {es : List (String × α)} (h : (Fields.names es).Nodup) :
    (ofList es).entries.Perm es := by
  suffices hm : ∀ (es : List (String × α)) (m : KeyMap α), (Fields.names (m.entries ++ es)).Nodup →
      (es.foldl (fun m e => m.insert e.1 e.2) m).entries.Perm (m.entries ++ es) from hm es empty h
  intro es
  induction es with
  | nil => exact fun m _ => .of_eq (List.append_nil _).symm
  | cons e es ih =>
    intro m hn
    have hmid : (e :: (m.entries ++ es)).Perm (m.entries ++ e :: es) := List.perm_middle.symm
    have hn' : (Fields.names (e :: (m.entries ++ es))).Nodup :=
      (Fields.nodup_names_iff_of_perm hmid).mpr hn
    have hnew : e.1 ∉ Fields.names m.entries := by
      intro hm
      rw [Fields.names_cons, List.nodup_cons] at hn'
      exact hn'.1 ((List.sublist_append_left _ _).map _ |>.subset hm)
    have hi : ((m.insert e.1 e.2).entries ++ es).Perm (e :: (m.entries ++ es)) :=
      (insertEntry_perm e.2 hnew).append_right es
    rw [List.foldl_cons]
    exact (ih _ ((Fields.nodup_names_iff_of_perm hi).mpr hn')).trans (hi.trans hmid)

/-- Entries that are in key order already are kept as they are. -/
theorem entries_ofList {es : List (String × α)} (h : es.Pairwise fun a b => a.1 < b.1) :
    (ofList es).entries = es := by
  apply List.Perm.eq_of_pairwise _ (ofList es).sorted h
  · exact entries_ofList_perm (Fields.nodup_names_of_pairwise h)
  · intro a b _ _ hab hba
    exact absurd (String.lt_trans hab hba) (String.lt_irrefl _)

theorem mem_of_mem_ofList {es : List (String × α)} {e : String × α} (h : e ∈ (ofList es).entries) :
    e ∈ es := by
  suffices hm : ∀ (es : List (String × α)) (m : KeyMap α),
      e ∈ (es.foldl (fun m e => m.insert e.1 e.2) m).entries → e ∈ m.entries ∨ e ∈ es by
    simpa using hm es empty h
  intro es
  induction es with
  | nil => exact fun m h => .inl h
  | cons a es ih =>
    intro m h
    rcases ih _ h with h | h
    · rcases mem_insertEntry h with rfl | h
      · exact .inr (by simp)
      · exact .inl h
    · exact .inr (by simp [h])

theorem nodup_names (m : KeyMap α) : (Fields.names m.entries).Nodup :=
  Fields.nodup_names_of_pairwise m.sorted

end KeyMap

section compile

variable {tools : List Selected}

/-- Tools with distinct names each have their gate. -/
theorem entries_compileGates_perm (h : (tools.map Selected.name).Nodup) (honor : Bool) :
    (compileGates honor tools).entries.Perm
      (tools.map fun t => (t.name, if honor then t.gate else .allow)) := by
  apply KeyMap.entries_ofList_perm
  rw [Fields.names, List.map_map]
  exact h

theorem keys_compileGates_perm (h : (tools.map Selected.name).Nodup) (honor : Bool) :
    (compileGates honor tools).keys.Perm (tools.map Selected.name) := by
  have hp := (entries_compileGates_perm h honor).map (·.1)
  rwa [List.map_map] at hp

theorem get?_compileGates (h : (tools.map Selected.name).Nodup) (honor : Bool) {t : Selected}
    (ht : t ∈ tools) :
    (compileGates honor tools).get? t.name = some (if honor then t.gate else .allow) := by
  have hp := entries_compileGates_perm h honor
  exact Fields.find?_of_mem (compileGates honor tools).nodup_names
    (hp.mem_iff.mpr (List.mem_map_of_mem ht))

theorem get?_compileGates_of_notMem {name : String} (h : name ∉ tools.map Selected.name)
    (honor : Bool) : (compileGates honor tools).get? name = none := by
  refine Fields.find?_eq_none_iff.mpr fun hm => h ?_
  obtain ⟨g, hg, rfl⟩ := List.mem_map.mp hm
  obtain ⟨t, ht, rfl⟩ := List.mem_map.mp (KeyMap.mem_of_mem_ofList hg)
  exact List.mem_map_of_mem ht

end compile

end TaintPolicy
