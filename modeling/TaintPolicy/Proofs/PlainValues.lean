import Mathlib.Logic.Basic
import TaintPolicy.Json.Basic

/-!
# Plain values

The kind of JSON that policy files are made of, and conditions on all the texts of a value.
-/

namespace TaintPolicy.Json

/-- Texts, counts, lists of such values and objects with distinct names, nested at most so deep. -/
inductive IsPlain : Nat → Json → Prop
  | str {depth : Nat} (s : String) : IsPlain depth (str s)
  | count {depth : Nat} (n : UInt64) : IsPlain depth (ofWord n)
  | arr {depth : Nat} {vs : List Json} : (∀ v ∈ vs, IsPlain depth v) → IsPlain (depth + 1) (arr vs)
  | obj {depth : Nat} {fs : Fields Json} : (Fields.names fs).Nodup →
    (∀ f ∈ fs, IsPlain depth f.2) → IsPlain (depth + 1) (obj fs)

section every

variable (text name : String → Prop)

mutual

/-- Conditions hold for all texts and for all names of fields in the value. -/
def Every : Json → Prop
  | str s => text s
  | arr vs => EveryItem vs
  | obj fs => EveryField fs
  | _ => True

def EveryItem : List Json → Prop
  | [] => True
  | v :: vs => Every v ∧ EveryItem vs

def EveryField : List (String × Json) → Prop
  | [] => True
  | (k, v) :: fs => name k ∧ Every v ∧ EveryField fs

end

variable {text name} {text' name' : String → Prop}

theorem everyItem_iff {vs : List Json} :
    EveryItem text name vs ↔ ∀ v ∈ vs, Every text name v := by
  induction vs with
  | nil => simp [EveryItem]
  | cons v vs ih => rw [EveryItem, ih, List.forall_mem_cons]

theorem everyField_iff {fs : List (String × Json)} :
    EveryField text name fs ↔ ∀ f ∈ fs, name f.1 ∧ Every text name f.2 := by
  induction fs with
  | nil => simp [EveryField]
  | cons f fs ih =>
    obtain ⟨k, v⟩ := f
    rw [EveryField, ih, List.forall_mem_cons, and_assoc]

/-- Conditions hold for a value if they hold for any text and any name. -/
theorem IsPlain.every {depth : Nat} {v : Json} (h : v.IsPlain depth) (ht : ∀ s, text s)
    (hn : ∀ k, name k) : v.Every text name := by
  induction h with
  | str s => exact ht s
  | count n => trivial
  | arr _ ih => exact everyItem_iff.mpr ih
  | obj _ _ ih => exact everyField_iff.mpr fun f hf => ⟨hn f.1, ih f hf⟩

theorem IsPlain.every_imp {depth : Nat} {v : Json} (h : v.IsPlain depth)
    (ht : ∀ s, text s → text' s) (hn : ∀ k, name k → name' k) (hv : v.Every text name) :
    v.Every text' name' := by
  induction h with
  | str s => exact ht s hv
  | count n => trivial
  | arr _ ih =>
    have hv := everyItem_iff.mp hv
    exact everyItem_iff.mpr fun v hm => ih v hm (hv v hm)
  | obj _ _ ih =>
    have hv := everyField_iff.mp hv
    exact everyField_iff.mpr fun f hf => ⟨hn f.1 (hv f hf).1, ih f hf (hv f hf).2⟩

theorem IsPlain.every_and_iff {depth : Nat} {v : Json} (h : v.IsPlain depth) :
    v.Every (fun s => text s ∧ text' s) (fun k => name k ∧ name' k) ↔
      v.Every text name ∧ v.Every text' name' := by
  induction h with
  | str s => exact Iff.rfl
  | count n => exact (and_self_iff (a := True)).symm
  | arr _ ih =>
    simp only [Every, everyItem_iff]
    rw [← forall₂_and]
    exact forall₂_congr ih
  | obj _ _ ih =>
    simp only [Every, everyField_iff]
    rw [← forall₂_and]
    refine forall₂_congr fun f hf => ?_
    rw [ih f hf]
    exact and_and_and_comm

end every

end TaintPolicy.Json
