/-!
# Fields

Lists of named values. Looking a name up gives its first value; `put` keeps the position of a name
that is already there and replaces its value.
-/

namespace TaintPolicy

/-- Named values, in order. -/
abbrev Fields (α : Type) := List (String × α)

namespace Fields

variable {α β : Type}

def find? (name : String) : Fields α → Option α
  | [] => none
  | f :: fs => if f.1 = name then some f.2 else find? name fs

def put (name : String) (value : α) : Fields α → Fields α
  | [] => [(name, value)]
  | f :: fs => if f.1 = name then (name, value) :: fs else f :: put name value fs

/-- The entries put one after the other. -/
def ofEntries (es : List (String × α)) : Fields α := es.foldl (fun fs e => put e.1 e.2 fs) []

def names (fs : Fields α) : List String := fs.map (·.1)

@[simp] theorem find?_nil (name : String) : find? name ([] : Fields α) = none := rfl

@[simp] theorem find?_cons_self (name : String) (value : α) (fs : Fields α) :
    find? name ((name, value) :: fs) = some value := by
  simp [find?]

theorem find?_cons_of_ne {name other : String} (h : other ≠ name) (value : α) (fs : Fields α) :
    find? name ((other, value) :: fs) = find? name fs := by
  simp [find?, h]

theorem find?_append (name : String) (fs gs : Fields α) :
    find? name (fs ++ gs) = (find? name fs).or (find? name gs) := by
  induction fs with
  | nil => rfl
  | cons f fs ih => by_cases h : f.1 = name <;> simp [find?, h, ih]

theorem find?_put (name : String) (value : α) (fs : Fields α) (x : String) :
    find? x (put name value fs) = if name = x then some value else find? x fs := by
  induction fs with
  | nil => simp [put, find?]
  | cons f fs ih =>
    by_cases h : f.1 = name
    · by_cases hx : name = x <;> simp [put, find?, h, hx]
    · by_cases hx : f.1 = x
      · subst hx
        simp [put, find?, h, Ne.symm h]
      · simp [put, find?, h, hx, ih]

@[simp] theorem names_nil : names ([] : Fields α) = [] := rfl

@[simp] theorem names_cons (f : String × α) (fs : Fields α) : names (f :: fs) = f.1 :: names fs :=
  rfl

theorem find?_eq_none_iff {name : String} {fs : Fields α} :
    find? name fs = none ↔ name ∉ names fs := by
  induction fs with
  | nil => simp
  | cons f fs ih =>
    by_cases h : f.1 = name
    · simp [find?, h]
    · simp [find?, h, Ne.symm h, ih]

theorem put_of_notMem {name : String} {fs : Fields α} (h : name ∉ names fs) (value : α) :
    put name value fs = fs ++ [(name, value)] := by
  induction fs with
  | nil => rfl
  | cons f fs ih =>
    rw [names_cons, List.mem_cons, not_or] at h
    rw [put, if_neg (Ne.symm h.1), ih h.2, List.cons_append]

theorem names_put (name : String) (value : α) (fs : Fields α) :
    names (put name value fs) = if name ∈ names fs then names fs else names fs ++ [name] := by
  induction fs with
  | nil => simp [put]
  | cons f fs ih =>
    by_cases h : f.1 = name
    · simp [put, h]
    · by_cases hm : name ∈ names fs <;> simp [put, h, Ne.symm h, hm, ih]

theorem nodup_names_put {fs : Fields α} (name : String) (value : α) (h : (names fs).Nodup) :
    (names (put name value fs)).Nodup := by
  rw [names_put]
  split
  · exact h
  · next hn =>
    refine List.nodup_append.2 ⟨h, by simp, fun a ha b hb e => hn ?_⟩
    rw [← List.mem_singleton.1 hb, ← e]
    exact ha

theorem mem_of_find? {name : String} {fs : Fields α} {a : α} (h : find? name fs = some a) :
    (name, a) ∈ fs := by
  induction fs with
  | nil => cases h
  | cons f fs ih =>
    rw [find?] at h
    split at h
    · next hname =>
      cases h
      exact hname ▸ List.mem_cons_self
    · exact List.mem_cons_of_mem _ (ih h)

theorem mem_put {name : String} {value : α} {fs : Fields α} {f : String × α}
    (h : f ∈ put name value fs) : f = (name, value) ∨ f ∈ fs := by
  induction fs with
  | nil => exact .inl (List.mem_singleton.mp h)
  | cons g fs ih =>
    rw [put] at h
    split at h
    · exact (List.mem_cons.mp h).imp_right (List.mem_cons_of_mem _)
    · rcases List.mem_cons.mp h with rfl | h
      · exact .inr List.mem_cons_self
      · exact (ih h).imp_right (List.mem_cons_of_mem _)

theorem mem_names_put {name : String} {value : α} {fs : Fields α} {x : String} :
    x ∈ names (put name value fs) ↔ x ∈ names fs ∨ x = name := by
  rw [names_put]
  split
  · next hn => exact (or_iff_left_of_imp fun hx => hx ▸ hn).symm
  · rw [List.mem_append, List.mem_singleton]

section entries

/-! Entries that are put one after the other: each name once, and nothing but what was put. -/

variable {es : List (String × α)}

theorem nodup_names_ofEntries (es : List (String × α)) : (names (ofEntries es)).Nodup :=
  List.foldlRecOn es _ (motive := fun fs => (names fs).Nodup) List.nodup_nil
    fun _ ih e _ => nodup_names_put e.1 e.2 ih

theorem mem_ofEntries {f : String × α} (h : f ∈ ofEntries es) : f ∈ es := by
  refine List.foldlRecOn es _ (motive := fun fs => ∀ f ∈ fs, f ∈ es) (by simp) ?_ f h
  intro fs ih e he f hf
  rcases mem_put hf with rfl | hf
  · exact he
  · exact ih f hf

theorem mem_names_ofEntries {name : String} : name ∈ names (ofEntries es) ↔ name ∈ names es := by
  suffices h : ∀ (es : List (String × α)) (fs : Fields α),
      name ∈ names (es.foldl (fun fs e => put e.1 e.2 fs) fs) ↔ name ∈ names fs ∨ name ∈ names es by
    simpa [ofEntries] using h es []
  intro es
  induction es with
  | nil => simp
  | cons e es ih =>
    intro fs
    rw [List.foldl_cons, ih, mem_names_put, names_cons, List.mem_cons, or_assoc]

end entries

end Fields

end TaintPolicy
