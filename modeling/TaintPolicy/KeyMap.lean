import TaintPolicy.Fields

/-!
# Maps with text keys in key order

A list of entries whose keys strictly increase by code point, so that two maps with the same entries
are equal. Inserting a key that is present replaces its value.
-/

namespace TaintPolicy

structure KeyMap (α : Type) where
  entries : List (String × α)
  sorted : entries.Pairwise fun a b => a.1 < b.1

namespace KeyMap

variable {α β : Type}

@[ext] theorem ext {m n : KeyMap α} (h : m.entries = n.entries) : m = n := by
  cases m; cases n; cases h; rfl

instance [DecidableEq α] : DecidableEq (KeyMap α) := fun m n =>
  decidable_of_iff (m.entries = n.entries) ⟨ext, fun h => h ▸ rfl⟩

def empty : KeyMap α := ⟨[], .nil⟩

instance : Inhabited (KeyMap α) := ⟨empty⟩

def keys (m : KeyMap α) : List String := m.entries.map (·.1)

def get? (m : KeyMap α) (k : String) : Option α := Fields.find? k m.entries

def insertEntry (k : String) (v : α) : List (String × α) → List (String × α)
  | [] => [(k, v)]
  | e :: es =>
    if k < e.1 then (k, v) :: e :: es
    else if k = e.1 then (k, v) :: es
    else e :: insertEntry k v es

theorem mem_insertEntry {k : String} {v : α} {es : List (String × α)} {e : String × α}
    (h : e ∈ insertEntry k v es) : e = (k, v) ∨ e ∈ es := by
  induction es with
  | nil => simpa [insertEntry] using h
  | cons a es ih =>
    simp only [insertEntry] at h
    split at h
    · simpa using h
    · split at h
      · rcases List.mem_cons.1 h with h | h
        · exact .inl h
        · exact .inr (List.mem_cons_of_mem _ h)
      · rcases List.mem_cons.1 h with h | h
        · exact .inr (h ▸ List.mem_cons_self)
        · exact (ih h).imp id (List.mem_cons_of_mem _)

theorem sorted_insertEntry (k : String) (v : α) {es : List (String × α)}
    (h : es.Pairwise fun a b => a.1 < b.1) :
    (insertEntry k v es).Pairwise fun a b => a.1 < b.1 := by
  induction es with
  | nil => simp [insertEntry]
  | cons a es ih =>
    rw [List.pairwise_cons] at h
    simp only [insertEntry]
    split
    · next hk =>
      refine List.pairwise_cons.2 ⟨fun b hb => ?_, List.pairwise_cons.2 h⟩
      rcases List.mem_cons.1 hb with rfl | hb
      · exact hk
      · exact String.lt_trans hk (h.1 b hb)
    · split
      · next hk => exact List.pairwise_cons.2 ⟨fun b hb => hk ▸ h.1 b hb, h.2⟩
      · next hlt hne =>
        refine List.pairwise_cons.2 ⟨fun b hb => ?_, ih h.2⟩
        rcases mem_insertEntry hb with rfl | hb
        · exact String.not_le.1 fun hle => hne (String.le_antisymm hle (String.not_lt.1 hlt))
        · exact h.1 b hb

def insert (m : KeyMap α) (k : String) (v : α) : KeyMap α :=
  ⟨insertEntry k v m.entries, sorted_insertEntry k v m.sorted⟩

/-- Later entries replace earlier ones with the same key. -/
def ofList (es : List (String × α)) : KeyMap α :=
  es.foldl (fun m e => m.insert e.1 e.2) empty

@[simp] theorem entries_empty : (empty : KeyMap α).entries = [] := rfl

@[simp] theorem entries_insert (m : KeyMap α) (k : String) (v : α) :
    (m.insert k v).entries = insertEntry k v m.entries := rfl

theorem find?_insertEntry (k : String) (v : α) (es : List (String × α)) (x : String) :
    Fields.find? x (insertEntry k v es) = if k = x then some v else Fields.find? x es := by
  induction es with
  | nil => simp [insertEntry, Fields.find?]
  | cons a es ih =>
    simp only [insertEntry]
    split
    · simp [Fields.find?]
    · split
      · next hk => by_cases hx : k = x <;> simp [Fields.find?, hx, ← hk]
      · next hne =>
        by_cases hx : a.1 = x
        · subst hx; simp [Fields.find?, hne]
        · simp [Fields.find?, ih, hx]

theorem get?_insert (m : KeyMap α) (k : String) (v : α) (x : String) :
    (m.insert k v).get? x = if k = x then some v else m.get? x :=
  find?_insertEntry k v m.entries x

end KeyMap

end TaintPolicy
