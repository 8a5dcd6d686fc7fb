import Mathlib.Data.List.Forall2
import TaintPolicy.Template

/-!
# Outcomes of readers

How a reader that is put together from smaller ones succeeds: each part does, and the results of the
parts make the result of the whole.
-/

namespace TaintPolicy

variable {α β ε : Type}

@[simp] theorem ok_bind (a : α) (next : α → Except ε β) : (Except.ok a >>= next) = next a := rfl

@[simp] theorem error_bind (e : ε) (next : α → Except ε β) :
    (Except.error e >>= next) = .error e := rfl

@[simp] theorem map_ok (f : α → β) (a : α) : (Except.ok a : Except ε α).map f = .ok (f a) := rfl

@[simp] theorem map_error (f : α → β) (e : ε) :
    (Except.error e : Except ε α).map f = .error e := rfl

theorem bind_eq_ok {x : Except ε α} {next : α → Except ε β} {b : β} :
    (x >>= next) = .ok b ↔ ∃ a, x = .ok a ∧ next a = .ok b := by
  cases x with
  | error e => simp
  | ok a => simp

theorem map_eq_ok {x : Except ε α} {f : α → β} {b : β} :
    x.map f = .ok b ↔ ∃ a, x = .ok a ∧ f a = b := by
  cases x with
  | error e => simp
  | ok a => simp

theorem collect_cons_eq_ok {read : α → Except Fault (Option β)} {a : α} {as : List α}
    {pieces : List β} :
    collect read (a :: as) = .ok pieces ↔
      ∃ piece rest, read a = .ok piece ∧ collect read as = .ok rest ∧
        pieces = piece.toList ++ rest := by
  constructor
  · intro h
    cases hr : read a with
    | error fault => simp [collect, hr] at h
    | ok piece =>
      cases hc : collect read as with
      | error fault => simp [collect, hr, hc] at h
      | ok rest =>
        rw [collect_cons_ok hr hc] at h
        exact ⟨piece, rest, rfl, rfl, (Except.ok.inj h).symm⟩
  · rintro ⟨piece, rest, hr, hc, rfl⟩
    exact collect_cons_ok hr hc

/-- What is collected was read from one of the entries. -/
theorem exists_of_mem_collect {read : α → Except Fault (Option β)} {as : List α} {pieces : List β}
    (h : collect read as = .ok pieces) {b : β} (hb : b ∈ pieces) :
    ∃ a ∈ as, read a = .ok (some b) := by
  induction as generalizing pieces with
  | nil => cases h; simp at hb
  | cons a as ih =>
    obtain ⟨piece, rest, hr, hc, rfl⟩ := collect_cons_eq_ok.mp h
    rcases List.mem_append.mp hb with hb | hb
    · rw [Option.mem_toList] at hb
      exact ⟨a, by simp, by rw [hr, Option.mem_def.mp hb]⟩
    · obtain ⟨a', ha, hr'⟩ := ih hc hb
      exact ⟨a', by simp [ha], hr'⟩

/-- A mark that each piece shares with its entry occurs in the order of the entries. -/
theorem collect_map_sublist {γ : Type} {read : α → Except Fault (Option β)} {f : β → γ} {g : α → γ}
    (hfg : ∀ a b, read a = .ok (some b) → f b = g a) {as : List α} {pieces : List β}
    (h : collect read as = .ok pieces) : (pieces.map f).Sublist (as.map g) := by
  induction as generalizing pieces with
  | nil => cases h; exact .slnil
  | cons a as ih =>
    obtain ⟨piece, rest, hr, hc, rfl⟩ := collect_cons_eq_ok.mp h
    cases piece with
    | none => exact (ih hc).cons _
    | some b =>
      have hb := hfg a b hr
      simpa [hb] using ih hc

/-- What holds of the pieces of any two entries in their order holds of all pieces in theirs. -/
theorem collect_pairwise {R : α → α → Prop} {S : β → β → Prop}
    {read : α → Except Fault (Option β)} {as : List α} {pieces : List β}
    (hS : ∀ a ∈ as, ∀ a' ∈ as, R a a' → ∀ b b', read a = .ok (some b) → read a' = .ok (some b') →
      S b b') (hR : as.Pairwise R) (h : collect read as = .ok pieces) : pieces.Pairwise S := by
  induction as generalizing pieces with
  | nil => cases h; exact .nil
  | cons a as ih =>
    obtain ⟨piece, rest, hr, hc, rfl⟩ := collect_cons_eq_ok.mp h
    obtain ⟨hhead, htail⟩ := List.pairwise_cons.mp hR
    have hrest : rest.Pairwise S :=
      ih (fun x hx y hy => hS x (by simp [hx]) y (by simp [hy])) htail hc
    cases piece with
    | none => exact hrest
    | some b =>
      refine List.pairwise_cons.mpr ⟨fun b' hb' => ?_, hrest⟩
      obtain ⟨a', ha', hr'⟩ := exists_of_mem_collect hc hb'
      exact hS a (by simp) a' (by simp [ha']) (hhead a' ha') b b' hr hr'

/-- Where each entry tells whether a piece is made of it, those of which one is made stand beside
their pieces. -/
theorem collect_forall₂ {read : α → Except Fault (Option β)} {keep : α → Bool}
    (hk : ∀ a piece, read a = .ok piece → piece.isSome = keep a) {as : List α} {pieces : List β}
    (h : collect read as = .ok pieces) :
    List.Forall₂ (fun a b => read a = .ok (some b)) (as.filter keep) pieces := by
  induction as generalizing pieces with
  | nil => cases h; exact .nil
  | cons a as ih =>
    obtain ⟨piece, rest, hr, hc, rfl⟩ := collect_cons_eq_ok.mp h
    have hp := hk a piece hr
    cases piece with
    | none =>
      rw [List.filter_cons_of_neg (by simp [← hp])]
      exact ih hc
    | some b =>
      rw [List.filter_cons_of_pos (by simp [← hp])]
      exact .cons hr (ih hc)

/-- Where each entry tells which piece is made of it, so do all entries. -/
theorem eq_filterMap_of_collect {read : α → Except Fault (Option β)} {f : α → Option β}
    (hf : ∀ a piece, read a = .ok piece → piece = f a) {as : List α} {pieces : List β}
    (h : collect read as = .ok pieces) : pieces = as.filterMap f := by
  induction as generalizing pieces with
  | nil => cases h; rfl
  | cons a as ih =>
    obtain ⟨piece, rest, hr, hc, rfl⟩ := collect_cons_eq_ok.mp h
    rw [hf a piece hr, ih hc, List.filterMap_cons]
    cases f a <;> rfl

theorem collect_map_eq {γ : Type} (read : α → Except Fault (Option β)) (f : γ → α) (cs : List γ) :
    collect read (cs.map f) = collect (fun c => read (f c)) cs := by
  induction cs with
  | nil => rfl
  | cons c cs ih => simp only [List.map_cons, collect, ih]

/-- What is collected from written pieces, each of which is read as `f` says. -/
theorem collect_map {γ : Type} {read : α → Except Fault (Option β)} {write : γ → α}
    (f : γ → Option β) {cs : List γ} (h : ∀ c ∈ cs, read (write c) = .ok (f c)) :
    collect read (cs.map write) = .ok (cs.filterMap f) := by
  induction cs with
  | nil => rfl
  | cons c cs ih =>
    have hr := h c (by simp)
    have hc := ih fun c' hc' => h c' (by simp [hc'])
    rw [List.map_cons, collect_cons_ok hr hc, List.filterMap_cons]
    cases f c <;> rfl

/-- Nothing is dropped where every written piece can be read. -/
theorem collect_map_some {γ : Type} {read : α → Except Fault (Option β)} {write : γ → α}
    (f : γ → β) {cs : List γ} (h : ∀ c ∈ cs, read (write c) = .ok (some (f c))) :
    collect read (cs.map write) = .ok (cs.map f) := by
  rw [collect_map (fun c => some (f c)) h, List.filterMap_eq_map']

end TaintPolicy
