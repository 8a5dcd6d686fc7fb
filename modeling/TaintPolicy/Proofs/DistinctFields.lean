import TaintPolicy.Proofs.ReadPolicies

/-!
# Distinct names in documents

No object of a document that was read repeats a name: of equal keys one is kept. So the gates that
are read from a document are gates of different tools.
-/

namespace TaintPolicy

/-- No object in the value repeats a name. -/
inductive Json.NamesOnce : Json → Prop
  | null : NamesOnce null
  | bool (b : Bool) : NamesOnce (bool b)
  | num (n : Number) : NamesOnce (num n)
  | str (s : String) : NamesOnce (str s)
  | arr {vs : List Json} : (∀ v ∈ vs, NamesOnce v) → NamesOnce (arr vs)
  | obj {fs : Fields Json} : (Fields.names fs).Nodup → (∀ f ∈ fs, NamesOnce f.2) →
    NamesOnce (obj fs)

namespace Yaml

section walks

variable {α β : Type} {P : α → Prop} {Q : β → Prop}

/-- Whatever the walk comes to satisfies the condition. -/
def Walk.Yields (x : Walk α) (P : α → Prop) : Prop :=
  ∀ followed a followed', x.run followed = some (a, followed') → P a

namespace Walk.Yields

theorem any (x : Walk α) : x.Yields fun _ => True := fun _ _ _ _ => trivial

theorem pure {a : α} (h : P a) : Yields (Pure.pure a) P := by
  rintro followed a' followed' he
  cases he
  exact h

theorem failure : Yields (Alternative.failure : Walk α) P := by
  intro followed a followed' h
  cases h

theorem bind {x : Walk α} {next : α → Walk β} (hx : x.Yields P)
    (hnext : ∀ a, P a → (next a).Yields Q) : (x >>= next).Yields Q := by
  intro followed b followed' h
  rw [StateT.run_bind, Option.bind_eq_bind, Option.bind_eq_some_iff] at h
  obtain ⟨⟨a, k⟩, ha, h⟩ := h
  exact hnext a (hx followed a k ha) k b followed' h

theorem mapM {f : α → Walk β} {as : List α} (h : ∀ a ∈ as, (f a).Yields Q) :
    (as.mapM f).Yields fun bs => ∀ b ∈ bs, Q b := by
  induction as with
  | nil => exact .pure (by simp)
  | cons a as ih =>
    obtain ⟨ha, has⟩ := List.forall_mem_cons.mp h
    rw [List.mapM_cons]
    refine ha.bind fun b hb => (ih has).bind fun bs hbs => .pure ?_
    exact List.forall_mem_cons.mpr ⟨hb, hbs⟩

theorem foldlM {f : β → α → Walk β} {as : List α} (h : ∀ a ∈ as, ∀ b, Q b → (f b a).Yields Q)
    {b : β} (hb : Q b) : (as.foldlM f b).Yields Q := by
  induction as generalizing b with
  | nil => exact .pure hb
  | cons a as ih =>
    obtain ⟨ha, has⟩ := List.forall_mem_cons.mp h
    rw [List.foldlM_cons]
    exact (ha b hb).bind fun b' hb' => ih has hb'

end Walk.Yields

end walks

theorem namesOnce_of_scalar {text : String} {value : Scalar} {v : Json}
    (h : value.json? text = some v) : v.NamesOnce := by
  cases value with
  | int i =>
    obtain ⟨-, he⟩ := Option.ite_none_right_eq_some.mp h
    cases he
    exact .num _
  | null | infinity | notNumber => cases h; exact .null
  | bool b => cases h; exact .bool b
  | real d => cases h; exact .num _
  | text => cases h; exact .str text

theorem yields_scalar (tag : Option String) (text : String) (plain : Bool) :
    Walk.Yields (
      if (localTag? tag).isSome then failure
      else
        match (Scalar.ofTagged? tag text plain).bind (Scalar.json? text) with
        | some v => return v
        | none => failure) Json.NamesOnce := by
  split
  · exact .failure
  · split
    · next hv =>
      obtain ⟨_, -, hv⟩ := Option.bind_eq_some_iff.mp hv
      exact .pure (namesOnce_of_scalar hv)
    · exact .failure

/-- Of equal keys the value of a mapping keeps one. -/
theorem Document.yields_json (d : Document) (depth : Nat) (n : Node) :
    (d.json depth n).Yields Json.NamesOnce := by
  induction depth generalizing n with
  | zero =>
    rw [Document.json.eq_def]
    refine (Walk.Yields.any _).bind fun node _ => ?_
    cases node with
    | scalar anchor tag text plain => exact yields_scalar tag text plain
    | _ => exact .failure
  | succ depth ih =>
    rw [Document.json.eq_def]
    refine (Walk.Yields.any _).bind fun node _ => ?_
    cases node with
    | reference target => exact .failure
    | scalar anchor tag text plain => exact yields_scalar tag text plain
    | sequence anchor tag items =>
      dsimp only
      split
      · exact .failure
      · exact (Walk.Yields.mapM fun n _ => ih n).bind fun vs hvs => .pure (.arr hvs)
    | mapping anchor tag entries =>
      dsimp only
      split
      · exact .failure
      · have hentry : ∀ e ∈ entries, Walk.Yields
            (do let key ← d.text e.1; return (key, ← d.json depth e.2))
            fun f => f.2.NamesOnce := fun e _ =>
          (Walk.Yields.any _).bind fun key _ => (ih e.2).bind fun v hv => .pure hv
        refine (Walk.Yields.mapM hentry).bind fun fs hfs => .pure ?_
        exact .obj (Fields.nodup_names_ofEntries fs) fun f hf => hfs f (Fields.mem_ofEntries hf)

theorem namesOnce_of_read {text : String} {v : Json} (h : read text = .ok v) : v.NamesOnce := by
  rw [read] at h
  split at h
  · next hv =>
    cases h
    rw [json?, Option.bind_eq_bind, Option.bind_eq_some_iff] at hv
    obtain ⟨d, -, hv⟩ := hv
    rw [Option.bind_eq_bind, Option.bind_eq_some_iff] at hv
    obtain ⟨⟨v, followed⟩, hrun, hv⟩ := hv
    cases hv
    exact d.yields_json maxDepth d.root 0 v followed hrun
  · cases h

end Yaml

namespace Json.NamesOnce

variable {v w : Json}

theorem get? (h : v.NamesOnce) {name : String} (hw : v.get? name = some w) : w.NamesOnce := by
  cases h with
  | obj _ hfs => exact hfs _ (Fields.mem_of_find? hw)
  | _ => cases hw

theorem firstPresent? (h : v.NamesOnce) {names : List String}
    (hw : v.firstPresent? names = some w) : w.NamesOnce := by
  obtain ⟨name, -, hw⟩ := List.exists_of_findSome?_eq_some hw
  exact h.get? (Option.filter_eq_some_iff.mp hw).1

theorem listedEntries (h : v.NamesOnce) {names : List String}
    (hw : w ∈ listedEntries v names) : w.NamesOnce := by
  rw [TaintPolicy.listedEntries] at hw
  cases hp : v.firstPresent? names with
  | none => simp [hp] at hw
  | some u =>
    rw [hp] at hw
    cases h.firstPresent? hp with
    | arr hvs => exact hvs w hw
    | _ => cases hw

end Json.NamesOnce

section gates

variable {mode : Mode} {gates : Fields Gate}

theorem fst_of_readGate {f : String × Json} {g : String × Gate}
    (h : readGate mode f = .ok (some g)) : g.1 = f.1 := by
  simp only [readGate] at h
  split at h
  · cases h
    rfl
  · cases mode <;> cases h

/-- The gates of an object that names each field once are gates of different tools. -/
theorem nodup_names_readGates {v : Option Json} (hv : ∀ w ∈ v, w.NamesOnce)
    (h : readGates mode v = .ok gates) : (Fields.names gates).Nodup := by
  cases v with
  | none =>
    cases h
    exact List.nodup_nil
  | some v =>
    rw [readGates] at h
    cases hv v rfl with
    | obj hn _ => exact (collect_map_sublist (fun _ _ => fst_of_readGate) h).nodup hn
    | _ =>
      cases mode
      · cases h
        exact List.nodup_nil
      · cases h

theorem nodup_names_policyGates {document : Json} (hd : document.NamesOnce)
    (h : readGates mode (policyGates? document) = .ok gates) : (Fields.names gates).Nodup := by
  refine nodup_names_readGates (fun w hw => ?_) h
  obtain ⟨policy, hp, hw⟩ := Option.bind_eq_some_iff.mp hw
  exact (hd.listedEntries (List.mem_of_head? hp)).firstPresent? hw

end gates

end TaintPolicy
