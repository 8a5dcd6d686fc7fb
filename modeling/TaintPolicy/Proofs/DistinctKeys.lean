import Mathlib.Data.List.Pairwise
import TaintPolicy.Proofs.DistinctFields
import TaintPolicy.Yaml.Value

/-!
# Distinct keys in values

No mapping of a value that was read has the same key twice. Keys with different tags are different,
though, and what they name is the text under the tags: so two entries have one name exactly if their
keys are one text under different tags.
-/

namespace TaintPolicy.Yaml

/-- No key is the same as one before it. -/
def DistinctKeys (es : List (Value × Value)) : Prop :=
  es.Pairwise fun e f => e.1.same f.1 = false

/-- No mapping in the value has the same key twice. What keys are made of does not count. -/
inductive Value.KeysOnce : Value → Prop
  | null : KeysOnce null
  | bool (b : Bool) : KeysOnce (bool b)
  | int (i : Int) : KeysOnce (int i)
  | real (d : Decimal) : KeysOnce (real d)
  | infinity (negative : Bool) : KeysOnce (infinity negative)
  | notNumber : KeysOnce notNumber
  | text (s : String) : KeysOnce (text s)
  | sequence {vs : List Value} : (∀ v ∈ vs, KeysOnce v) → KeysOnce (sequence vs)
  | mapping {es : List (Value × Value)} : DistinctKeys es → (∀ e ∈ es, KeysOnce e.2) →
    KeysOnce (mapping es)
  | tagged (tag : String) {v : Value} : KeysOnce v → KeysOnce (tagged tag v)

namespace Value.KeysOnce

variable {v : Value}

theorem untagged (h : v.KeysOnce) : v.untagged.KeysOnce := by
  induction h with
  | tagged tag _ ih => exact ih
  | null => exact .null
  | bool b => exact .bool b
  | int i => exact .int i
  | real d => exact .real d
  | infinity negative => exact .infinity negative
  | notNumber => exact .notNumber
  | text s => exact .text s
  | sequence hvs => exact .sequence hvs
  | mapping hes hvs => exact .mapping hes hvs

/-- The entries of a mapping have distinct keys, and so do those of mappings in their values. -/
theorem entries {es : List (Value × Value)} (h : v.KeysOnce) (he : v.entries? = some es) :
    DistinctKeys es ∧ ∀ e ∈ es, e.2.KeysOnce := by
  have hu := h.untagged
  rw [entries?] at he
  split at he
  · next hm =>
    cases he
    rw [hm] at hu
    cases hu with
    | mapping hes hvs => exact ⟨hes, hvs⟩
  · cases he
    exact ⟨.nil, by simp⟩
  · cases he

end Value.KeysOnce

section reading

theorem keysOnce_of_scalar {text : String} {value : Scalar} {v : Value}
    (h : value.value? text = some v) : v.KeysOnce := by
  cases value with
  | int i =>
    obtain ⟨-, he⟩ := Option.ite_none_right_eq_some.mp h
    cases he
    exact .int i
  | null => cases h; exact .null
  | bool b => cases h; exact .bool b
  | real d => cases h; exact .real d
  | infinity negative => cases h; exact .infinity negative
  | notNumber => cases h; exact .notNumber
  | text => cases h; exact .text text

theorem keysOnce_tagValue {v : Value} (h : v.KeysOnce) (tag : Option String) :
    (tagValue tag v).KeysOnce := by
  rw [tagValue]
  split
  · exact h
  · exact .tagged _ h

namespace Document

/-- An entry is added only with a key that is not the same as one before it. -/
theorem yields_addEntry {read : Node → Walk Value} (hread : ∀ n, (read n).Yields Value.KeysOnce)
    {es : List (Value × Value)} (hes : DistinctKeys es ∧ ∀ e ∈ es, e.2.KeysOnce) (e : Node × Node) :
    (addEntry read es e).Yields fun es => DistinctKeys es ∧ ∀ e ∈ es, e.2.KeysOnce := by
  refine (Walk.Yields.any _).bind fun k _ => ?_
  split
  · exact .failure
  · next hnew =>
    refine (hread e.2).bind fun v hv => .pure ⟨?_, ?_⟩
    · refine List.pairwise_append.mpr ⟨hes.1, List.pairwise_singleton _ _, ?_⟩
      intro f hf g hg
      rw [List.mem_singleton.mp hg]
      exact Bool.eq_false_iff.mpr fun hs => hnew (List.any_eq_true.mpr ⟨f, hf, hs⟩)
    · rw [List.forall_mem_append, List.forall_mem_singleton]
      exact ⟨hes.2, hv⟩

theorem yields_ofOption {α : Type} {P : α → Prop} {o : Option α} (h : ∀ a ∈ o, P a) :
    (ofOption o).Yields P := by
  cases o with
  | none => exact .failure
  | some a => exact .pure (h a rfl)

theorem yields_taggedScalar (tag tag' : Option String) (text : String) (plain : Bool) :
    Walk.Yields (do
      let v ← ofOption ((Scalar.ofTagged? tag' text plain).bind (Scalar.value? text))
      return tagValue tag v) Value.KeysOnce := by
  refine (yields_ofOption fun v hv => ?_).bind fun v hv => .pure (keysOnce_tagValue hv tag)
  obtain ⟨value, -, hv⟩ := Option.bind_eq_some_iff.mp hv
  exact keysOnce_of_scalar hv

theorem yields_value (d : Document) (depth : Nat) (n : Node) :
    (d.value depth n).Yields Value.KeysOnce := by
  induction depth generalizing n with
  | zero =>
    rw [Document.value.eq_def]
    refine (Walk.Yields.any _).bind fun node _ => ?_
    cases node with
    | scalar anchor tag text plain => exact yields_taggedScalar tag _ text plain
    | _ => exact .failure
  | succ depth ih =>
    rw [Document.value.eq_def]
    refine (Walk.Yields.any _).bind fun node _ => ?_
    cases node with
    | reference target => exact .failure
    | scalar anchor tag text plain => exact yields_taggedScalar tag _ text plain
    | sequence anchor tag items =>
      refine (Walk.Yields.mapM fun n _ => ih n).bind fun vs hvs => .pure ?_
      exact keysOnce_tagValue (.sequence hvs) tag
    | mapping anchor tag entries =>
      refine Walk.Yields.bind (P := fun es => DistinctKeys es ∧ ∀ e ∈ es, e.2.KeysOnce) ?_
        fun es hes => .pure (keysOnce_tagValue (.mapping hes.1 hes.2) tag)
      exact .foldlM (fun e _ es hes => yields_addEntry ih hes e) ⟨.nil, by simp⟩

end Document

end reading

section names

variable {es : List (Value × Value)}

/-- The texts that the keys hold, in order; a key that holds none is left out. -/
def textNames (es : List (Value × Value)) : List String := es.filterMap fun e => e.1.text?

theorem textNames_append (es fs : List (Value × Value)) :
    textNames (es ++ fs) = textNames es ++ textNames fs :=
  List.filterMap_append

/-- No two keys are the same text under different tags. -/
def NamesApart (es : List (Value × Value)) : Prop :=
  ∀ e ∈ es, ∀ f ∈ es, ∀ name, e.1.text? = some name → f.1.text? = some name → e.1 = f.1

theorem Value.same_self_of_text? : ∀ {v : Value} {s : String}, v.text? = some s → v.same v = true
  | .text s, _, _ => by simp [same]
  | .tagged tag v, _, h => by simp [same, same_self_of_text? (v := v) h]

/-- Names are repeated exactly where keys are told apart by their tags alone. -/
theorem nodup_textNames_iff (h : DistinctKeys es) : (textNames es).Nodup ↔ NamesApart es := by
  rw [textNames, List.Nodup, List.pairwise_filterMap]
  constructor
  · intro hp e he f hf name hname hname'
    by_contra hne
    have hsymm : Std.Symm fun e f : Value × Value =>
        ∀ a, e.1.text? = some a → ∀ b, f.1.text? = some b → a ≠ b :=
      ⟨fun e f h b hb a ha => (h a ha b hb).symm⟩
    exact hp.forall he hf (fun h => hne (congrArg Prod.fst h)) name hname name hname' rfl
  · intro hn
    refine h.imp_of_mem fun {e f} he hf hkeys name hname name' hname' heq => ?_
    subst heq
    have hkey := hn e he f hf name hname hname'
    rw [← hkey, Value.same_self_of_text? hname] at hkeys
    cases hkeys

end names

end TaintPolicy.Yaml
