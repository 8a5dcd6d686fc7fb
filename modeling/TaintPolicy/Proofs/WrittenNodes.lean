import TaintPolicy.Proofs.WrittenTokens
import TaintPolicy.Yaml.Node

/-!
# The nodes of written JSON

The tokens of a plain value are those of one node, built as the value is. A name that is no key
leaves a value mark where a comma has to stand, so the whole text is refused.
-/

namespace TaintPolicy

open Yaml

namespace Yaml.Reader

/-- A token that a node of a flow collection starts with, other than a name. -/
def StartsNode (t : Token) : Prop :=
  t = .flowSequenceStart ∨ t = .flowMappingStart ∨ ∃ text plain, t = .scalar text plain

/-- What stands in front of an item or an entry: a comma unless it is the first. -/
def separator (first : Bool) : List Token := if first then [] else [.flowEntry]

variable {fuel : Nat} {block unindented first plain : Bool} {t : Token} {ts : List Token}
  {as : Fields Nat} {hs : Fields String} {text : String}

@[simp] theorem run_failure {α : Type} (r : Reading) : (failure : Reader α).run r = none := rfl

theorem run_node_scalar :
    (node block unindented (fuel + 1)).run ⟨.scalar text plain :: ts, as, hs⟩ =
      some (.scalar none none text plain, ⟨ts, as, hs⟩) := by
  rw [node]
  simp [head?, drop, properties, scalarTag]

theorem run_node_sequence :
    (node block unindented (fuel + 1)).run ⟨.flowSequenceStart :: ts, as, hs⟩ =
      ((flowItems true fuel).run ⟨ts, as, hs⟩).map fun x => (.sequence none none x.1, x.2) := by
  rw [node]
  simp [head?, drop, properties]

theorem run_node_mapping :
    (node block unindented (fuel + 1)).run ⟨.flowMappingStart :: ts, as, hs⟩ =
      ((flowEntries true fuel).run ⟨ts, as, hs⟩).map fun x => (.mapping none none x.1, x.2) := by
  rw [node]
  simp [head?, drop, properties]

theorem run_flowItems_end :
    (flowItems first (fuel + 1)).run ⟨.flowSequenceEnd :: ts, as, hs⟩ = some ([], ⟨ts, as, hs⟩) := by
  rw [flowItems]
  simp [head?, drop]

theorem run_flowItems (h : StartsNode t) :
    (flowItems first (fuel + 1)).run ⟨separator first ++ t :: ts, as, hs⟩ =
      ((node false false fuel).run ⟨t :: ts, as, hs⟩).bind fun x =>
        ((flowItems false fuel).run x.2).map fun y => (x.1 :: y.1, y.2) := by
  rw [flowItems]
  cases first <;> rcases h with rfl | rfl | ⟨text, plain, rfl⟩ <;>
    simp [separator, head?, drop, expect]

theorem run_flowEntries_end :
    (flowEntries first (fuel + 1)).run ⟨.flowMappingEnd :: ts, as, hs⟩ = some ([], ⟨ts, as, hs⟩) := by
  rw [flowEntries]
  simp [head?, drop]

/-- An entry with a key. -/
theorem run_flowEntries (h : StartsNode t) :
    (flowEntries first (fuel + 3)).run
        ⟨separator first ++ .key :: .scalar text plain :: .value :: t :: ts, as, hs⟩ =
      ((node false false fuel).run ⟨t :: ts, as, hs⟩).bind fun x =>
        ((flowEntries false (fuel + 2)).run x.2).map fun y =>
          ((.scalar none none text plain, x.1) :: y.1, y.2) := by
  rw [flowEntries]
  cases first <;> rcases h with rfl | rfl | ⟨text', plain', rfl⟩ <;>
    simp [separator, head?, drop, expect, nodeBefore, valueBefore, isOneOf, run_node_scalar]

theorem run_flowEntries_value :
    (flowEntries false fuel).run ⟨.value :: ts, as, hs⟩ = none := by
  cases fuel with
  | zero => rfl
  | succ fuel =>
    rw [flowEntries]
    simp [head?, expect]

/-- An entry whose name is no key. -/
theorem run_flowEntries_of_name :
    (flowEntries first (fuel + 2)).run
        ⟨separator first ++ .scalar text plain :: .value :: ts, as, hs⟩ = none := by
  rw [flowEntries]
  cases first <;>
    simp [separator, head?, drop, expect, run_node_scalar, run_flowEntries_value]

end Yaml.Reader

namespace Json

open Reader

mutual

/-- The node of a value. -/
def node : Json → Node
  | str s => .scalar none none (refolded s.toList) false
  | arr vs => .sequence none none (itemNodes vs)
  | obj fs => .mapping none none (fieldNodes fs)
  | v => .scalar none none v.compact true

def itemNodes : List Json → List Node
  | [] => []
  | v :: vs => node v :: itemNodes vs

def fieldNodes : List (String × Json) → List (Node × Node)
  | [] => []
  | (k, v) :: fs => (.scalar none none (refolded k.toList) false, node v) :: fieldNodes fs

end

/-- Every name of a field is a key. -/
def KeysFit (v : Json) : Prop := v.Every (fun _ => True) (fun k => fitsKey k.toList = true)

/-- Enough fuel reads the tokens of the value as its node, wherever they stand. -/
structure IsParsed (v : Json) : Prop where
  starts : ∃ t ts, v.tokens = t :: ts ∧ StartsNode t
  run_eq_some_iff (block unindented : Bool) {fuel : Nat} (ts : List Token) (as : Fields Nat)
    (hs : Fields String) (x : Node × Reading) : 2 * v.tokens.length ≤ fuel →
    ((Reader.node block unindented fuel).run ⟨v.tokens ++ ts, as, hs⟩ = some x ↔
      v.KeysFit ∧ x = (v.node, ⟨ts, as, hs⟩))

section parsing

variable {fuel : Nat} {ts : List Token} {as : Fields Nat} {hs : Fields String}

/-- Two readers in a row, each of which has one outcome under a condition. -/
theorem bind_map_eq_some_iff {α β γ σ : Type} {p q : Prop} {f : Option (α × σ)}
    {g : σ → Option (β × σ)} {a : α} {b : β} {s t : σ} (join : α → β → γ)
    (hf : ∀ x, f = some x ↔ p ∧ x = (a, s)) (hg : ∀ y, g s = some y ↔ q ∧ y = (b, t))
    (z : γ × σ) :
    (f.bind fun x => (g x.2).map fun y => (join x.1 y.1, y.2)) = some z ↔
      (p ∧ q) ∧ z = (join a b, t) := by
  simp only [Option.bind_eq_some_iff, Option.map_eq_some_iff, hf]
  constructor
  · rintro ⟨_, ⟨hp, rfl⟩, y, hy, rfl⟩
    obtain ⟨hq, rfl⟩ := (hg y).mp hy
    exact ⟨⟨hp, hq⟩, rfl⟩
  · rintro ⟨⟨hp, hq⟩, rfl⟩
    exact ⟨_, ⟨hp, rfl⟩, _, (hg _).mpr ⟨hq, rfl⟩, rfl⟩

/-- An item and the rest of its list. -/
theorem run_item (first : Bool) {v : Json} {p : Prop} {us : List Token} {ns : List Node}
    (hv : v.IsParsed) (hf : 2 * v.tokens.length ≤ fuel)
    (hrest : ∀ x, (flowItems false fuel).run ⟨us ++ ts, as, hs⟩ = some x ↔
      p ∧ x = (ns, ⟨ts, as, hs⟩)) (x : List Node × Reading) :
    (flowItems first (fuel + 1)).run ⟨separator first ++ (v.tokens ++ (us ++ ts)), as, hs⟩ = some x ↔
      (v.KeysFit ∧ p) ∧ x = (v.node :: ns, ⟨ts, as, hs⟩) := by
  obtain ⟨t, ts', he, ht⟩ := hv.starts
  have hnode := fun x => hv.run_eq_some_iff false false (us ++ ts) as hs x hf
  rw [he, List.cons_append] at hnode ⊢
  rw [run_flowItems ht]
  exact bind_map_eq_some_iff List.cons hnode hrest x

theorem run_itemTokens {vs : List Json} (hvs : ∀ v ∈ vs, v.IsParsed)
    (hf : 2 * (itemTokens vs).length ≤ fuel) (x : List Node × Reading) :
    (flowItems false fuel).run ⟨itemTokens vs ++ ts, as, hs⟩ = some x ↔
      (∀ v ∈ vs, v.KeysFit) ∧ x = (itemNodes vs, ⟨ts, as, hs⟩) := by
  induction vs generalizing fuel x with
  | nil =>
    obtain ⟨fuel, rfl⟩ : ∃ k, fuel = k + 1 := ⟨fuel - 1, by simp [itemTokens] at hf; omega⟩
    rw [itemTokens, List.singleton_append, run_flowItems_end, Option.some.injEq, eq_comm]
    simp [itemNodes]
  | cons v vs ih =>
    obtain ⟨hv, hvs⟩ := List.forall_mem_cons.mp hvs
    simp only [itemTokens, List.length_cons, List.length_append] at hf
    obtain ⟨fuel, rfl⟩ : ∃ k, fuel = k + 1 := ⟨fuel - 1, by omega⟩
    have hlen : 2 * v.tokens.length ≤ fuel := by omega
    have hitem := run_item false hv hlen (ih hvs (by omega)) x
    rw [List.forall_mem_cons, itemNodes, ← hitem]
    simp [itemTokens, separator]

/-- An entry and the rest of its object. -/
theorem run_entry (first : Bool) {k : String} {v : Json} {p : Prop} {us : List Token}
    {es : List (Node × Node)} (hv : v.IsParsed) (hf : 2 * v.tokens.length ≤ fuel)
    (hrest : ∀ x, (flowEntries false (fuel + 2)).run ⟨us ++ ts, as, hs⟩ = some x ↔
      p ∧ x = (es, ⟨ts, as, hs⟩)) (x : List (Node × Node) × Reading) :
    (flowEntries first (fuel + 3)).run
        ⟨separator first ++ (nameTokens k.toList ++ (v.tokens ++ (us ++ ts))), as, hs⟩ = some x ↔
      ((fitsKey k.toList = true ∧ v.KeysFit) ∧ p) ∧
        x = ((.scalar none none (refolded k.toList) false, v.node) :: es, ⟨ts, as, hs⟩) := by
  rw [nameTokens]
  by_cases hk : fitsKey k.toList = true
  · obtain ⟨t, ts', he, ht⟩ := hv.starts
    have hnode := fun x => hv.run_eq_some_iff false false (us ++ ts) as hs x hf
    rw [if_pos hk, and_iff_right hk]
    rw [he, List.cons_append] at hnode ⊢
    simp only [List.cons_append, List.nil_append]
    rw [run_flowEntries ht]
    exact bind_map_eq_some_iff (fun n es => (_, n) :: es) hnode hrest x
  · rw [if_neg hk]
    simp only [List.cons_append, List.nil_append]
    rw [run_flowEntries_of_name]
    simp [hk]

theorem run_fieldTokens {fs : List (String × Json)} (hfs : ∀ f ∈ fs, f.2.IsParsed)
    (hf : 2 * (fieldTokens fs).length ≤ fuel) (x : List (Node × Node) × Reading) :
    (flowEntries false fuel).run ⟨fieldTokens fs ++ ts, as, hs⟩ = some x ↔
      (∀ f ∈ fs, fitsKey f.1.toList = true ∧ f.2.KeysFit) ∧ x = (fieldNodes fs, ⟨ts, as, hs⟩) := by
  induction fs generalizing fuel x with
  | nil =>
    obtain ⟨fuel, rfl⟩ : ∃ k, fuel = k + 1 := ⟨fuel - 1, by simp [fieldTokens] at hf; omega⟩
    rw [fieldTokens, List.singleton_append, run_flowEntries_end, Option.some.injEq, eq_comm]
    simp [fieldNodes]
  | cons f fs ih =>
    obtain ⟨k, v⟩ := f
    obtain ⟨hv, hfs⟩ := List.forall_mem_cons.mp hfs
    have hname := two_le_length_nameTokens k.toList
    simp only [fieldTokens, List.length_cons, List.length_append] at hf
    obtain ⟨fuel, rfl⟩ : ∃ k, fuel = k + 3 := ⟨fuel - 3, by omega⟩
    have hlen : 2 * v.tokens.length ≤ fuel := by omega
    have hentry := run_entry (k := k) false hv hlen (ih hfs (by omega)) x
    rw [List.forall_mem_cons, fieldNodes, ← hentry]
    simp [fieldTokens, separator]

theorem map_eq_some_iff_of {α β σ : Type} {p : Prop} {f : Option (α × σ)} {a : α} {t : σ}
    (wrap : α → β) (hf : ∀ x, f = some x ↔ p ∧ x = (a, t)) (z : β × σ) :
    (f.map fun x => (wrap x.1, x.2)) = some z ↔ p ∧ z = (wrap a, t) := by
  simp only [Option.map_eq_some_iff, hf]
  constructor
  · rintro ⟨_, ⟨hp, rfl⟩, rfl⟩
    exact ⟨hp, rfl⟩
  · rintro ⟨hp, rfl⟩
    exact ⟨_, ⟨hp, rfl⟩, rfl⟩

theorem isParsed_of_scalar {v : Json} {text : String} {plain : Bool}
    (ht : v.tokens = [.scalar text plain]) (hn : v.node = .scalar none none text plain)
    (hk : v.KeysFit) : v.IsParsed where
  starts := ⟨_, [], ht, .inr (.inr ⟨text, plain, rfl⟩)⟩
  run_eq_some_iff block unindented fuel ts as hs x hf := by
    rw [ht, List.length_singleton] at hf
    obtain ⟨fuel, rfl⟩ : ∃ k, fuel = k + 1 := ⟨fuel - 1, by omega⟩
    rw [ht, hn, List.singleton_append, run_node_scalar, Option.some.injEq, eq_comm,
      and_iff_right hk]

theorem isParsed_arr {vs : List Json} (hvs : ∀ v ∈ vs, v.IsParsed) : (arr vs).IsParsed := by
  have hok : (arr vs).KeysFit ↔ ∀ v ∈ vs, v.KeysFit := everyItem_iff
  cases vs with
  | nil =>
    refine ⟨⟨_, _, rfl, .inl rfl⟩, fun block unindented fuel ts as hs x hf => ?_⟩
    simp only [tokens, List.length_cons, List.length_nil] at hf
    obtain ⟨fuel, rfl⟩ : ∃ k, fuel = k + 2 := ⟨fuel - 2, by omega⟩
    rw [hok, tokens, List.cons_append, run_node_sequence, List.singleton_append, run_flowItems_end,
      Option.map_some, Option.some.injEq, eq_comm]
    simp [Json.node, itemNodes]
  | cons v vs =>
    obtain ⟨hv, hvs⟩ := List.forall_mem_cons.mp hvs
    refine ⟨⟨_, _, rfl, .inl rfl⟩, fun block unindented fuel ts as hs x hf => ?_⟩
    simp only [tokens, List.length_cons, List.length_append] at hf
    obtain ⟨fuel, rfl⟩ : ∃ k, fuel = k + 2 := ⟨fuel - 2, by omega⟩
    have hlen : 2 * v.tokens.length ≤ fuel := by omega
    have hitems : ∀ y, (flowItems true (fuel + 1)).run
        ⟨v.tokens ++ (itemTokens vs ++ ts), as, hs⟩ = some y ↔
          (v.KeysFit ∧ ∀ v ∈ vs, v.KeysFit) ∧ y = (v.node :: itemNodes vs, ⟨ts, as, hs⟩) :=
      run_item true hv hlen (run_itemTokens hvs (by omega))
    rw [hok, List.forall_mem_cons, tokens, List.cons_append, List.append_assoc, run_node_sequence]
    exact map_eq_some_iff_of (Node.sequence none none) hitems x

theorem isParsed_obj {fs : List (String × Json)} (hfs : ∀ f ∈ fs, f.2.IsParsed) :
    (obj fs).IsParsed := by
  have hok : (obj fs).KeysFit ↔ ∀ f ∈ fs, fitsKey f.1.toList = true ∧ f.2.KeysFit := everyField_iff
  cases fs with
  | nil =>
    refine ⟨⟨_, _, rfl, .inr (.inl rfl)⟩, fun block unindented fuel ts as hs x hf => ?_⟩
    simp only [tokens, List.length_cons, List.length_nil] at hf
    obtain ⟨fuel, rfl⟩ : ∃ k, fuel = k + 2 := ⟨fuel - 2, by omega⟩
    rw [hok, tokens, List.cons_append, run_node_mapping, List.singleton_append, run_flowEntries_end,
      Option.map_some, Option.some.injEq, eq_comm]
    simp [Json.node, fieldNodes]
  | cons f fs =>
    obtain ⟨k, v⟩ := f
    obtain ⟨hv, hfs⟩ := List.forall_mem_cons.mp hfs
    refine ⟨⟨_, _, rfl, .inr (.inl rfl)⟩, fun block unindented fuel ts as hs x hf => ?_⟩
    have hname := two_le_length_nameTokens k.toList
    simp only [tokens, List.length_cons, List.length_append] at hf
    obtain ⟨fuel, rfl⟩ : ∃ k, fuel = k + 4 := ⟨fuel - 4, by omega⟩
    have hlen : 2 * v.tokens.length ≤ fuel := by omega
    have hentries : ∀ y, (flowEntries true (fuel + 3)).run
        ⟨nameTokens k.toList ++ (v.tokens ++ (fieldTokens fs ++ ts)), as, hs⟩ = some y ↔
          ((fitsKey k.toList = true ∧ v.KeysFit) ∧
            ∀ f ∈ fs, fitsKey f.1.toList = true ∧ f.2.KeysFit) ∧
          y = ((.scalar none none (refolded k.toList) false, v.node) :: fieldNodes fs,
            ⟨ts, as, hs⟩) :=
      run_entry true hv hlen (run_fieldTokens hfs (by omega))
    rw [hok, List.forall_mem_cons, tokens, List.cons_append, List.append_assoc, List.append_assoc,
      run_node_mapping]
    exact map_eq_some_iff_of (Node.mapping none none) hentries x

/-- The tokens of a plain value are read as its node if all of its keys fit, and not at all
otherwise. -/
theorem IsPlain.isParsed {depth : Nat} {v : Json} (h : v.IsPlain depth) : v.IsParsed := by
  induction h with
  | str s => exact isParsed_of_scalar rfl rfl trivial
  | count n => exact isParsed_of_scalar rfl rfl trivial
  | arr _ ih => exact isParsed_arr ih
  | obj _ _ ih => exact isParsed_obj ih

end parsing

section documents

theorem content?_of_startsNode {t : Token} (h : StartsNode t) (ts : List Token) :
    content? (t :: ts) = some (defaultHandles, t :: ts, false) := by
  rcases h with rfl | rfl | ⟨text, plain, rfl⟩ <;> simp [content?, directives]

theorem IsParsed.ofTokens?_eq_some_iff {v : Json} (h : v.IsParsed) (n : Node) :
    Node.ofTokens? v.tokens = some n ↔ v.KeysFit ∧ n = v.node := by
  obtain ⟨t, ts, he, ht⟩ := h.starts
  have hrun := fun x => h.run_eq_some_iff true false [] [] defaultHandles x
    (show 2 * v.tokens.length ≤ 4 * v.tokens.length + 4 by omega)
  rw [List.append_nil] at hrun
  have hne : (t :: ts).isEmpty = false := rfl
  rw [Node.ofTokens?, he, hne, content?_of_startsNode ht, ← he, Option.bind_eq_bind]
  simp only [Bool.false_eq_true, if_false, Bool.false_and, Option.bind_some]
  rw [Option.bind_eq_bind, Option.bind_eq_some_iff]
  simp only [hrun]
  constructor
  · rintro ⟨_, ⟨hk, rfl⟩, hn⟩
    exact ⟨hk, (Option.some.inj hn).symm⟩
  · rintro ⟨hk, rfl⟩
    exact ⟨_, ⟨hk, rfl⟩, rfl⟩

/-- Exactly the objects with allowed characters, no document marks and names that fit have a node,
and this is their own. -/
theorem ofText?_pretty_eq_node_iff {depth : Nat} {fs : Fields Json}
    (hv : (obj fs).IsPlain (depth + 1)) (n : Node) :
    Node.ofText? (obj fs).pretty = some n ↔
      ((obj fs).IsAllowed ∧ (obj fs).IsUnmarked ∧ (obj fs).KeysFit) ∧ n = (obj fs).node := by
  rw [Node.ofText?, Option.bind_eq_some_iff]
  simp only [ofText?_pretty_eq_some_iff hv]
  constructor
  · rintro ⟨_, ⟨ha, hu, rfl⟩, hn⟩
    obtain ⟨hk, rfl⟩ := (hv.isParsed.ofTokens?_eq_some_iff n).mp hn
    exact ⟨⟨ha, hu, hk⟩, rfl⟩
  · rintro ⟨⟨ha, hu, hk⟩, rfl⟩
    exact ⟨_, ⟨ha, hu, rfl⟩, (hv.isParsed.ofTokens?_eq_some_iff _).mpr ⟨hk, rfl⟩⟩

end documents

end Json

end TaintPolicy
