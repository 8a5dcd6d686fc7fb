import TaintPolicy.Proofs.QuotedText
import TaintPolicy.Yaml.Token

/-!
# Scanning written JSON

The states of the scanner of YAML while it reads JSON in its pretty layout: no block collection is
ever open and no key is ever required. Such a state is described by what is left to read but for the
gap in front of it, by the tokens read, and by the number of open brackets. Reading the next token
takes a character at least, so there is always fuel for it.
-/

namespace TaintPolicy.Yaml

/-- Stands between the tokens of written JSON. -/
def isFiller (c : Char) : Bool := c = ' ' || c = '\n'

/-- The first character of a token of written JSON. -/
def isTokenStart (c : Char) : Bool := isGraphic c && c ≠ ' ' && c ≠ '#'

section characters

variable {c d : Char}

theorem isFiller_iff : isFiller c = true ↔ c = ' ' ∨ c = '\n' := by
  simp [isFiller]

theorem isGraphic_of_isTokenStart (h : isTokenStart c = true) : isGraphic c = true := by
  simp only [isTokenStart, Bool.and_eq_true] at h
  exact h.1.1

theorem isTokenStart_ne (hc : isTokenStart c = true) (hd : isTokenStart d = false) :
    c ≠ d := by
  rintro rfl
  simp [hc] at hd

theorem isDigit_ne (hc : c.isDigit = true) (hd : d.isDigit = false) : c ≠ d := by
  rintro rfl
  simp [hc] at hd

theorem isGraphic_of_isDigit (hc : c.isDigit = true) : isGraphic c = true := by
  have hrange : 48 ≤ c.toNat ∧ c.toNat ≤ 57 := by
    simpa [Char.isDigit, UInt32.le_iff_toNat_le] using hc
  simp only [isGraphic, Bool.and_eq_true, decide_eq_true_eq]
  omega

theorem isTokenStart_of_isDigit (hc : c.isDigit = true) : isTokenStart c = true := by
  have hs : c ≠ ' ' := isDigit_ne hc (by decide)
  have hh : c ≠ '#' := isDigit_ne hc (by decide)
  simp [isTokenStart, isGraphic_of_isDigit hc, hs, hh]

end characters

namespace Scan

section runs

/-- One token more, and none where the text ends or breaks a rule. -/
def step? (s : Scan) : Option Scan :=
  s.toToken.bind fun t =>
    match t.rest with
    | [] => none
    | c :: cs => t.next c cs

/-- Reads some tokens, each of which takes a character. -/
inductive Steps : Scan → Scan → Prop
  | refl (s : Scan) : Steps s s
  | head {s t u : Scan} : s.step? = some t → t.rest.length < s.rest.length → Steps t u → Steps s u

/-- The scan fails, however long it may go on. -/
def Fails (s : Scan) : Prop := ∀ fuel, run fuel s = none

variable {s t u : Scan} {ok ok' : Prop} {goal goal' : Scan → Prop}

theorem run_of_step? (h : s.step? = some t) (fuel : Nat) : run (fuel + 1) s = run fuel t := by
  obtain ⟨r, hr, hn⟩ := Option.bind_eq_some_iff.mp h
  split at hn
  · cases hn
  · next c cs hc => simp [run, hr, hc, hn]

theorem Steps.trans (h : Steps s t) (h' : Steps t u) : Steps s u := by
  induction h with
  | refl => exact h'
  | head hs hl _ ih => exact .head hs hl (ih h')

theorem Steps.single (h : s.step? = some t) (hl : t.rest.length < s.rest.length) : Steps s t :=
  .head h hl (.refl t)

/-- As many steps as there are characters are enough. -/
theorem Steps.run_eq (h : Steps s t) {fuel : Nat} (hf : s.rest.length < fuel) :
    ∃ fuel', t.rest.length < fuel' ∧ run fuel s = run fuel' t := by
  induction h generalizing fuel with
  | refl => exact ⟨fuel, hf, rfl⟩
  | head hs hl _ ih =>
    obtain ⟨fuel, rfl⟩ : ∃ k, fuel = k + 1 := ⟨fuel - 1, by omega⟩
    rw [run_of_step? hs]
    exact ih (by omega)

theorem Fails.of_steps (h : Steps s t) (hf : t.Fails) : s.Fails := by
  induction h with
  | refl => exact hf
  | head hs _ _ ih =>
    intro fuel
    cases fuel with
    | zero => rfl
    | succ fuel => exact (run_of_step? hs fuel).trans (ih hf fuel)

/-- Where `ok` holds the scan comes to a state that satisfies `goal`, and otherwise it fails. -/
structure Leads (s : Scan) (ok : Prop) (goal : Scan → Prop) : Prop where
  arrives : ok → ∃ t, Steps s t ∧ goal t
  fails : ¬ ok → s.Fails

theorem Leads.trans (h : Leads s ok goal) (h' : ∀ t, goal t → Leads t ok' goal') :
    Leads s (ok ∧ ok') goal' where
  arrives hok := by
    obtain ⟨t, hst, ht⟩ := h.arrives hok.1
    obtain ⟨u, htu, hu⟩ := (h' t ht).arrives hok.2
    exact ⟨u, hst.trans htu, hu⟩
  fails hok := by
    by_cases hfirst : ok
    · obtain ⟨t, hst, ht⟩ := h.arrives hfirst
      exact .of_steps hst ((h' t ht).fails fun hsecond => hok ⟨hfirst, hsecond⟩)
    · exact h.fails hfirst

theorem Leads.of_arrival (h : ∃ t, Steps s t ∧ goal t) : Leads s True goal :=
  ⟨fun _ => h, fun hn => absurd trivial hn⟩

theorem Leads.congr (h : Leads s ok goal) (hok : ok ↔ ok') (hgoal : ∀ t, goal t → goal' t) :
    Leads s ok' goal' where
  arrives hok' := by
    obtain ⟨t, hst, ht⟩ := h.arrives (hok.mpr hok')
    exact ⟨t, hst, hgoal t ht⟩
  fails hok' := h.fails fun h' => hok' (hok.mp h')

theorem Leads.of_steps (h : ∃ t, Steps s t ∧ goal t) (h' : ∀ t, goal t → Leads t ok goal') :
    Leads s ok goal' :=
  ((Leads.of_arrival h).trans h').congr (by simp) fun _ ht => ht

theorem Leads.then_steps (h : Leads s ok goal) (h' : ∀ t, goal t → ∃ u, Steps t u ∧ goal' u) :
    Leads s ok goal' :=
  (h.trans fun t ht => .of_arrival (h' t ht)).congr (by simp) fun _ ht => ht

end runs

section calm

/-- No key is required anywhere, and no block collection is open. -/
structure IsCalm (s : Scan) : Prop where
  columns : s.columns = []
  keyStart : ∀ k ∈ s.keyStart, k.required = false
  outer : ∀ o ∈ s.outer, ∀ k ∈ o, k.required = false

/-- At the start of the next token, without the key starts that are out of reach there. -/
def arrived (s : Scan) : Scan :=
  let place := skipGap s.inFlow false s.keyAllowed s.mark s.rest
  { s with
    keyAllowed := place.1
    mark := place.2.1
    rest := place.2.2
    keyStart := s.keyStart.filter (inReach place.2.1)
    outer := s.outer.map (Option.filter (inReach place.2.1)) }

/-- The key start behind a place where a key may start. -/
def keyStartHere (s : Scan) : Option KeyStart :=
  if s.keyAllowed then some ⟨s.count, false, s.mark⟩ else s.keyStart

variable {s : Scan} {m : Mark}

theorem expire_of_not_required {o : Option KeyStart} (h : ∀ k ∈ o, k.required = false) :
    expire m o = some (o.filter (inReach m)) := by
  cases o with
  | none => rfl
  | some k =>
    have hk := h k rfl
    by_cases hr : inReach m k = true <;> simp [expire, Option.filter, hr, hk]

theorem mapM_expire {os : List (Option KeyStart)} (h : ∀ o ∈ os, ∀ k ∈ o, k.required = false) :
    os.mapM (expire m) = some (os.map (Option.filter (inReach m))) := by
  induction os with
  | nil => rfl
  | cons o os ih =>
    obtain ⟨ho, hos⟩ := List.forall_mem_cons.mp h
    rw [List.mapM_cons, expire_of_not_required ho, ih hos]
    rfl

theorem closeBlocks_of_columns (h : s.columns = []) (column : Int) :
    closeBlocks column s = s := by
  obtain ⟨rest, mark, columns, keyAllowed, keyStart, outer, reversed, count⟩ := s
  cases h
  simp [closeBlocks]

theorem IsCalm.toToken (h : s.IsCalm) : s.toToken = some s.arrived := by
  simp only [Scan.toToken, expire_of_not_required h.keyStart, mapM_expire h.outer,
    Option.bind_eq_bind, Option.bind_some]
  have hc : s.arrived.columns = [] := h.columns
  exact congrArg some (closeBlocks_of_columns hc _)

theorem required_of_mem_filter {o : Option KeyStart} (h : ∀ k ∈ o, k.required = false) :
    ∀ k ∈ o.filter (inReach m), k.required = false := by
  intro k hk
  exact h k (Option.mem_filter_iff.mp hk).1

theorem IsCalm.arrived (h : s.IsCalm) : s.arrived.IsCalm where
  columns := h.columns
  keyStart := required_of_mem_filter h.keyStart
  outer o ho := by
    obtain ⟨o, hm, rfl⟩ := List.mem_map.mp ho
    exact required_of_mem_filter (h.outer o hm)

theorem IsCalm.dropKey (h : s.IsCalm) : s.dropKey = some { s with keyStart := none } := by
  rw [Scan.dropKey]
  split
  · next k hk => simp [h.keyStart k hk]
  · next hk => rw [← hk]

theorem IsCalm.startKey (h : s.IsCalm) :
    s.startKey = some { s with keyStart := s.keyStartHere } := by
  have hm : ¬ (-1 : Int) = s.mark.column := by omega
  rw [Scan.startKey, Scan.keyStartHere]
  split
  · simp [h.dropKey, hm, inFlow, indent, h.columns]
  · rfl

theorem IsCalm.keyStartHere (h : s.IsCalm) : ∀ k ∈ s.keyStartHere, k.required = false := by
  intro k hk
  rw [Scan.keyStartHere] at hk
  split at hk
  · obtain rfl := Option.some.inj hk
    rfl
  · exact h.keyStart k hk

end calm

section places

/-- The scan stands before a text inside `depth` flow collections, with the given tokens read; a key
may start there if `key` says so. -/
structure Stands (s : Scan) (key : Bool) (depth : Nat) (cs : List Char) (ts : List Token) : Prop where
  calm : s.IsCalm
  rest : s.rest.dropWhile isFiller = cs.dropWhile isFiller
  keyAllowed : key = true → s.keyAllowed = true
  depth : s.outer.length = depth
  reversed : s.reversed = ts
  count : s.count = ts.length

variable {s t : Scan} {key : Bool} {depth : Nat} {c : Char} {cs gap : List Char} {ts : List Token}

theorem Stands.of_gap (h : Stands s key depth (gap ++ cs) ts) (hg : ∀ c ∈ gap, isFiller c = true) :
    Stands s key depth cs ts :=
  { h with rest := by rw [h.rest, List.dropWhile_append_of_pos hg] }

theorem skipGap_start (hc : isTokenStart c = true) (flow allowed : Bool) (m : Mark) :
    skipGap flow false allowed m (c :: cs) = (allowed, m, c :: cs) := by
  have hne : ∀ d, isTokenStart d = false → c ≠ d := fun d => isTokenStart_ne hc
  have hl : isLineBreak c = false := isLineBreak_of_isGraphic (isGraphic_of_isTokenStart hc)
  simp [skipGap, hl, hne '#' (by decide), hne ' ' (by decide), hne '\t' (by decide),
    hne '\ufeff' (by decide)]

/-- A gap ends where a token starts, and takes no permission for a key. -/
theorem skipGap_eq (hc : isTokenStart c = true) (flow allowed : Bool) (m : Mark) {rest : List Char}
    (h : rest.dropWhile isFiller = c :: cs) :
    ∃ allowed' m', skipGap flow false allowed m rest = (allowed', m', c :: cs) ∧
      (allowed = true → allowed' = true) := by
  induction rest generalizing allowed m with
  | nil => cases h
  | cons d rest ih =>
    by_cases hd : isFiller d = true
    · rw [List.dropWhile_cons_of_pos hd] at h
      rcases isFiller_iff.mp hd with rfl | rfl
      · obtain ⟨allowed', m', he, ha⟩ := ih allowed (m.next ' ') h
        exact ⟨allowed', m', by rw [skipGap]; simpa [isLineBreak] using he, ha⟩
      · obtain ⟨allowed', m', he, ha⟩ := ih (allowed || !flow) (m.next '\n') h
        exact ⟨allowed', m', by rw [skipGap]; simpa [isLineBreak] using he, fun h => ha (by simp [h])⟩
    · rw [List.dropWhile_cons_of_neg hd] at h
      rw [h]
      exact ⟨allowed, m, skipGap_start hc flow allowed m, id⟩

theorem Stands.dropWhile_eq (h : Stands s key depth (c :: cs) ts) (hc : isTokenStart c = true) :
    s.rest.dropWhile isFiller = c :: cs := by
  have hf : isFiller c = false := by
    simp [isFiller, isTokenStart_ne hc (d := ' ') (by decide),
      isTokenStart_ne hc (d := '\n') (by decide)]
  rw [h.rest, List.dropWhile_cons_of_neg (by simp [hf])]

theorem Stands.arrived_rest (h : Stands s key depth (c :: cs) ts) (hc : isTokenStart c = true) :
    s.arrived.rest = c :: cs := by
  obtain ⟨allowed, m, he, -⟩ := skipGap_eq hc s.inFlow s.keyAllowed s.mark (h.dropWhile_eq hc)
  rw [Scan.arrived, he]

/-- Before a token the scan goes to its first character. -/
theorem Stands.arrived (h : Stands s key depth (c :: cs) ts) (hc : isTokenStart c = true) :
    Stands s.arrived key depth (c :: cs) ts where
  calm := h.calm.arrived
  rest := by rw [h.arrived_rest hc]
  keyAllowed hk := by
    obtain ⟨allowed, m, he, ha⟩ := skipGap_eq hc s.inFlow s.keyAllowed s.mark (h.dropWhile_eq hc)
    rw [Scan.arrived, he]
    exact ha (h.keyAllowed hk)
  depth := by rw [Scan.arrived, List.length_map, h.depth]
  reversed := h.reversed
  count := h.count

theorem Stands.step?_eq (h : Stands s key depth (c :: cs) ts) (hc : isTokenStart c = true) :
    s.step? = s.arrived.next c cs := by
  rw [step?, h.calm.toToken, Option.bind_some, h.arrived_rest hc]

theorem Stands.length_lt (h : Stands s key depth (c :: cs) ts) (hc : isTokenStart c = true) :
    cs.length < s.rest.length := by
  have hd := (List.dropWhile_sublist isFiller (l := s.rest)).length_le
  rw [h.dropWhile_eq hc, List.length_cons] at hd
  omega

/-- Reading the token that starts with the next character is a step. -/
theorem Stands.steps (h : Stands s key depth (c :: cs) ts) (hc : isTokenStart c = true)
    (hn : s.arrived.next c cs = some t) (hr : t.rest.length ≤ cs.length) : Steps s t :=
  .single ((h.step?_eq hc).trans hn) (Nat.lt_of_le_of_lt hr (h.length_lt hc))

theorem Stands.fails (h : Stands s key depth (c :: cs) ts) (hc : isTokenStart c = true)
    (hn : s.arrived.next c cs = none) : s.Fails := by
  intro fuel
  cases fuel with
  | zero => rfl
  | succ fuel => simp [run, h.calm.toToken, h.arrived_rest hc, hn]

end places

section ends

variable {s : Scan} {key : Bool} {cs : List Char} {ts : List Token} {ok : Prop} {fuel : Nat}

theorem skipGap_end (flow allowed : Bool) (m : Mark) {rest : List Char}
    (h : rest.dropWhile isFiller = []) : (skipGap flow false allowed m rest).2.2 = [] := by
  induction rest generalizing allowed m with
  | nil => rfl
  | cons d rest ih =>
    by_cases hd : isFiller d = true
    · rw [List.dropWhile_cons_of_pos hd] at h
      rcases isFiller_iff.mp hd with rfl | rfl
      · simpa [skipGap, isLineBreak] using ih allowed (m.next ' ') h
      · simpa [skipGap, isLineBreak] using ih (allowed || !flow) (m.next '\n') h
    · rw [List.dropWhile_cons_of_neg hd] at h
      cases h

/-- At the end of the text nothing is added to the tokens. -/
theorem Stands.run_end (h : Stands s key 0 [] ts) (fuel : Nat) :
    (run (fuel + 1) s).map Scan.reversed = some ts := by
  have hr : s.arrived.rest = [] := skipGap_end s.inFlow s.keyAllowed s.mark h.rest
  have hc : closeBlocks (-1) s.arrived = s.arrived :=
    closeBlocks_of_columns h.calm.arrived.columns (-1)
  rw [run, h.calm.toToken, Option.bind_eq_bind, Option.bind_some]
  simp only [hr, leave, hc, h.calm.arrived.dropKey, Option.bind_eq_bind, Option.bind_some,
    Option.map_some]
  exact congrArg some h.reversed

/-- A scan that comes to the end of its text has read the tokens on the way there. -/
theorem Leads.run_eq_some_iff (h : Leads s ok fun t => Stands t false 0 [] ts)
    (hf : s.rest.length < fuel) (us : List Token) :
    (run fuel s).map Scan.reversed = some us ↔ ok ∧ us = ts := by
  by_cases hok : ok
  · obtain ⟨t, hst, ht⟩ := h.arrives hok
    obtain ⟨fuel', hf', he⟩ := hst.run_eq hf
    obtain ⟨n, rfl⟩ : ∃ n, fuel' = n + 1 := ⟨fuel' - 1, by omega⟩
    rw [he, ht.run_end, Option.some.injEq, and_iff_right hok, eq_comm]
  · rw [h.fails hok fuel]
    simp [hok]

end ends

end Scan

end TaintPolicy.Yaml
