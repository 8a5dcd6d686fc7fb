import TaintPolicy.Proofs.Distinctness
import TaintPolicy.Proofs.RelevantRules

/-!
# What a compiled file shows

The runtime gets to see the name, the gates and the entries of a selection, and nothing else. Two
selections that sessions come to and that agree in these compile to the same file, whatever the order
of their tools, their descriptions and classes, and the ids and sources of their rules. That the
order of the tools does not count rests on their distinct names: of two tools with one name the last
would win.
-/

namespace TaintPolicy

section gates

/-- The gates that tools show: their own where overrides are honored, otherwise that they are there. -/
def shownGates (honor : Bool) (tools : List Selected) : Fields Gate :=
  tools.map fun t => (t.name, if honor then t.gate else .allow)

theorem names_shownGates (honor : Bool) (tools : List Selected) :
    Fields.names (shownGates honor tools) = tools.map Selected.name := by
  rw [Fields.names, shownGates, List.map_map]
  rfl

theorem mem_shownGates_honored {tools : List Selected} {name : String} {gate : Gate} :
    (name, gate) ∈ shownGates true tools ↔ ∃ t ∈ tools, t.name = name ∧ t.gate = gate := by
  simp [shownGates]

theorem mem_shownGates_ignored {tools : List Selected} {name : String} {gate : Gate} :
    (name, gate) ∈ shownGates false tools ↔ name ∈ tools.map Selected.name ∧ gate = .allow := by
  simp only [shownGates, Bool.false_eq_true, if_false, List.mem_map, Prod.mk.injEq]
  constructor
  · rintro ⟨t, ht, rfl, rfl⟩
    exact ⟨⟨t, ht, rfl⟩, rfl⟩
  · rintro ⟨⟨t, ht, rfl⟩, rfl⟩
    exact ⟨t, ht, rfl, rfl⟩

/-- Two maps with the same entries are the same map. -/
theorem KeyMap.eq_of_perm {α : Type} {m n : KeyMap α} (h : m.entries.Perm n.entries) : m = n := by
  apply KeyMap.ext
  apply List.Perm.eq_of_pairwise _ m.sorted n.sorted h
  intro a b _ _ hab hba
  exact absurd (String.lt_trans hab hba) (String.lt_irrefl _)

/-- Tools with distinct names are gated by what they show, in any order. -/
theorem compileGates_congr {honor : Bool} {tools tools' : List Selected}
    (hn : (tools.map Selected.name).Nodup) (hn' : (tools'.map Selected.name).Nodup)
    (h : ∀ g, g ∈ shownGates honor tools ↔ g ∈ shownGates honor tools') :
    compileGates honor tools = compileGates honor tools' := by
  have hs : (shownGates honor tools).Nodup := .of_map _ (names_shownGates honor tools ▸ hn)
  have hs' : (shownGates honor tools').Nodup := .of_map _ (names_shownGates honor tools' ▸ hn')
  have hp : (shownGates honor tools).Perm (shownGates honor tools') :=
    (List.perm_ext_iff_of_nodup hs hs').mpr h
  apply KeyMap.eq_of_perm
  exact ((entries_compileGates_perm hn honor).trans hp).trans
    (entries_compileGates_perm hn' honor).symm

end gates

section selections

/-- The tools agree in what a file shows of them: their names and, where overrides are honored, the
gate of each. -/
def SameGates (honor : Bool) (s s' : Selection) : Prop :=
  if honor then
    ∀ name gate, (∃ t ∈ s.tools, t.name = name ∧ t.gate = gate) ↔
      ∃ t ∈ s'.tools, t.name = name ∧ t.gate = gate
  else ∀ name, name ∈ s.toolNames ↔ name ∈ s'.toolNames

/-- Two selections agree in all that a file shows of them. -/
structure SameView (honor : Bool) (s s' : Selection) : Prop where
  name : trim s.policyName = trim s'.policyName
  gates : SameGates honor s s'
  entries : s.rules.map (fun r => r.rule.toEntry) = s'.rules.map fun r => r.rule.toEntry

variable {honor : Bool} {s s' : Selection}

theorem SameGates.mem_shownGates (h : SameGates honor s s') (g : String × Gate) :
    g ∈ shownGates honor s.tools ↔ g ∈ shownGates honor s'.tools := by
  obtain ⟨name, gate⟩ := g
  cases honor with
  | true =>
    rw [mem_shownGates_honored, mem_shownGates_honored]
    exact h name gate
  | false =>
    rw [mem_shownGates_ignored, mem_shownGates_ignored]
    exact and_congr_left' (h name)

theorem policyName_congr {name name' : String} (h : trim name = trim name') :
    policyName name = policyName name' := by
  rw [policyName, policyName, h]

/-- With distinct tools a compiled file shows nothing but the view. -/
theorem compile_eq_of_sameView (hn : s.toolNames.Nodup) (hn' : s'.toolNames.Nodup)
    (h : SameView honor s s') : s.compile honor = s'.compile honor := by
  have hg := compileGates_congr hn hn' h.gates.mem_shownGates
  simp only [Selection.compile, compileParts, policyName_congr h.name, hg, h.entries]

/-- From nothing or from a policy that was read back in some mode with some catalog, by any
operations. -/
def IsSession (s : Selection) : Prop :=
  Reachable (fun s => ∃ catalog mode, IsOpening catalog mode s) (fun _ => True) s

theorem IsSession.nodup_toolNames (h : IsSession s) : s.toolNames.Nodup := by
  have hstart : ∀ s, (∃ catalog mode, IsOpening catalog mode s) → s.toolNames.Nodup := by
    rintro s ⟨catalog, mode, ho⟩
    exact nodup_toolNames_of_isOpening ho
  exact h.invariant hstart fun _ op _ hs => nodup_toolNames_run op hs

theorem IsSession.run (h : IsSession s) (op : Operation) : IsSession (op.run s) :=
  .step h trivial

end selections

section operations

variable (s : Selection)

theorem policyName_reorderTool (name target : String) :
    (s.reorderTool name target).2.policyName = s.policyName := by
  simp only [Selection.reorderTool]
  split
  · split <;> rfl
  · rfl

theorem sameView_reorderTool (honor : Bool) (name target : String) :
    SameView honor (s.reorderTool name target).2 s where
  name := by rw [policyName_reorderTool]
  gates := by
    have hp := s.tools_reorderTool_perm name target
    cases honor with
    | true => exact fun name gate => exists_congr fun t => and_congr_left' hp.mem_iff
    | false => exact fun name => (hp.map Selected.name).mem_iff
  entries := by rw [s.rules_reorderTool]

theorem compileGates_reclassify (honor : Bool) (name : String) (c : TaintClass) :
    compileGates honor (s.reclassify name c).2.tools = compileGates honor s.tools := by
  apply congrArg KeyMap.ofList
  apply Selection.map_changeFirst
  intro t
  rfl

theorem compileGates_setGate (name : String) (gate : Gate) :
    compileGates false (s.setGate name gate).2.tools = compileGates false s.tools := by
  apply congrArg KeyMap.ofList
  apply Selection.map_changeFirst
  intro t
  rfl

theorem focus_setGate (name : String) (gate : Gate) :
    (s.setGate name gate).2.focus = s.focus := by
  have hc : (s.setGate name gate).2.tools.map (fun t => t.tool.taintClass) =
      s.tools.map fun t => t.tool.taintClass := by
    apply Selection.map_changeFirst
    intro t
    rfl
  rw [Selection.focus, Selection.toolNames_setGate, hc, Selection.focus]

/-- Relevance asks for members, so the order of the tools does not count. -/
theorem Focus.filter_congr {f g : Focus} (ht : f.tools.Perm g.tools)
    (hc : f.classes.Perm g.classes) (corpus : List NamedRule) : f.filter corpus = g.filter corpus := by
  have hu : f.isUnfiltered = g.isUnfiltered := by
    rw [isUnfiltered, isUnfiltered, ht.isEmpty_eq, hc.isEmpty_eq]
  have hm : ∀ r, f.matchesRule r = g.matchesRule r := by
    intro r
    rw [Bool.eq_iff_iff, matchesRule_iff, matchesRule_iff]
    simp only [ht.mem_iff, hc.mem_iff]
  simp only [filter, isRelevant, hu, hm]

theorem suggest_reorderTool (name target : String) (corpus : List NamedRule) :
    (s.reorderTool name target).2.suggest corpus = s.suggest corpus := by
  have hp := s.tools_reorderTool_perm name target
  exact Focus.filter_congr (hp.map _) (hp.map _) corpus

end operations

/-- Sessions that end in selections with the same name but for blanks, the same gates and the same
entries compile to the same file. So moving or reclassifying a tool never changes the file, gating it
does not where overrides are not honored, and neither moving nor gating it changes what is
suggested. -/
theorem compile_depends_on_view (honor : Bool) :
    (∀ s s', IsSession s → IsSession s' → SameView honor s s' →
      s.compile honor = s'.compile honor) ∧
    ∀ s, IsSession s →
      (∀ name target, (s.reorderTool name target).2.compile honor = s.compile honor) ∧
      (∀ name c, (s.reclassify name c).2.compile honor = s.compile honor) ∧
      (∀ name gate, (s.setGate name gate).2.compile false = s.compile false) ∧
      ∀ name corpus,
        (∀ target, (s.reorderTool name target).2.suggest corpus = s.suggest corpus) ∧
        ∀ gate, (s.setGate name gate).2.suggest corpus = s.suggest corpus := by
  refine ⟨fun s s' hs hs' h => ?_, fun s hs => ⟨?_, ?_, ?_, ?_⟩⟩
  · exact compile_eq_of_sameView hs.nodup_toolNames hs'.nodup_toolNames h
  · intro name target
    have hr := hs.run (.reorderTool name target)
    exact compile_eq_of_sameView hr.nodup_toolNames hs.nodup_toolNames
      (sameView_reorderTool s honor name target)
  · intro name c
    simp only [Selection.compile, compileParts, compileGates_reclassify]
    rfl
  · intro name gate
    simp only [Selection.compile, compileParts, compileGates_setGate]
    rfl
  · intro name corpus
    refine ⟨fun target => suggest_reorderTool s name target corpus, fun gate => ?_⟩
    rw [Selection.suggest, focus_setGate, Selection.suggest]

section desks

/-! Two sessions that choose the same tools in another order and with other classes, and the same
rule under another id. -/

def firstDesk : List Operation :=
  [.rename " nightly", .addTool (.ofClass "shell" .unsafeExecute ""),
    .addTool (.ofClass "read_file" .sensitiveRead ""), .setGate "shell" .deny,
    .addRule ⟨"T-0", "T", .forTool .checkTaint "shell"⟩]

def secondDesk : List Operation :=
  [.addTool (.ofClass "read_file" .safeRead "Reads."), .addTool (.ofClass "shell" .safeWrite ""),
    .setGate "shell" .deny, .rename "nightly ",
    .addRule ⟨"r-1", importedSource, { action := .checkTaint, tool := some "shell", tag := some "" }⟩]

theorem compile_depends_on_view_desks :
    SameView true (firstDesk.foldl Operation.run {}) (secondDesk.foldl Operation.run {}) ∧
    (firstDesk.foldl Operation.run {}).compile true =
      (secondDesk.foldl Operation.run {}).compile true ∧
    ((firstDesk.foldl Operation.run {}).reclassify "shell" .sanitizer).2.compile true =
      (firstDesk.foldl Operation.run {}).compile true := by
  have hs : ∀ ops : List Operation, IsSession (ops.foldl Operation.run {}) := fun ops =>
    (Reachable.start ⟨officeCatalog, .strict, .inl rfl⟩).foldl_run fun _ _ => trivial
  have h₁ : (firstDesk.foldl Operation.run {}).tools =
      [⟨.ofClass "shell" .unsafeExecute "", .deny⟩,
        ⟨.ofClass "read_file" .sensitiveRead "", .allow⟩] := by decide
  have h₂ : (secondDesk.foldl Operation.run {}).tools =
      [⟨.ofClass "read_file" .safeRead "Reads.", .allow⟩,
        ⟨.ofClass "shell" .safeWrite "", .deny⟩] := by decide
  have hg : SameGates true (firstDesk.foldl Operation.run {})
      (secondDesk.foldl Operation.run {}) := by
    intro name gate
    rw [h₁, h₂]
    simp [Selected.name, Tool.ofClass, or_comm]
  have hv : SameView true (firstDesk.foldl Operation.run {})
      (secondDesk.foldl Operation.run {}) := ⟨by decide, hg, by decide⟩
  exact ⟨hv, (compile_depends_on_view true).1 _ _ (hs _) (hs _) hv,
    ((compile_depends_on_view true).2 _ (hs _)).2.1 _ _⟩

end desks

end TaintPolicy
