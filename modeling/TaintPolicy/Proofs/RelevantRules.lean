import TaintPolicy.Proofs.Session

/-!
# Rules that matter to more tools

A rule matters to a union of two foci exactly if it matters to one of them, as long as both hold
something: with nothing chosen every rule is shown, so that the empty focus is the largest filter and
not the smallest. Hence choosing further tools beside at least one tool hides no rule.
-/

namespace TaintPolicy

/-- The classes that a rule mentions, that of its target first. -/
def Rule.classes (r : Rule) : List TaintClass :=
  r.toolClass.toList ++ (r.pattern.map Pattern.classes).getD []

namespace Focus

/-- Holds the names and the classes of two others, in any order and any number. -/
structure IsUnion (f g k : Focus) : Prop where
  tools : ∀ name, name ∈ f.tools ↔ name ∈ g.tools ∨ name ∈ k.tools
  classes : ∀ c, c ∈ f.classes ↔ c ∈ g.classes ∨ c ∈ k.classes

/-- Holds nothing that the other does not hold. -/
structure Within (f g : Focus) : Prop where
  tools : ∀ name ∈ f.tools, name ∈ g.tools
  classes : ∀ c ∈ f.classes, c ∈ g.classes

variable {f g k : Focus}

theorem isUnfiltered_iff : f.isUnfiltered = true ↔ f.tools = [] ∧ f.classes = [] := by
  simp [isUnfiltered]

/-- The five kinds of targets come down to a name and a list of classes. -/
theorem matchesRule_iff {r : Rule} :
    f.matchesRule r = true ↔
      (∃ name, r.tool = some name ∧ name ∈ f.tools) ∨ ∃ c ∈ r.classes, c ∈ f.classes := by
  have ht : r.tool.any (f.tools.contains ·) = true ↔
      ∃ name, r.tool = some name ∧ name ∈ f.tools := by
    cases r.tool <;> simp
  have hc : r.toolClass.any (f.classes.contains ·) = true ↔
      ∃ c ∈ r.toolClass.toList, c ∈ f.classes := by
    cases r.toolClass <;> simp
  have hp : (r.pattern.any fun p => p.classes.any (f.classes.contains ·)) = true ↔
      ∃ c ∈ (r.pattern.map Pattern.classes).getD [], c ∈ f.classes := by
    cases r.pattern <;> simp
  rw [matchesRule, Bool.or_eq_true, Bool.or_eq_true, ht, hc, hp, or_assoc]
  simp only [Rule.classes, List.mem_append, or_and_right, exists_or]

/-- A focus that holds something shows exactly the rules that match it. -/
theorem isRelevant_eq_matchesRule (h : f.isUnfiltered = false) (r : Rule) :
    f.isRelevant r = f.matchesRule r := by
  rw [isRelevant, h, Bool.false_or]

theorem IsUnion.isUnfiltered (h : f.IsUnion g k) (hg : g.isUnfiltered = false) :
    f.isUnfiltered = false := by
  rw [← Bool.not_eq_true, isUnfiltered_iff] at hg ⊢
  rintro ⟨ht, hc⟩
  refine hg ⟨?_, ?_⟩
  · apply List.eq_nil_iff_forall_not_mem.mpr
    intro name hname
    exact absurd ((h.tools name).mpr (.inl hname)) (by simp [ht])
  · apply List.eq_nil_iff_forall_not_mem.mpr
    intro c hm
    exact absurd ((h.classes c).mpr (.inl hm)) (by simp [hc])

theorem IsUnion.matchesRule_iff (h : f.IsUnion g k) (r : Rule) :
    f.matchesRule r = true ↔ g.matchesRule r = true ∨ k.matchesRule r = true := by
  simp only [Focus.matchesRule_iff, h.tools, h.classes, and_or_left, exists_or]
  exact or_or_or_comm

theorem IsUnion.isRelevant_iff (h : f.IsUnion g k) (hg : g.isUnfiltered = false)
    (hk : k.isUnfiltered = false) (r : Rule) :
    f.isRelevant r = true ↔ g.isRelevant r = true ∨ k.isRelevant r = true := by
  rw [isRelevant_eq_matchesRule (h.isUnfiltered hg), isRelevant_eq_matchesRule hg,
    isRelevant_eq_matchesRule hk, h.matchesRule_iff]

/-- A larger focus is its own union with the smaller one. -/
theorem Within.isUnion (h : f.Within g) : g.IsUnion f g where
  tools name := ⟨.inr, fun hm => hm.elim (h.tools name) id⟩
  classes c := ⟨.inr, fun hm => hm.elim (h.classes c) id⟩

theorem Within.isUnfiltered (h : f.Within g) (hf : f.isUnfiltered = false) :
    g.isUnfiltered = false :=
  h.isUnion.isUnfiltered hf

theorem Within.isRelevant (h : f.Within g) (hf : f.isUnfiltered = false) {r : Rule}
    (hr : f.isRelevant r = true) : g.isRelevant r = true :=
  (h.isUnion.isRelevant_iff hf (h.isUnfiltered hf) r).mpr (.inl hr)

theorem Within.filter_sublist (h : f.Within g) (hf : f.isUnfiltered = false)
    (corpus : List NamedRule) : (f.filter corpus).Sublist (g.filter corpus) :=
  List.monotone_filter_right corpus fun _ hr => h.isRelevant hf hr

end Focus

namespace Selection

variable {s : Selection}

theorem isUnfiltered_focus_iff : s.focus.isUnfiltered = true ↔ s.tools = [] := by
  simp [Focus.isUnfiltered_iff, focus, toolNames]

/-- Choosing one more tool keeps the names and the classes of those chosen before. -/
theorem focus_within_addTool (s : Selection) (t : Tool) : s.focus.Within (s.addTool t).2.focus := by
  have hs : ∀ u ∈ s.tools, u ∈ (s.addTool t).2.tools := by
    intro u hu
    rw [addTool]
    split
    · exact hu
    · exact List.mem_append_left _ hu
  constructor
  · intro name hname
    obtain ⟨u, hu, rfl⟩ := List.mem_map.mp hname
    exact List.mem_map_of_mem (hs u hu)
  · intro c hc
    obtain ⟨u, hu, rfl⟩ := List.mem_map.mp hc
    exact List.mem_map_of_mem (hs u hu)

end Selection

/-- Where two foci hold something, a rule is relevant to their union exactly if it is relevant to one
of them, and the union shows these rules, each as often as the corpus lists it and in its order. So
a focus that holds something shows a part of what any larger focus shows; in particular choosing one
more tool beside at least one tool hides no suggested rule. Beside no tool the whole corpus is
suggested. -/
theorem relevance_distributes_over_union :
    (∀ f g k : Focus, f.IsUnion g k → g.isUnfiltered = false → k.isUnfiltered = false →
      (∀ r, f.isRelevant r = true ↔ g.isRelevant r = true ∨ k.isRelevant r = true) ∧
      ∀ corpus, (f.filter corpus).Sublist corpus ∧
        f.filter corpus = corpus.filter fun r => g.isRelevant r.rule || k.isRelevant r.rule) ∧
    (∀ f g : Focus, f.Within g → f.isUnfiltered = false →
      ∀ corpus, (f.filter corpus).Sublist (g.filter corpus)) ∧
    (∀ s : Selection, s.tools ≠ [] →
      ∀ t corpus, (s.suggest corpus).Sublist ((s.addTool t).2.suggest corpus)) ∧
    ∀ s : Selection, s.tools = [] → ∀ corpus, s.suggest corpus = corpus := by
  refine ⟨?_, fun f g h hf => h.filter_sublist hf, ?_, ?_⟩
  · intro f g k h hg hk
    have hr := h.isRelevant_iff hg hk
    refine ⟨hr, fun corpus => ⟨List.filter_sublist, ?_⟩⟩
    apply List.filter_congr
    intro r _
    rw [Bool.eq_iff_iff, Bool.or_eq_true]
    exact hr r.rule
  · intro s hs t corpus
    have hf : s.focus.isUnfiltered = false := by
      rw [← Bool.not_eq_true, Selection.isUnfiltered_focus_iff]
      exact hs
    exact (s.focus_within_addTool t).filter_sublist hf corpus
  · intro s hs corpus
    exact Focus.filter_of_isUnfiltered (Selection.isUnfiltered_focus_iff.mpr hs) corpus

section readers

/-! A tool that reads beside one that runs commands, and rules with a target by name, a target by
class, a sequence and a condition. -/

def readFocus : Focus := ⟨["read_file"], [.sensitiveRead]⟩

def shellFocus : Focus := ⟨["shell"], [.unsafeExecute]⟩

def readSelection : Selection := { tools := [⟨.ofClass "read_file" .sensitiveRead "", .allow⟩] }

def mixedCorpus : List NamedRule :=
  [⟨"T-0", "T", .forTool .addTaint "shell"⟩,
    ⟨"T-1", "T", .forClass .checkTaint .safeWrite⟩,
    ⟨"T-2", "T", .forPattern .blockCurrent (.sequence ⟨[.safeRead, .sensitiveRead], some 2⟩)⟩,
    ⟨"T-3", "T", .forPattern .blockCurrent (.logic ⟨some [⟨none, none⟩, ⟨none, some .unsafeExecute⟩],
      some []⟩)⟩]

theorem relevance_distributes_over_union_readers :
    (Focus.mk ["shell", "read_file"] [.sensitiveRead, .unsafeExecute]).filter mixedCorpus =
      (mixedCorpus.filter fun r => readFocus.isRelevant r.rule || shellFocus.isRelevant r.rule) ∧
    (readFocus.filter mixedCorpus).Sublist
      ((Focus.mk ["shell", "read_file"] [.sensitiveRead, .unsafeExecute]).filter mixedCorpus) ∧
    (readSelection.suggest mixedCorpus).Sublist
      ((readSelection.addTool (.ofClass "shell" .unsafeExecute "")).2.suggest mixedCorpus) ∧
    ({} : Selection).suggest mixedCorpus = mixedCorpus := by
  have hu : (Focus.mk ["shell", "read_file"] [.sensitiveRead, .unsafeExecute]).IsUnion
      readFocus shellFocus :=
    ⟨by simp [readFocus, shellFocus, or_comm], by simp [readFocus, shellFocus]⟩
  have hw : readFocus.Within (Focus.mk ["shell", "read_file"] [.sensitiveRead, .unsafeExecute]) :=
    ⟨by simp [readFocus], by simp [readFocus]⟩
  exact ⟨((relevance_distributes_over_union.1 _ _ _ hu rfl rfl).2 _).2,
    relevance_distributes_over_union.2.1 _ _ hw rfl _,
    relevance_distributes_over_union.2.2.1 _ (by simp [readSelection]) _ _,
    relevance_distributes_over_union.2.2.2 _ rfl _⟩

end readers

end TaintPolicy
