import Lexiquery.Proofs.Filter.Construction

/-! Negation as a duality of filters. It exchanges the two connectives and turns every clause
outside of conditions into its opposite; so it passes through combining, compacting and, where no
clause stands on another kind, normalizing. -/

namespace Lexiquery

/-- The clause that asks the opposite. The opposite of a boolean test is the test for the other
value, and a condition on related rows stays what it is. -/
def Clause.negated (c : Clause) : Clause :=
  match c.comparison, c.operand with
  | .boolean, .boolean b => ⟨c.field, .boolean, .boolean !b⟩
  | comparison, operand => ⟨c.field, comparison.negate, operand⟩

namespace Filter

theorem negated_combine (c : Connective) (f g : Filter) :
    (combine c f g).negated = combine c.flip f.negated g.negated := by
  cases f with
  | empty => rfl
  | test => rfl
  | link => rfl
  | group d fs =>
    have same : d.flip = c.flip ↔ d = c := by cases c <;> cases d <;> decide
    simp only [combine, negated, negatedAll_eq, same]
    split
    · simp [negated, negatedAll_eq]
    · simp [negated, negatedAll_eq]

theorem outerClauses_negated (f : Filter) :
    f.negated.outerClauses = f.outerClauses.map Clause.negated := by
  induction f using induction with
  | empty => rfl
  | test f t => cases t <;> rfl
  | link => rfl
  | group c fs ih =>
    have all {fs : List Filter}
        (h : ∀ f ∈ fs, f.negated.outerClauses = f.outerClauses.map Clause.negated) :
        outerClausesAll (negatedAll fs) = (outerClausesAll fs).map Clause.negated := by
      induction fs with
      | nil => rfl
      | cons f fs ih =>
        obtain ⟨hf, hfs⟩ := List.forall_mem_cons.1 h
        rw [negatedAll, outerClausesAll, outerClausesAll, hf, ih hfs, List.map_append]
    rw [negated, outerClauses, outerClauses, all ih]

theorem foreign?_eq_none_iff {f : Filter} {k : Kind} :
    f.foreign? k = none ↔ ∀ c ∈ f.outerClauses, c.field.kind = k := by
  simp [foreign?_eq]

/-- Negating twice changes nothing; the negation of a conjunction is the disjunction of the
negations, and the other way round; outside of conditions every clause is turned into its opposite,
and nothing is added or lost; and it makes no difference whether a filter is negated before or after
it is compacted or, unless a clause outside of conditions stands on another kind, normalized. -/
theorem negation_laws (f g : Filter) (k : Kind) :
    f.negated.negated = f ∧
      (f &&& g).negated = f.negated ||| g.negated ∧
      (f ||| g).negated = f.negated &&& g.negated ∧
      f.negated.outerClauses = f.outerClauses.map Clause.negated ∧
      f.negated.nodeCount = f.nodeCount ∧
      f.negated.compact = f.compact.negated ∧
      ((∀ c ∈ f.outerClauses, c.field.kind = k) →
        f.negated.normalize k = (f.normalize k).negated) := by
  refine ⟨f.negated_negated, negated_combine .and f g, negated_combine .or f g,
    f.outerClauses_negated, f.nodeCount_negated, f.compact_negated, fun h => ?_⟩
  exact normalize_negated (foreign?_eq_none_iff.2 h)

def contrasts : Filter :=
  group .and [link Schema.Word.synonyms .hasSome (formText "glad"),
    link Schema.Word.antonyms .hasNone (test Schema.Word.tagCount (.integer .atLeast 3)),
    link Schema.Word.synonyms .hasSome (test Schema.Word.id (.integer .differs 1)),
    link Schema.Word.antonyms .hasNone (formText "sad")]

theorem contrasts_normalize_negated :
    (∀ c ∈ contrasts.outerClauses, c.field.kind = .word) ∧
      contrasts.outerClauses.length = 4 ∧ (contrasts.normalize .word).outerClauses.length = 2 ∧
      contrasts.negated.normalize .word = (contrasts.normalize .word).negated := by
  have on_words : ∀ c ∈ contrasts.outerClauses, c.field.kind = .word := by
    simp only [contrasts, outerClauses, outerClausesAll, List.cons_append, List.nil_append,
      List.forall_mem_cons]
    exact ⟨rfl, rfl, rfl, rfl, List.forall_mem_nil _⟩
  refine ⟨on_words, rfl, by decide +kernel, ?_⟩
  exact (negation_laws contrasts .empty .word).2.2.2.2.2.2 on_words

end Filter

end Lexiquery
