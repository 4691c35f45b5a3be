import Lexiquery.Proofs.Filter.Lossless

/-! Filters that differ in the order of their children. They yield the same. -/

namespace Lexiquery

namespace Filter

/-- The children of groups may stand in another order, conditions on related rows included. -/
inductive Reordered : Filter → Filter → Prop
  | refl (f : Filter) : Reordered f f
  | trans {f g h : Filter} : Reordered f g → Reordered g h → Reordered f h
  | children {c : Connective} {fs gs : List Filter} :
    fs.Perm gs → Reordered (group c fs) (group c gs)
  | child {c : Connective} {f g : Filter} (before after : List Filter) : Reordered f g →
    Reordered (group c (before ++ f :: after)) (group c (before ++ g :: after))
  | condition (r : Relationship) (t : LinkTest) {f g : Filter} :
    Reordered f g → Reordered (link r t f) (link r t g)

section

variable {store : Store} {r : Relationship} {t : LinkTest} {f g : Filter} {x : Row}
  (hy : ∀ y, f.Yields store y true ↔ g.Yields store y true)
include hy

theorem yields_link_congr :
    (link r t f).Yields store x true ↔ (link r t g).Yields store x true := by
  rw [yields_link, yields_link]
  exact Relationship.asks_congr fun y _ => hy y

theorem joins_link_congr (hj : ∀ y, f.Joins store y ↔ g.Joins store y) :
    (link r t f).Joins store x ↔ (link r t g).Joins store x := by
  have rows (f : Filter) : (link r .hasSome f).Joins store x ↔
      ∃ y, r.Relates store x y ∧ f.Joins store y := by
    simp only [Joins, Yields, Relationship.Yields]
    rw [exists_comm]
    simp only [exists_and_left]
  have reached (f : Filter) : (link r .reachesSome f).Joins store x ↔
      (link r .reachesSome f).Yields store x true := by
    simp [Joins, Yields, Relationship.Yields]
  cases t with
  | hasSome => simp only [rows, hj]
  | reachesSome => rw [reached, reached, yields_link_congr hy]
  | hasNone | reachesNone =>
    exact iff_of_true (joins_link_of_not_positive rfl) (joins_link_of_not_positive rfl)

end

namespace Reordered

variable {f g : Filter}

theorem every {p : Field → Test → Prop} {q : Relationship → LinkTest → Prop}
    (h : f.Reordered g) : f.Every p q → g.Every p q := by
  induction h with
  | refl => exact id
  | trans _ _ ih ih' => exact ih' ∘ ih
  | children h =>
    rw [every_group, every_group]
    intro hf g hg
    exact hf g (h.mem_iff.2 hg)
  | child before after _ ih =>
    simp only [every_group, List.forall_mem_append, List.forall_mem_cons]
    intro hf
    exact ⟨hf.1, ih hf.2.1, hf.2.2⟩
  | condition r t _ ih =>
    rw [every_link, every_link]
    exact And.imp_right ih

theorem overSchema (h : f.Reordered g) : f.OverSchema → g.OverSchema := h.every

theorem wellFormed (h : f.Reordered g) (hf : f.WellFormed) : g.WellFormed :=
  wellFormed_iff.2 (h.every (wellFormed_iff.1 hf))

theorem exists_link {r : Relationship} {t : LinkTest} {first : Filter}
    (h : (link r t first).Reordered g) :
    ∃ first', g = link r t first' ∧ first.Reordered first' := by
  generalize hf : link r t first = f at h
  induction h generalizing first with
  | refl => exact ⟨first, hf.symm, .refl _⟩
  | trans _ _ ih ih' =>
    obtain ⟨second, rfl, h⟩ := ih hf
    obtain ⟨third, rfl, h'⟩ := ih' rfl
    exact ⟨third, rfl, h.trans h'⟩
  | condition _ _ h =>
    cases hf
    exact ⟨_, rfl, h⟩
  | children => cases hf
  | child => cases hf

theorem symm (h : f.Reordered g) : g.Reordered f := by
  induction h with
  | refl => exact .refl _
  | trans _ _ ih ih' => exact ih'.trans ih
  | children h => exact .children h.symm
  | child before after _ ih => exact .child before after ih
  | condition r t _ ih => exact .condition r t ih

theorem along (hops : List Relationship) (h : f.Reordered g) :
    (along hops f).Reordered (Filter.along hops g) := by
  induction hops with
  | nil => exact h
  | cons r hops ih => exact .condition r .hasSome ih

theorem vanishes_iff (h : f.Reordered g) : f.Vanishes ↔ g.Vanishes := by
  induction h with
  | refl => rfl
  | trans _ _ ih ih' => exact ih.trans ih'
  | children h => simp only [vanishes_group, h.mem_iff]
  | child before after _ ih =>
    simp only [vanishes_group, List.forall_mem_append, List.forall_mem_cons, ih]
  | condition => exact iff_of_false not_vanishes_link not_vanishes_link

theorem yields_iff {store : Store} {x : Row} (h : f.Reordered g) :
    (f.compact.Joins store x ↔ g.compact.Joins store x) ∧
      (f.compact.Yields store x true ↔ g.compact.Yields store x true) := by
  induction h generalizing x with
  | refl => exact ⟨.rfl, .rfl⟩
  | trans _ _ ih ih' => exact ⟨ih.1.trans ih'.1, ih.2.trans ih'.2⟩
  | children h =>
    refine ⟨?_, yields_compact_perm h⟩
    simp only [joins_compact_group, h.mem_iff]
  | @child c f g before after h ih =>
    have hv := h.vanishes_iff
    refine ⟨?_, ?_⟩
    · simp only [joins_compact_group, List.forall_mem_append, List.forall_mem_cons, ih.1]
    · cases c with
      | and => simp only [yields_compact_and, List.forall_mem_append, List.forall_mem_cons, ih.2]
      | or =>
        simp only [yields_compact_or, List.mem_append, List.mem_cons, or_imp, forall_and,
          forall_eq, or_and_right, exists_or, exists_eq_left, ih.1, ih.2, hv]
  | @condition r t f g h ih =>
    rw [compact, compact]
    exact ⟨joins_link_congr (fun _ => ih.2) fun _ => ih.1, yields_link_congr fun _ => ih.2⟩

end Reordered

end Filter

end Lexiquery
