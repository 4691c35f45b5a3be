import Lexiquery.Proofs.Filter.Outcome

/-! Filters that yield what they say. The joins of a link stand beside those of all its siblings, so
an alternative may cost a record the rows that others would join; where no alternative joins rows,
none does. -/

namespace Lexiquery

namespace Filter

/-- No clause of the filter joins the related rows themselves. Conditions on related rows are not
part of it. -/
inductive Unjoined : Filter → Prop
  | empty : Unjoined empty
  | test {f : Field} {t : Test} : Unjoined (test f t)
  | link {r : Relationship} {t : LinkTest} {condition : Filter} :
    t.isPositive = false → Unjoined (link r t condition)
  | group {c : Connective} {fs : List Filter} : (∀ f ∈ fs, Unjoined f) → Unjoined (group c fs)

/-- Of two or more alternatives none joins related rows, conditions on related rows included. -/
inductive Guarded : Filter → Prop
  | empty : Guarded empty
  | test {f : Field} {t : Test} : Guarded (test f t)
  | link {r : Relationship} {t : LinkTest} {condition : Filter} :
    Guarded condition → Guarded (link r t condition)
  | group {c : Connective} {fs : List Filter} : (∀ f ∈ fs, Guarded f) →
    (c = .or → 2 ≤ fs.length → ∀ f ∈ fs, Unjoined f) → Guarded (group c fs)

theorem guarded_link_iff {r : Relationship} {t : LinkTest} {condition : Filter} :
    (link r t condition).Guarded ↔ condition.Guarded :=
  ⟨fun h => by cases h with | link h => exact h, .link⟩

theorem guarded_group_iff {c : Connective} {fs : List Filter} : (group c fs).Guarded ↔
    (∀ f ∈ fs, f.Guarded) ∧ (c = .or → 2 ≤ fs.length → ∀ f ∈ fs, f.Unjoined) :=
  ⟨fun h => by cases h with | group h hu => exact ⟨h, hu⟩, fun h => .group h.1 h.2⟩

theorem unjoined_link_iff {r : Relationship} {t : LinkTest} {condition : Filter} :
    (link r t condition).Unjoined ↔ t.isPositive = false :=
  ⟨fun h => by cases h with | link h => exact h, .link⟩

variable {store : Store} {k : Kind} {x : Row}

theorem Unjoined.joins {f : Filter} (h : f.Unjoined) : f.Joins store x := by
  induction h with
  | empty => exact ⟨true, by rw [Yields]⟩
  | test => exact joins_test
  | link ht => exact joins_link_of_not_positive ht
  | group _ ih => exact joins_group.2 ih

theorem yields_or_of_unjoined {fs : List Filter} (hne : fs ≠ [])
    (hu : 2 ≤ fs.length → ∀ f ∈ fs, f.Unjoined) :
    (group .or fs).Yields store x true ↔ ∃ f ∈ fs, f.Yields store x true := by
  rw [yields_or hne, and_iff_right_of_imp]
  rintro ⟨f, hf, hy⟩ g hg
  by_cases hl : 2 ≤ fs.length
  · exact (hu hl g hg).joins
  · match fs, hl with
    | [f'], _ =>
      obtain rfl := List.mem_singleton.1 hf
      obtain rfl := List.mem_singleton.1 hg
      exact hy.joins
    | f :: g :: fs, hl => simp at hl

theorem Guarded.yields_iff {f : Filter} (hg : f.Guarded) (hn : f.Normal k) (hc : f.Compacted) :
    f.Yields store x true ↔ f.Holds store k x := by
  induction hg generalizing k x with
  | empty => simp [Yields, Holds]
  | test =>
    obtain rfl := normal_test_iff.1 hn
    simp [Yields, holds_test rfl]
  | link _ ih =>
    obtain ⟨rfl, hn'⟩ := normal_link_iff.1 hn
    cases hc with
    | link hc =>
      rw [yields_link, holds_link rfl]
      exact Relationship.asks_congr fun y _ => ih hn' hc
  | @group c fs _ hu ih =>
    cases hc with
    | group hne hne' hc =>
      have ih {f : Filter} (hf : f ∈ fs) :=
        ih f hf (x := x) ((normal_group_iff.1 hn).1 f hf) (hc f hf)
      cases c with
      | and =>
        rw [yields_and, holds_and]
        exact forall₂_congr fun f hf => ih hf
      | or =>
        have hv : ¬ (Filter.group .or fs).Vanishes :=
          (Compacted.group hne hne' hc).not_vanishes (by simp)
        rw [yields_or_of_unjoined hne (hu rfl), holds_or, or_iff_right hv]
        refine exists_congr fun f => and_congr_right fun hf => (ih hf).trans ?_
        exact (and_iff_right ((hc f hf).not_vanishes (hne' f hf))).symm

theorem Positive.holds_of_yields {f : Filter} (hf : f.Positive) (hn : f.Normal k)
    (hc : f.Compacted) (h : f.Yields store x true) : f.Holds store k x := by
  induction hc generalizing k x with
  | empty => trivial
  | test =>
    obtain rfl := normal_test_iff.1 hn
    exact (holds_test rfl).2 (h.1 rfl)
  | link _ ih =>
    obtain ⟨rfl, hn'⟩ := normal_link_iff.1 hn
    obtain ⟨⟨-, hpos⟩, hf'⟩ := positive_link.1 hf
    exact (holds_link rfl).2 ((yields_link.1 h).mono hpos fun y _ => ih hf' hn')
  | @group c fs hne hne' hc ih =>
    have ih {f : Filter} (hm : f ∈ fs) :=
      ih f hm (x := x) (positive_group.1 hf f hm) ((normal_group_iff.1 hn).1 f hm)
    cases c with
    | and => exact holds_and.2 fun f hm => ih hm (yields_and.1 h f hm)
    | or =>
      obtain ⟨f, hm, hy⟩ := ((yields_or hne).1 h).2
      exact holds_or.2 (.inr ⟨f, hm, (hc f hm).not_vanishes (hne' f hm), ih hm hy⟩)

end Filter

end Lexiquery
