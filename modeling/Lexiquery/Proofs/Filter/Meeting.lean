import Lexiquery.Proofs.Filter.Every

/-! Where a child meets its siblings. Links that ask the same of the same related rows become one
link, and so may the children of the group that their conditions become. As long as they ask for
some related row, it is a group under the same connective. -/

namespace Lexiquery

namespace Sibling

/-- The conditions that a link asks for, each by itself. -/
def conditions : Sibling → List Sibling
  | single (.link _ _ first) => [single first]
  | merged _ _ _ conditions => conditions
  | _ => []

/-- A filter that is put beside a sibling either stays apart from it; or the two merge, something
holds of what they ask for, and the condition of the filter is put beside those of the sibling in
the same way. -/
inductive Meets (p : LinkTest → List Sibling → Filter → Prop) :
    Connective → Sibling → Filter → Prop
  | apart {c : Connective} {s : Sibling} {f : Filter} : ¬ Filter.Merges c s.toFilter f →
    Meets p c s f
  | merge {c : Connective} {s : Sibling} {r : Relationship} {t : LinkTest} {condition : Filter} :
    Filter.Merges c s.toFilter (.link r t condition) → p t s.conditions condition →
    (∀ s' ∈ s.conditions, Meets p (t.within c) s' condition) → Meets p c s (.link r t condition)

namespace Meets

variable {p q : LinkTest → List Sibling → Filter → Prop} {c : Connective} {s : Sibling}

theorem of_merges {r : Relationship} {t : LinkTest} {condition : Filter}
    (h : Meets p c s (.link r t condition))
    (hm : Filter.Merges c s.toFilter (.link r t condition)) :
    p t s.conditions condition ∧ ∀ s' ∈ s.conditions, Meets p (t.within c) s' condition := by
  cases h with
  | apart ha => exact absurd hm ha
  | merge _ hp hc => exact ⟨hp, hc⟩

theorem and {f : Filter} (h : Meets p c s f) (h' : Meets q c s f) :
    Meets (fun t ss g => p t ss g ∧ q t ss g) c s f := by
  induction h with
  | apart ha => exact .apart ha
  | merge hm hp _ ih =>
    obtain ⟨hq, hc⟩ := h'.of_merges hm
    exact .merge hm ⟨hp, hq⟩ fun s' hs => ih s' hs (hc s' hs)

theorem mono {f : Filter} (h : Meets p c s f) (hpq : ∀ {t ss g}, p t ss g → q t ss g) :
    Meets q c s f := by
  induction h with
  | apart ha => exact .apart ha
  | merge hm hp _ ih => exact .merge hm (hpq hp) ih

end Meets

end Sibling

namespace Filter

theorem Positive.meets {c : Connective} {s : Sibling} {f : Filter} (hf : f.Positive) :
    s.Meets (fun t _ _ => t.isPositive = true) c f := by
  induction f using induction generalizing c s with
  | link r t condition ih =>
    obtain ⟨⟨-, ht⟩, hc⟩ := positive_link.1 hf
    by_cases hm : Merges c s.toFilter (link r t condition)
    · exact .merge hm ht fun _ _ => ih hc
    · exact .apart hm
  | _ => exact .apart (by simp [Merges])

/-- How a child is added to the others of a group if it meets them positively: at the end, in a link
whose condition becomes a group, or in one whose condition is such a group already. Something holds
of the conditions that it is put beside. -/
inductive Adds (p : List Filter → Filter → Prop) (c : Connective) :
    Filter → List Filter → List Filter → Prop
  | last {f : Filter} {fs : List Filter} : Adds p c f fs (fs ++ [f])
  | join {r : Relationship} {t : LinkTest} {f first : Filter} {fs before after : List Filter} :
    t.isPositive = true → p [first] f → Adds p c f [first] fs → Adds p c (link r t f)
      (before ++ link r t first :: after) (before ++ link r t (group c fs) :: after)
  | add {r : Relationship} {t : LinkTest} {f : Filter} {fs gs before after : List Filter} :
    t.isPositive = true → p fs f → Adds p c f fs gs → Adds p c (link r t f)
      (before ++ link r t (group c fs) :: after) (before ++ link r t (group c gs) :: after)

theorem adds_insert {p : List Filter → Filter → Prop} {c : Connective} {f : Filter}
    {ss : List Sibling} (hu : ∀ s ∈ ss, s.Under c) (hf : f.OverSchema)
    (hss : ∀ s ∈ ss, s.toFilter.OverSchema)
    (hm : ∀ s ∈ ss,
      s.Meets (fun t ss g => t.isPositive = true ∧ p (ss.map Sibling.toFilter) g) c f) :
    Adds p c f (ss.map Sibling.toFilter) ((Sibling.insert f c ss).map Sibling.toFilter) := by
  refine Sibling.insert_induction (motive := fun f d ss ss' => d = c → (∀ s ∈ ss, s.Under c) →
    f.OverSchema → (∀ s ∈ ss, s.toFilter.OverSchema) →
    (∀ s ∈ ss, s.Meets (fun t ss g => t.isPositive = true ∧ p (ss.map Sibling.toFilter) g) c f) →
    Adds p c f (ss.map Sibling.toFilter) (ss'.map Sibling.toFilter))
    ?_ ?_ ?_ f c ss hu rfl hu hf hss hm
  · intro f _ ss _ _ _ _ _ _
    rw [List.map_append]
    exact .last
  · rintro r s t condition first c before after ht hr _ ih rfl _ hf hss hm
    simp only [List.forall_mem_append, List.forall_mem_cons, Sibling.toFilter] at hss hm
    obtain ⟨hrd, hcondition⟩ := every_link.1 hf
    obtain ⟨hsd, hfirst⟩ := every_link.1 hss.2.1
    obtain rfl := hrd.eq_of_beq hsd hr
    obtain ⟨⟨hpos, hp⟩, hc⟩ :=
      hm.2.1.of_merges (Sibling.merges_toFilter_iff.2 ⟨_, _, _, rfl, ht, hr, rfl⟩)
    have hw : t.within c = c := by rw [LinkTest.within, if_pos hpos]
    rw [hw] at ih hc
    simp only [hw, List.map_append, List.map_cons, Sibling.toFilter, Sibling.toFilters_eq]
    refine .join hpos hp (ih rfl ?_ hcondition ?_ hc)
    · simp [Sibling.Under.single]
    · rw [List.forall_mem_singleton]
      exact hfirst
  · rintro r s t condition conditions c before after ht hr _ ih rfl hu hf hss hm
    simp only [List.forall_mem_append, List.forall_mem_cons, Sibling.toFilter,
      Sibling.toFilters_eq] at hu hss hm
    obtain ⟨hrd, hcondition⟩ := every_link.1 hf
    obtain ⟨hsd, hconditions⟩ := every_link.1 hss.2.1
    obtain rfl := hrd.eq_of_beq hsd hr
    obtain ⟨⟨hpos, hp⟩, hc⟩ :=
      hm.2.1.of_merges (Sibling.merges_toFilter_iff.2 ⟨_, _, _, rfl, ht, hr, rfl⟩)
    have hw : t.within c = c := by rw [LinkTest.within, if_pos hpos]
    rw [hw] at ih hu hconditions hc
    simp only [hw, List.map_append, List.map_cons, Sibling.toFilter, Sibling.toFilters_eq]
    refine .add hpos hp (ih rfl (Sibling.under_merged_iff.1 hu.2.1).2.2 hcondition ?_ hc)
    exact List.forall_mem_map.1 (every_group.1 hconditions)

end Filter

end Lexiquery
