import Lexiquery.Proofs.Filter.Alternatives

/-! Merging without loss. A link that joins others comes to ask for one related row what they ask
for each; under the connective at hand that is the same where the condition that must hold of the
one row is a disjunction, or where there is one related row at most. -/

namespace Lexiquery

def Relationship.Single (store : Store) (r : Relationship) : Prop :=
  ∀ x ∈ store.records r.kind, ∀ y z, r.Relates store x y → r.Relates store x z → y = z

theorem Relationship.asks_combines {store : Store} {r : Relationship} {t : LinkTest}
    {c : Connective} (ht : t.mergesUnder c = true) (hr : t.within c = .and → r.Single store)
    {P Q : Row → Prop} {x : Row} (hx : x ∈ store.records r.kind) :
    r.Asks store t (fun y => (t.within c).Combines (P y) (Q y)) x ↔
      c.Combines (r.Asks store t P x) (r.Asks store t Q x) := by
  have one (h : r.Single store) : (∃ y, r.Relates store x y ∧ P y ∧ Q y) ↔
      (∃ y, r.Relates store x y ∧ P y) ∧ ∃ y, r.Relates store x y ∧ Q y := by
    constructor
    · exact fun ⟨y, hy, hp, hq⟩ => ⟨⟨y, hy, hp⟩, y, hy, hq⟩
    · rintro ⟨⟨y, hy, hp⟩, z, hz, hq⟩
      exact ⟨y, hy, hp, h x hx y z hy hz ▸ hq⟩
  cases c with
  | and =>
    cases t with
    | hasSome => exact one (hr rfl)
    | reachesSome => cases ht
    | hasNone | reachesNone =>
      simp only [Asks, LinkTest.within, LinkTest.isPositive, Connective.flip, Connective.Combines,
        Bool.false_eq_true, if_false, and_or_left, exists_or, not_or]
  | or =>
    cases t with
    | hasSome | reachesSome => exact asks_or rfl
    | hasNone => exact (not_congr (one (hr rfl))).trans Classical.not_and_iff_not_or_not
    | reachesNone => cases ht

/-- A filter that is put beside a sibling either stays apart from it, and then neither joins related
rows if they are alternatives; or it merges with the sibling, and then its condition is put beside
those of the sibling in the same way. If the conditions become alternatives, all of them say
something or none does; if one related row must satisfy all of them, it is the only one. -/
inductive Lossless (store : Store) : Connective → Sibling → Filter → Prop
  | apart {c : Connective} {s : Sibling} {f : Filter} : ¬ Filter.Merges c s.toFilter f →
    (c = .or → s.toFilter.compact.Unjoined ∧ f.compact.Unjoined) → Lossless store c s f
  | merge {c : Connective} {s : Sibling} {r : Relationship} {t : LinkTest} {condition : Filter} :
    Filter.Merges c s.toFilter (.link r t condition) → (t.within c = .and → r.Single store) →
    (t.within c = .or →
      ((∀ s' ∈ s.conditions, s'.toFilter.Vanishes) ↔ condition.Vanishes)) →
    (∀ s' ∈ s.conditions, Lossless store (t.within c) s' condition) →
    Lossless store c s (.link r t condition)

namespace Filter

section

variable {fs before after : List Filter} {f : Filter}

theorem yields_compact_or_concat (hv : (∀ g ∈ fs, g.Vanishes) ↔ f.Vanishes)
    (hu : ∀ g ∈ fs, g.compact.Unjoined ∧ f.compact.Unjoined) :
    (group .or (fs ++ [f])).compact.Yields store x true ↔
      (group .or fs).compact.Yields store x true ∨ f.compact.Yields store x true := by
  by_cases hf : f.Vanishes
  · have yields (fs : List Filter) (h : ∀ f ∈ fs, f.Vanishes) :
        (group .or fs).compact.Yields store x true := by
      rw [show (group .or fs).compact = empty from vanishes_group.2 h, Yields]
    refine iff_of_true (yields _ ?_) (.inl (yields _ (hv.2 hf)))
    simpa [or_imp, forall_and, hf] using hv.2 hf
  · have hfs : ¬ ∀ g ∈ fs, g.Vanishes := mt hv.1 hf
    obtain ⟨g, hg, -⟩ : ∃ g ∈ fs, ¬ g.Vanishes := by simpa using hfs
    have joins : ∀ g ∈ fs, g.compact.Joins store x := fun g hg => (hu g hg).1.joins
    have joins' : f.compact.Joins store x := (hu g hg).2.joins
    simp only [yields_compact_or, List.mem_append, List.mem_singleton, or_imp, forall_and,
      forall_eq, or_and_right, exists_or, exists_eq_left, hf, hfs, not_false_eq_true, true_and,
      false_and, false_or, and_iff_right joins, and_iff_right joins']

theorem yields_compact_concat (hv : c = .or → ((∀ g ∈ fs, g.Vanishes) ↔ f.Vanishes))
    (hu : c = .or → ∀ g ∈ fs, g.compact.Unjoined ∧ f.compact.Unjoined) :
    (group c (fs ++ [f])).compact.Yields store x true ↔
      c.Combines ((group c fs).compact.Yields store x true) (f.compact.Yields store x true) := by
  cases c with
  | and => simp [yields_compact_and, Connective.Combines, or_imp, forall_and]
  | or => exact yields_compact_or_concat (hv rfl) (hu rfl)

variable {r : Relationship} {t : LinkTest} {old new : Filter}

theorem yields_compact_replace (h : (link r t new).compact.Yields store x true ↔
      c.Combines ((link r t old).compact.Yields store x true)
        ((link r t f).compact.Yields store x true))
    (hu : c = .or → ∀ g ∈ before ++ after, g.compact.Unjoined ∧ t.isPositive = false) :
    (group c (before ++ link r t new :: after)).compact.Yields store x true ↔
      c.Combines ((group c (before ++ link r t old :: after)).compact.Yields store x true)
        ((link r t f).compact.Yields store x true) := by
  cases c with
  | and =>
    simp only [yields_compact_and, List.forall_mem_append, List.forall_mem_cons, h,
      Connective.Combines]
    tauto
  | or =>
    by_cases hne : before ++ after = []
    · obtain ⟨rfl, rfl⟩ := List.append_eq_nil_iff.1 hne
      simpa only [List.nil_append, yields_compact_singleton] using h
    · obtain ⟨g, hg⟩ := List.exists_mem_of_ne_nil _ hne
      have ht := (hu rfl g hg).2
      have joins (f : Filter) : (link r t f).compact.Joins store x := joins_link_of_not_positive ht
      have hj : ∀ g ∈ before ++ after, g.compact.Joins store x := fun g hg => (hu rfl g hg).1.joins
      rw [List.forall_mem_append] at hj
      simp only [yields_compact_or, List.mem_append, List.mem_cons, or_imp, forall_and, forall_eq,
        or_and_right, exists_or, exists_eq_left, not_vanishes_link, not_false_eq_true, true_and,
        false_and, and_false, false_or, h, Connective.Combines, joins, and_iff_right hj.1,
        and_iff_right hj.2]
      simp only [or_assoc, or_left_comm, or_comm]

theorem yields_link_combines (ht : t.mergesUnder c = true) (hr : t.within c = .and → r.Single store)
    (hx : x ∈ store.records r.kind) (h : ∀ y ∈ store.records r.far,
      new.compact.Yields store y true ↔ (t.within c).Combines (old.compact.Yields store y true)
        (f.compact.Yields store y true)) :
    (link r t new).compact.Yields store x true ↔
      c.Combines ((link r t old).compact.Yields store x true)
        ((link r t f).compact.Yields store x true) := by
  simp only [compact, yields_link]
  rw [Relationship.asks_congr h, Relationship.asks_combines ht hr hx]

end

theorem unjoined_of_lossless {before after : List Sibling} {r : Relationship} {t : LinkTest}
    {old condition : Filter}
    (hp : (before.map Sibling.toFilter ++ link r t old :: after.map Sibling.toFilter).Pairwise
      fun f g => ¬ Merges c f g)
    (hl : ∀ s ∈ before ++ after, Lossless store c s (link r t condition)) (hc : c = .or) :
    ∀ g ∈ before.map Sibling.toFilter ++ after.map Sibling.toFilter,
      g.compact.Unjoined ∧ t.isPositive = false := by
  have apart : ∀ s ∈ before ++ after, ¬ Merges c s.toFilter (link r t condition) := by
    have other {g : Filter} (h : Merges c g (link r t condition)) : Merges c g (link r t old) :=
      merges_link_right.2 (merges_link_right.1 h)
    rw [List.pairwise_append, List.pairwise_cons] at hp
    obtain ⟨-, ⟨ha, -⟩, hb⟩ := hp
    intro s hs hm
    obtain hs | hs := List.mem_append.1 hs
    · exact hb _ (List.mem_map_of_mem hs) _ (by simp) (other hm)
    · exact ha _ (List.mem_map_of_mem hs) (other hm).symm
  rw [← List.map_append, List.forall_mem_map]
  intro s hs
  cases hl s hs with
  | apart _ hu => exact ⟨(hu hc).1, unjoined_compact_link.1 (hu hc).2⟩
  | merge hm => exact absurd hm (apart s hs)

theorem yields_merge {before after : List Sibling} {s merged : Sibling} {r q : Relationship}
    {t : LinkTest} {old new condition : Filter} (ht : t.mergesUnder c = true) (hr : (q == r) = true)
    (hs : s.toFilter = link q t old) (hm : merged.toFilter = link q t new)
    (hf : (link r t condition).Normal k) (hof : (link r t condition).OverSchema)
    (hn : (group c ((before ++ s :: after).map Sibling.toFilter)).Normal k)
    (hos : ∀ s' ∈ before ++ s :: after, s'.toFilter.OverSchema)
    (hl : ∀ s' ∈ before ++ s :: after, Lossless store c s' (link r t condition))
    (hx : x ∈ store.records k)
    (h : condition.Normal r.far → condition.OverSchema → old.Normal r.far → old.OverSchema →
      (t.within c = .or → ((∀ s' ∈ s.conditions, s'.toFilter.Vanishes) ↔ condition.Vanishes)) →
      (∀ s' ∈ s.conditions, Lossless store (t.within c) s' condition) → ∀ y ∈ store.records r.far,
        (new.compact.Yields store y true ↔ (t.within c).Combines (old.compact.Yields store y true)
          (condition.compact.Yields store y true))) :
    (group c ((before ++ merged :: after).map Sibling.toFilter)).compact.Yields store x true ↔
      c.Combines ((group c ((before ++ s :: after).map Sibling.toFilter)).compact.Yields store x
        true) ((link r t condition).compact.Yields store x true) := by
  rw [List.forall_mem_append, List.forall_mem_cons, hs] at hos
  obtain ⟨hrd, hcd⟩ := every_link.1 hof
  obtain ⟨hqd, hod⟩ := every_link.1 hos.2.1
  obtain rfl := (hrd.eq_of_beq hqd hr).symm
  obtain ⟨rfl, hcn⟩ := normal_link_iff.1 hf
  obtain ⟨hmem, hp⟩ := normal_group_iff.1 hn
  simp only [List.map_append, List.map_cons, List.forall_mem_append, List.forall_mem_cons, hs, hm,
    normal_link_iff] at hmem hp ⊢
  rw [List.forall_mem_append, List.forall_mem_cons] at hl
  cases hl.2.1 with
  | apart hm => exact absurd (hs ▸ merges_link_left.2 ⟨_, _, rfl, r.beq_refl, ht⟩) hm
  | merge _ hsingle hv hc =>
    have hothers := unjoined_of_lossless hp (List.forall_mem_append.2 ⟨hl.1, hl.2.2⟩)
    exact yields_compact_replace (yields_link_combines ht hsingle hx
      (h hcn hcd hmem.2.1.2 hod hv hc)) hothers

/-- A child inserted among siblings without loss says there what it says by itself. -/
theorem yields_insert {f : Filter} {ss : List Sibling} (hu : ∀ s ∈ ss, s.Under c)
    (hf : f.Normal k) (hof : f.OverSchema) (hn : (group c (ss.map Sibling.toFilter)).Normal k)
    (hos : ∀ s ∈ ss, s.toFilter.OverSchema) (hl : ∀ s ∈ ss, Lossless store c s f)
    (hv : c = .or → ((∀ s ∈ ss, s.toFilter.Vanishes) ↔ f.Vanishes)) (hx : x ∈ store.records k) :
    (group c ((Sibling.insert f c ss).map Sibling.toFilter)).compact.Yields store x true ↔
      c.Combines ((group c (ss.map Sibling.toFilter)).compact.Yields store x true)
        (f.compact.Yields store x true) := by
  refine Sibling.insert_induction (motive := fun f c ss ss' => ∀ k x, (∀ s ∈ ss, s.Under c) →
    f.Normal k → f.OverSchema → (group c (ss.map Sibling.toFilter)).Normal k →
    (∀ s ∈ ss, s.toFilter.OverSchema) → (∀ s ∈ ss, Lossless store c s f) →
    (c = .or → ((∀ s ∈ ss, s.toFilter.Vanishes) ↔ f.Vanishes)) → x ∈ store.records k →
    ((group c (ss'.map Sibling.toFilter)).compact.Yields store x true ↔
      c.Combines ((group c (ss.map Sibling.toFilter)).compact.Yields store x true)
        (f.compact.Yields store x true))) ?_ ?_ ?_ f c ss hu k x hu hf hof hn hos hl hv hx
  · intro f c ss hm k x _ _ _ _ _ hl hv _
    rw [List.map_append, List.map_singleton, Sibling.toFilter]
    refine yields_compact_concat (by simpa using hv) fun hc => List.forall_mem_map.2 fun s hs => ?_
    cases hl s hs with
    | apart _ hu => exact hu hc
    | merge h => exact absurd h (hm s hs)
  · intro r s t condition first c before after ht hr _ ih k x _ hf hof hn hos hl _ hx
    refine yields_merge ht hr rfl rfl hf hof hn hos hl hx fun hcn hcd hfn hfd hv hc y hy => ?_
    have hone :
        (group (t.within c) ([Sibling.single first].map Sibling.toFilter)).Normal r.far := by
      simp [normal_group_iff, Sibling.toFilter, hfn]
    rw [Sibling.toFilters_eq, ih r.far y (by simp [Sibling.Under.single]) hcn hcd hone
      (List.forall_mem_singleton.2 hfd) hc hv hy]
    simp only [List.map_singleton, Sibling.toFilter, yields_compact_singleton]
  · intro r s t condition conditions c before after ht hr _ ih k x hu hf hof hn hos hl _ hx
    refine yields_merge ht hr rfl rfl hf hof hn hos hl hx fun hcn hcd hfn hfd hv hc y hy => ?_
    rw [Sibling.toFilters_eq] at hfn hfd ⊢
    rw [Sibling.toFilters_eq]
    exact ih r.far y (Sibling.under_merged_iff.1 (hu _ List.mem_append_cons_self)).2.2 hcn hcd hfn
      (List.forall_mem_map.1 (every_group.1 hfd)) hc hv hy

theorem yields_compact_perm {fs gs : List Filter} (h : fs.Perm gs) :
    (group c fs).compact.Yields store x true ↔ (group c gs).compact.Yields store x true := by
  cases c with
  | and => simp only [yields_compact_and, h.mem_iff]
  | or => simp only [yields_compact_or, h.mem_iff]

theorem yields_insert_swap {f g : Filter} (hf : f.OverSchema) (hg : g.OverSchema) :
    (group c ((Sibling.insert f c [.single g]).map Sibling.toFilter)).compact.Yields store x true ↔
      (group c ((Sibling.insert g c [.single f]).map Sibling.toFilter)).compact.Yields store x
        true := by
  have apart {f g : Filter} {c : Connective} {x : Row} (h : ¬ Merges c g f) :
      (group c ((Sibling.insert f c [.single g]).map Sibling.toFilter)).compact.Yields store x
        true ↔ (group c ((Sibling.insert g c [.single f]).map Sibling.toFilter)).compact.Yields
          store x true := by
    rw [Sibling.insert_of_forall (List.forall_mem_singleton.2 h),
      Sibling.insert_of_forall (List.forall_mem_singleton.2 (mt Merges.symm h))]
    exact yields_compact_perm (.swap ..)
  induction f using induction generalizing g c x with
  | link r t condition ih =>
    by_cases h : Merges c g (link r t condition)
    · obtain ⟨s, first, rfl, hr, ht⟩ := merges_link_right.1 h
      obtain ⟨hrd, hcd⟩ := every_link.1 hf
      obtain ⟨hsd, hfd⟩ := every_link.1 hg
      obtain rfl := (hrd.eq_of_beq hsd hr).symm
      rw [Sibling.insert_link_single ht, Sibling.insert_link_single ht]
      simp only [List.map_singleton, Sibling.toFilter, Sibling.toFilters_eq,
        yields_compact_singleton]
      rw [compact, compact, yields_link, yields_link]
      exact Relationship.asks_congr fun y _ => ih hcd hfd
    · exact apart h
  | _ => exact apart (by simp [Merges])

end Filter

end Lexiquery
