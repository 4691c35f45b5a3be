import Lexiquery.Statement.Compile
import Lexiquery.Proofs.Filter.Siblings

/-! Normal forms. Normalizing leads to one, changes nothing that is one, and compacting keeps it; so
a filter that was resolved once stays as it is. -/

namespace Lexiquery

namespace Filter

/-- A filter on records of kind `k` all of whose clauses stand on fields of the kind at hand and in
which no siblings are left to merge. -/
inductive Normal : Kind → Filter → Prop
  | empty {k : Kind} : Normal k empty
  | test {f : Field} {t : Test} : Normal f.kind (test f t)
  | link {r : Relationship} {t : LinkTest} {condition : Filter} :
    Normal r.far condition → Normal r.kind (link r t condition)
  | group {k : Kind} {c : Connective} {fs : List Filter} :
    (∀ f ∈ fs, Normal k f) → fs.Pairwise (fun f g => ¬ Merges c f g) → Normal k (group c fs)

theorem normal_test_iff {k : Kind} {f : Field} {t : Test} :
    (test f t).Normal k ↔ f.kind = k :=
  ⟨fun h => by cases h; rfl, fun h => h ▸ .test⟩

theorem normal_link_iff {k : Kind} {r : Relationship} {t : LinkTest} {condition : Filter} :
    (link r t condition).Normal k ↔ r.kind = k ∧ condition.Normal r.far :=
  ⟨fun h => by cases h with | link h => exact ⟨rfl, h⟩, fun h => h.1 ▸ .link h.2⟩

theorem normal_group_iff {k : Kind} {c : Connective} {fs : List Filter} :
    (group c fs).Normal k ↔
      (∀ f ∈ fs, f.Normal k) ∧ fs.Pairwise (fun f g => ¬ Merges c f g) :=
  ⟨fun h => by cases h with | group h hp => exact ⟨h, hp⟩, fun h => .group h.1 h.2⟩

theorem mergeSiblings_eq_self {c : Connective} {fs : List Filter}
    (h : fs.Pairwise fun f g => ¬ Merges c f g) : mergeSiblings c fs = fs := by
  obtain ⟨ss, hss, hm⟩ := mergeSiblings_induction (c := c)
    (motive := fun fs ss => fs.Pairwise (fun f g => ¬ Merges c f g) → ss = fs.map .single)
    (by simp) (fun f fs ss _ ih h => by
      rw [List.pairwise_append] at h
      rw [ih h.1, Sibling.insert_of_forall, List.map_append, List.map_singleton]
      simpa [Sibling.toFilter] using fun g hg => h.2.2 g hg f (by simp)) fs
  rw [hss, hm h, List.map_map]
  exact List.map_id _

theorem Normal.normalize_eq {k : Kind} {f : Filter} (h : f.Normal k) : f.normalize k = f := by
  induction h with
  | empty => rfl
  | test => simp [normalize, along]
  | link _ ih => simp [normalize, along, ih]
  | group _ hp ih =>
    rw [normalize, normalizeAll_eq, List.map_congr_left ih, List.map_id', mergeSiblings_eq_self hp]

theorem normal_insert {f : Filter} {c : Connective} {ss : List Sibling} {k : Kind}
    (hu : ∀ s ∈ ss, s.Under c) (hf : f.Normal k)
    (hss : (group c (ss.map Sibling.toFilter)).Normal k) :
    (group c ((Sibling.insert f c ss).map Sibling.toFilter)).Normal k := by
  refine Sibling.insert_induction (motive := fun f c ss ss' => ∀ k, f.Normal k →
    (group c (ss.map Sibling.toFilter)).Normal k → (group c (ss'.map Sibling.toFilter)).Normal k)
    ?_ ?_ ?_ f c ss hu k hf hss
  · intro f c ss hm k hf hss
    rw [normal_group_iff] at hss ⊢
    simp only [List.map_append, List.map_singleton, List.forall_mem_append,
      List.forall_mem_singleton, List.pairwise_append, Sibling.toFilter]
    refine ⟨⟨hss.1, hf⟩, hss.2, by simp, ?_⟩
    simpa using hm
  · intro r s t condition first c before after ht hr _ ih k hf hss
    rw [normal_group_iff] at hss ⊢
    simp only [List.map_append, List.map_cons, List.forall_mem_append, List.forall_mem_cons,
      List.pairwise_append, List.pairwise_cons, merges_link_left, merges_link_right,
      Sibling.toFilter, normal_link_iff, Sibling.toFilters_eq] at hss ⊢
    obtain ⟨⟨hb, ⟨hk, hn⟩, ha⟩, hp⟩ := hss
    refine ⟨⟨hb, ⟨hk, ih _ ?_ ?_⟩, ha⟩, hp⟩
    · rw [Relationship.far_eq_of_beq hr]
      exact (normal_link_iff.1 hf).2
    · simp [normal_group_iff, Sibling.toFilter, hn]
  · intro r s t condition conditions c before after ht hr _ ih k hf hss
    rw [normal_group_iff] at hss ⊢
    simp only [List.map_append, List.map_cons, List.forall_mem_append, List.forall_mem_cons,
      List.pairwise_append, List.pairwise_cons, merges_link_left, merges_link_right,
      Sibling.toFilter, normal_link_iff, Sibling.toFilters_eq] at hss ⊢
    obtain ⟨⟨hb, ⟨hk, hn⟩, ha⟩, hp⟩ := hss
    refine ⟨⟨hb, ⟨hk, ih _ ?_ hn⟩, ha⟩, hp⟩
    rw [Relationship.far_eq_of_beq hr]
    exact (normal_link_iff.1 hf).2

theorem normal_mergeSiblings {c : Connective} {fs : List Filter} {k : Kind}
    (h : ∀ f ∈ fs, f.Normal k) : (group c (mergeSiblings c fs)).Normal k := by
  obtain ⟨ss, hss, hm⟩ := mergeSiblings_induction (c := c)
    (motive := fun fs ss => (∀ f ∈ fs, f.Normal k) → (group c (ss.map Sibling.toFilter)).Normal k)
    (by simp [normal_group_iff]) (fun f fs ss hu ih h => by
      simp only [List.forall_mem_append, List.forall_mem_singleton] at h
      exact normal_insert hu h.2 (ih h.1)) fs
  rw [hss]
  exact hm h

theorem nodeCount_along (hops : List Relationship) (f : Filter) :
    (along hops f).nodeCount = hops.length + f.nodeCount := by
  induction hops with
  | nil => simp [along]
  | cons r hops ih =>
    change 1 + (along hops f).nodeCount = _
    rw [ih, List.length_cons]
    omega

theorem normal_along {hops : List Relationship} {f : Filter} {k l : Kind}
    (hh : Schema.Leads k hops l) (hf : f.Normal l) : (along hops f).Normal k := by
  induction hops generalizing k with
  | nil => exact hh.symm ▸ hf
  | cons r hops ih => exact normal_link_iff.2 ⟨hh.1, ih hh.2⟩

theorem normal_normalize (f : Filter) (k : Kind) : (f.normalize k).Normal k := by
  induction f using induction generalizing k with
  | empty => exact .empty
  | test f t => exact normal_along (Schema.path_leads k f.kind) .test
  | link r t condition ih => exact normal_along (Schema.path_leads k r.kind) (.link (ih r.far))
  | group c fs ih =>
    rw [normalize, normalizeAll_eq]
    exact normal_mergeSiblings (List.forall_mem_map.2 fun f hf => ih f hf k)

/-- Normalizing leads to a normal form, leaves exactly the normal forms as they are, and so does
nothing the second time. -/
theorem normalize_reaches_normal_form (f : Filter) (k : Kind) :
    (f.normalize k).Normal k ∧ (f.normalize k = f ↔ f.Normal k) ∧
      (f.normalize k).normalize k = f.normalize k :=
  ⟨normal_normalize f k, ⟨fun h => h ▸ normal_normalize f k, Normal.normalize_eq⟩,
    (normal_normalize f k).normalize_eq⟩

inductive Compacted : Filter → Prop
  | empty : Compacted empty
  | test {f : Field} {t : Test} : Compacted (test f t)
  | link {r : Relationship} {t : LinkTest} {condition : Filter} :
    Compacted condition → Compacted (link r t condition)
  | group {c : Connective} {fs : List Filter} :
    fs ≠ [] → (∀ f ∈ fs, f ≠ .empty) → (∀ f ∈ fs, Compacted f) → Compacted (group c fs)

theorem isEmpty_iff {f : Filter} : f.isEmpty = true ↔ f = empty := by
  cases f <;> simp [isEmpty]

theorem mem_compactAll {f : Filter} {fs : List Filter} :
    f ∈ compactAll fs ↔ (∃ g ∈ fs, g.compact = f) ∧ f ≠ empty := by
  simp [compactAll_eq, ← isEmpty_iff]

theorem forall_mem_compactAll {p : Filter → Prop} (h : p empty) {fs : List Filter} :
    (∀ f ∈ compactAll fs, p f) ↔ ∀ f ∈ fs, p f.compact := by
  simp only [mem_compactAll, and_imp, forall_exists_index]
  constructor
  · intro hp f hf
    by_cases he : f.compact = empty
    · rwa [he]
    · exact hp _ f hf rfl he
  · rintro hp _ f hf rfl -
    exact hp f hf

theorem compact_group_of_ne {c : Connective} {fs : List Filter} (h : compactAll fs ≠ []) :
    (group c fs).compact = group c (compactAll fs) := by
  rw [compact]
  split
  · contradiction
  · rename_i hc
    rw [hc]

theorem compactAll_map {g : Filter → Filter} {fs : List Filter}
    (h : ∀ f ∈ fs, (g f).compact = g f.compact) (he : ∀ f, (g f).isEmpty = f.isEmpty) :
    compactAll (fs.map g) = (compactAll fs).map g := by
  have hm : (fs.map g).map compact = (fs.map compact).map g := by
    rw [List.map_map, List.map_map]
    exact List.map_congr_left h
  rw [compactAll_eq, compactAll_eq, hm, List.filter_map]
  congr 1
  exact List.filter_congr fun f _ => by rw [Function.comp, he]

theorem compacted_compact (f : Filter) : f.compact.Compacted := by
  induction f using induction with
  | empty => exact .empty
  | test => exact .test
  | link _ _ _ ih => exact .link ih
  | group c fs ih =>
    by_cases h : compactAll fs = []
    · rw [compact, h]
      exact .empty
    · rw [compact_group_of_ne h]
      refine .group h (fun f hf => (mem_compactAll.1 hf).2) fun f hf => ?_
      obtain ⟨⟨g, hg, rfl⟩, -⟩ := mem_compactAll.1 hf
      apply ih g hg

theorem Compacted.compact_eq {f : Filter} (h : f.Compacted) : f.compact = f := by
  induction h with
  | empty => rfl
  | test => rfl
  | link _ ih => rw [compact, ih]
  | @group c fs hne h _ ih =>
    have : compactAll fs = fs := by
      rw [compactAll_eq, List.map_congr_left ih, List.map_id', List.filter_eq_self]
      simpa [Bool.eq_false_iff, isEmpty_iff] using h
    rw [compact_group_of_ne (this.symm ▸ hne), this]

theorem compact_compact (f : Filter) : f.compact.compact = f.compact :=
  (compacted_compact f).compact_eq

theorem compact_eq_link {f condition' : Filter} {r : Relationship} {t : LinkTest}
    (h : f.compact = link r t condition') : ∃ condition, f = link r t condition := by
  match f with
  | link s u condition =>
    cases h
    exact ⟨condition, rfl⟩
  | group c fs =>
    rw [compact] at h
    split at h <;> cases h
  | empty | test .. => cases h

theorem merges_of_compact {c : Connective} {f g : Filter} (h : Merges c f.compact g.compact) :
    Merges c f g := by
  obtain ⟨r, s, t, _, _, hf, hg, hr, ht⟩ := h
  obtain ⟨condition, rfl⟩ := compact_eq_link hf
  obtain ⟨condition', rfl⟩ := compact_eq_link hg
  exact ⟨r, s, t, condition, condition', rfl, rfl, hr, ht⟩

theorem normal_compact {k : Kind} {f : Filter} (h : f.Normal k) : f.compact.Normal k := by
  induction h with
  | empty => exact .empty
  | test => exact .test
  | link _ ih => exact .link ih
  | @group k c fs _ hp ih =>
    by_cases h : compactAll fs = []
    · rw [compact, h]
      exact .empty
    · rw [compact_group_of_ne h]
      refine .group (fun f hf => ?_) ?_
      · obtain ⟨⟨g, hg, rfl⟩, -⟩ := mem_compactAll.1 hf
        apply ih g hg
      · rw [compactAll_eq]
        exact (List.pairwise_map.2 (hp.imp (mt merges_of_compact))).filter _

theorem normal_resolve (f : Filter) (k : Kind) : (f.resolve k).Normal k :=
  normal_compact (normal_normalize f k)

theorem compacted_resolve (f : Filter) (k : Kind) : (f.resolve k).Compacted :=
  compacted_compact _

theorem Normal.resolve_eq {k : Kind} {f : Filter} (h : f.Normal k) (hc : f.Compacted) :
    f.resolve k = f := by
  rw [resolve, h.normalize_eq, hc.compact_eq]

theorem resolve_link (r : Relationship) (t : LinkTest) (condition : Filter) :
    (link r t condition).resolve r.kind = link r t (condition.resolve r.far) := by
  simp [resolve, normalize, along, compact]

theorem resolveConditionsAll_eq (fs : List Filter) :
    resolveConditionsAll fs = fs.map resolveConditions := by
  induction fs with
  | nil => rfl
  | cons f fs ih => rw [resolveConditionsAll, ih, List.map_cons]

theorem resolveConditions_resolve (f : Filter) (k : Kind) :
    (f.resolve k).resolveConditions = f.resolve k := by
  suffices h : ∀ g : Filter, ∀ k, g.Normal k → g.Compacted → g.resolveConditions = g from
    h _ k (normal_resolve f k) (compacted_resolve f k)
  intro g k hn
  induction hn with
  | empty => exact fun _ => rfl
  | test => exact fun _ => rfl
  | link h _ =>
    intro hc
    cases hc with
    | link hc => rw [resolveConditions, h.resolve_eq hc]
  | group _ _ ih =>
    intro hc
    cases hc with
    | group _ _ hc =>
      rw [resolveConditions, resolveConditionsAll_eq,
        List.map_congr_left fun f hf => ih f hf (hc f hf), List.map_id']

theorem foreignAny?_eq_none {k : Kind} {fs : List Filter} :
    foreignAny? k fs = none ↔ ∀ f ∈ fs, f.foreign? k = none := by
  induction fs with
  | nil => simp [foreignAny?]
  | cons f fs ih => simp [foreignAny?, ih]

theorem Normal.foreign?_eq {k : Kind} {f : Filter} (h : f.Normal k) : f.foreign? k = none := by
  induction h with
  | empty => rfl
  | test => simp [foreign?]
  | link => simp [foreign?]
  | group _ _ ih => exact foreignAny?_eq_none.2 ih

end Filter

end Lexiquery
