import Lexiquery.Proofs.Filter.Reordering
import Lexiquery.Proofs.Filter.Stability

/-! The order of siblings. Which of them merge, and into what, does not depend on who comes first,
up to the order of what they become. -/

namespace Lexiquery

theorem Filter.Merges.trans {c : Connective} {f g h : Filter} (hfg : Merges c f g)
    (hgh : Merges c g h) : Merges c f h := by
  obtain ⟨r, s, t, condition, condition', rfl, rfl, hr, ht⟩ := hfg
  obtain ⟨s', condition'', rfl, hs, -⟩ := merges_link_left.1 hgh
  exact ⟨r, s', t, condition, condition'', rfl, rfl,
    Relationship.beq_iff.2 ((Relationship.beq_iff.1 hr).trans (Relationship.beq_iff.1 hs)), ht⟩

namespace Sibling

variable {c : Connective} {r : Relationship} {t : LinkTest} {f g condition : Filter}
  {s : Sibling} {ss ss' : List Sibling}

/-- Siblings under a connective in another order, and so their children and the conditions they
merged. Only siblings that do not merge change places. -/
inductive Reordered : Connective → List Sibling → List Sibling → Prop
  | nil {c : Connective} : Reordered c [] []
  | single {c : Connective} {f g : Filter} {ss ss' : List Sibling} : f.Reordered g →
    Reordered c ss ss' → Reordered c (single f :: ss) (single g :: ss')
  | merged {c : Connective} (r : Relationship) (t : LinkTest)
    {conditions conditions' ss ss' : List Sibling} :
    Reordered (t.within c) conditions conditions' → Reordered c ss ss' →
    Reordered c (merged r t (t.within c) conditions :: ss)
      (merged r t (t.within c) conditions' :: ss')
  | swap {c : Connective} {s s' : Sibling} (ss : List Sibling) :
    ¬ Filter.Merges c s.toFilter s'.toFilter → Reordered c (s :: s' :: ss) (s' :: s :: ss)
  | trans {c : Connective} {ss ss' ss'' : List Sibling} :
    Reordered c ss ss' → Reordered c ss' ss'' → Reordered c ss ss''

theorem insert_cons_of_not (h : ¬ Filter.Merges c s.toFilter f) :
    insert f c (s :: ss) = s :: insert f c ss :=
  @insert_append f c [s] ss (List.forall_mem_singleton.2 h)

theorem exists_insert_cons (hu : s.Under c) (ht : t.mergesUnder c = true) (ha : s.Asks r t) :
    ∃ q, (q == r) = true ∧ (∀ s' ∈ s.conditions, s'.Under (t.within c)) ∧
      ∀ condition ss, insert (.link r t condition) c (s :: ss) =
        merged q t (t.within c) (insert condition (t.within c) s.conditions) :: ss := by
  obtain ⟨q, first, rfl, hq⟩ | ⟨q, d, conditions, rfl, hq⟩ := ha.eq_single_or_merged
  · refine ⟨q, hq, by simp [conditions, Under.single], ?_⟩
    intro condition ss
    exact insert_join ht hq (List.forall_mem_nil _)
  · obtain ⟨-, rfl, hc⟩ := under_merged_iff.1 hu
    refine ⟨q, hq, hc, ?_⟩
    intro condition ss
    exact insert_add ht hq (List.forall_mem_nil _)

theorem merges_toFilter_link :
    Filter.Merges c s.toFilter (.link r t condition) ↔ t.mergesUnder c = true ∧ s.Asks r t := by
  rw [merges_toFilter_iff]
  constructor
  · rintro ⟨_, _, _, ⟨⟩, h⟩
    exact h
  · exact fun h => ⟨r, t, condition, rfl, h⟩

theorem insert_link_cons (h : ¬ s.Asks r t) :
    insert (.link r t condition) c (s :: ss) = s :: insert (.link r t condition) c ss :=
  insert_cons_of_not fun hm => h (merges_toFilter_link.1 hm).2

theorem Asks.exists_toFilter (h : s.Asks r t) :
    ∃ q first, s.toFilter = .link q t first ∧ (q == r) = true := by
  obtain ⟨q, first, rfl, hq⟩ | ⟨q, d, conditions, rfl, hq⟩ := h.eq_single_or_merged
  · exact ⟨q, first, rfl, hq⟩
  · exact ⟨q, _, rfl, hq⟩

theorem Asks.merges {s' : Sibling} (ht : t.mergesUnder c = true) (h : s.Asks r t)
    (h' : s'.Asks r t) : Filter.Merges c s.toFilter s'.toFilter := by
  obtain ⟨q, first, hs, hq⟩ := h.exists_toFilter
  obtain ⟨q', first', hs', hq'⟩ := h'.exists_toFilter
  refine ⟨q, q', t, first, first', hs, hs', ?_, ht⟩
  exact Relationship.beq_iff.2 ((Relationship.beq_iff.1 hq).trans (Relationship.beq_iff.1 hq').symm)

theorem exists_absorb_cons {d : Connective} {add : List Sibling → List Sibling} (h : s.Asks r t) :
    ∃ s' : Sibling, (∀ c f, Filter.Merges c s'.toFilter f ↔ Filter.Merges c s.toFilter f) ∧
      ∀ ss, absorb r t d condition add (s :: ss) = s' :: ss := by
  obtain ⟨q, first, rfl, hq⟩ | ⟨q, e, conditions, rfl, hq⟩ := h.eq_single_or_merged
  · refine ⟨merged q t d (add [single first]), ?_, ?_⟩
    · intro c f
      rw [merges_toFilter_iff, merges_toFilter_iff]
      rfl
    · intro ss
      rw [absorb, if_pos (by simp [hq])]
  · refine ⟨merged q t e (add conditions), ?_, ?_⟩
    · intro c f
      rw [merges_toFilter_iff, merges_toFilter_iff]
      rfl
    · intro ss
      rw [absorb, if_pos (by simp [hq])]

namespace Reordered

theorem refl_of_cons (h : ∀ s ∈ ss, ∀ ts ts', Reordered c ts ts' →
    Reordered c (s :: ts) (s :: ts')) : Reordered c ss ss := by
  induction ss with
  | nil => exact .nil
  | cons s ss ih =>
    obtain ⟨hs, hss⟩ := List.forall_mem_cons.1 h
    exact hs ss ss (ih hss)

theorem cons (hu : s.Under c) (h : Reordered c ss ss') : Reordered c (s :: ss) (s :: ss') := by
  induction hu generalizing ss ss' with
  | single f => exact .single (.refl f) h
  | merged q _ _ ih =>
    refine .merged q _ (refl_of_cons ?_) h
    intro s hs ts ts' h
    exact ih s hs h

theorem refl (hu : ∀ s ∈ ss, s.Under c) : Reordered c ss ss :=
  refl_of_cons fun s hs _ _ h => h.cons (hu s hs)

theorem concat (f : Filter) (h : Reordered c ss ss') :
    Reordered c (ss ++ [Sibling.single f]) (ss' ++ [Sibling.single f]) := by
  induction h with
  | nil => exact .single (.refl f) .nil
  | single hf _ ih => exact .single hf ih
  | merged r t hc _ _ ih => exact .merged r t hc ih
  | swap ss hm => exact .swap _ hm
  | trans _ _ ih ih' => exact ih.trans ih'

theorem asks_single (h : f.Reordered g) (ha : (Sibling.single f).Asks r t) :
    (Sibling.single g).Asks r t := by
  obtain ⟨q, first, hs, hq⟩ | ⟨_, _, _, hs, _⟩ := ha.eq_single_or_merged
  · cases hs
    obtain ⟨first', rfl, -⟩ := h.exists_link
    exact ⟨hq, rfl⟩
  · cases hs

section

variable {add : List Sibling → List Sibling}
  (hadd : ∀ {conditions conditions'}, Reordered (t.within c) conditions conditions' →
    Reordered (t.within c) (add conditions) (add conditions'))
include hadd

theorem absorb (ht : t.mergesUnder c = true) (h : Reordered c ss ss') :
    Reordered c (absorb r t (t.within c) condition add ss)
      (Sibling.absorb r t (t.within c) condition add ss') := by
  induction h with
  | nil => exact .single (.refl _) .nil
  | @single c f g ss ss' hf hss ih =>
    by_cases ha : (Sibling.single f).Asks r t
    · obtain ⟨q, first, hs, hq⟩ | ⟨_, _, _, hs, -⟩ := ha.eq_single_or_merged
      · cases hs
        obtain ⟨first', rfl, hf'⟩ := hf.exists_link
        simp only [Sibling.absorb, hq, beq_self_eq_true, Bool.and_self, if_true]
        exact .merged q t (hadd (.single hf' .nil)) hss
      · cases hs
    · rw [absorb_cons ha, absorb_cons (mt (asks_single hf.symm) ha)]
      exact .single hf (ih hadd ht)
  | @merged c q u conditions conditions' ss ss' hc hss _ ih =>
    by_cases ha : (Sibling.merged q u (u.within c) conditions).Asks r t
    · obtain ⟨hq, rfl⟩ := ha
      simp only [Sibling.absorb, hq, beq_self_eq_true, Bool.and_self, if_true]
      exact .merged q u (hadd hc) hss
    · rw [absorb_cons ha, absorb_cons (s := Sibling.merged q u (u.within c) conditions') ha]
      exact .merged q u hc (ih hadd ht)
  | @swap c s s' ss hm =>
    -- at most one of the two takes the condition in, for otherwise they would merge
    by_cases hs : s.Asks r t <;> by_cases hs' : s'.Asks r t
    · exact absurd (hs.merges ht hs') hm
    · obtain ⟨s₁, hs₁, h⟩ := exists_absorb_cons hs
      rw [h, absorb_cons hs', h]
      exact .swap ss (mt (hs₁ c _).1 hm)
    · obtain ⟨s₁, hs₁, h⟩ := exists_absorb_cons hs'
      rw [h, absorb_cons hs, h]
      exact .swap ss fun h => hm ((hs₁ c _).1 h.symm).symm
    · rw [absorb_cons hs, absorb_cons hs', absorb_cons hs', absorb_cons hs]
      exact .swap _ hm
  | trans _ _ ih ih' => exact (ih hadd ht).trans (ih' hadd ht)

end

theorem insert (f : Filter) (h : Reordered c ss ss') :
    Reordered c (insert f c ss) (Sibling.insert f c ss') := by
  induction f using Filter.induction generalizing c ss ss' with
  | link r t condition ih =>
    rw [Sibling.insert, Sibling.insert]
    split
    · rename_i ht
      exact absorb ih ht h
    · exact h.concat _
  | empty | test | group => exact h.concat _

end Reordered

theorem reordered_concat (hu : ∀ s ∈ ss, s.Under c) (h : f.Reordered g) :
    Reordered c (ss ++ [single f]) (ss ++ [single g]) := by
  induction ss with
  | nil => exact .single h .nil
  | cons s ss ih =>
    obtain ⟨hs, hss⟩ := List.forall_mem_cons.1 hu
    exact (ih hss).cons hs

theorem reordered_insert (hu : ∀ s ∈ ss, s.Under c) (h : f.Reordered g) :
    Reordered c (insert f c ss) (insert g c ss) := by
  induction h generalizing c ss with
  | refl f => exact .refl (under_insert hu)
  | trans _ _ ih ih' => exact (ih hu).trans (ih' hu)
  | children h => exact reordered_concat hu (.children h)
  | child before after h => exact reordered_concat hu (.child before after h)
  | @condition r t f g h ih =>
    by_cases ht : t.mergesUnder c = true
    · induction ss with
      | nil =>
        rw [insert_nil, insert_nil]
        exact .single (.condition r t h) .nil
      | cons s ss ihs =>
        obtain ⟨hs, hss⟩ := List.forall_mem_cons.1 hu
        by_cases ha : s.Asks r t
        · obtain ⟨q, -, hc, hi⟩ := exists_insert_cons hs ht ha
          rw [hi, hi]
          exact .merged q t (ih hc) (.refl hss)
        · rw [insert_link_cons ha, insert_link_cons ha]
          exact (ihs hss).cons hs
    · rw [insert, insert, if_neg ht, if_neg ht]
      exact reordered_concat hu (.condition r t h)

theorem insert_insert_cons (hs : s.Under c) (hm : ¬ Filter.Merges c f g)
    (h : Filter.Merges c s.toFilter f) :
    insert f c (insert g c (s :: ss)) = insert g c (insert f c (s :: ss)) := by
  obtain ⟨r, t, condition, rfl, ht, ha⟩ := merges_toFilter_iff.1 h
  obtain ⟨q, hq, -, hi⟩ := exists_insert_cons hs ht ha
  have apart {old : Filter} : ¬ Filter.Merges c (.link q t old) g := by
    intro hg
    have hf : Filter.Merges c (.link q t old) (.link r t condition) :=
      Filter.merges_link_left.2 ⟨r, condition, rfl, hq, ht⟩
    exact hm (hf.symm.trans hg)
  rw [insert_cons_of_not fun hg => hm (h.symm.trans hg), hi, hi, insert_cons_of_not apart]

theorem reordered_insert_of_not (hu : ∀ s ∈ ss, s.Under c) (hm : ¬ Filter.Merges c f g) :
    Reordered c (insert f c (insert g c ss)) (insert g c (insert f c ss)) := by
  have hm' : ¬ Filter.Merges c g f := mt Filter.Merges.symm hm
  have under (f g : Filter) : ∀ s ∈ insert f c (insert g c ss), s.Under c :=
    under_insert (under_insert hu)
  induction ss with
  | nil =>
    rw [insert_nil, insert_nil, insert_cons_of_not hm', insert_cons_of_not hm, insert_nil,
      insert_nil]
    exact .swap [] hm'
  | cons s ss ih =>
    obtain ⟨hs, hss⟩ := List.forall_mem_cons.1 hu
    by_cases hf : Filter.Merges c s.toFilter f
    · rw [insert_insert_cons hs hm hf]
      exact .refl (under g f)
    by_cases hg : Filter.Merges c s.toFilter g
    · rw [insert_insert_cons hs hm' hg]
      exact .refl (under f g)
    rw [insert_cons_of_not hf, insert_cons_of_not hg, insert_cons_of_not hf, insert_cons_of_not hg]
    refine .cons hs (ih hss ?_)
    intro f g
    exact under_insert (under_insert hss)

/-- Of two children it does not matter which is inserted first. -/
theorem reordered_insert_comm (hf : f.OverSchema) (hg : g.OverSchema)
    (hu : ∀ s ∈ ss, s.Under c) :
    Reordered c (insert f c (insert g c ss)) (insert g c (insert f c ss)) := by
  -- only links that merge may meet in one place, and there it is their conditions that commute
  induction f using Filter.induction generalizing g c ss with
  | link r t condition ih =>
    by_cases hm : Filter.Merges c (.link r t condition) g
    · obtain ⟨r', condition', rfl, hr, ht⟩ := Filter.merges_link_left.1 hm
      obtain ⟨hrd, hcd⟩ := Filter.every_link.1 hf
      obtain ⟨hrd', hcd'⟩ := Filter.every_link.1 hg
      obtain rfl := hrd'.eq_of_beq hrd hr
      induction ss with
      | nil =>
        rw [insert_nil, insert_nil, insert_link_single ht, insert_link_single ht]
        refine .merged r t ?_ .nil
        simpa only [insert_nil] using ih hcd hcd' (List.forall_mem_nil _)
      | cons s ss ihs =>
        obtain ⟨hs, hss⟩ := List.forall_mem_cons.1 hu
        by_cases ha : s.Asks r t
        · obtain ⟨q, hq, hc, hi⟩ := exists_insert_cons hs ht ha
          have add (condition : Filter) (conditions : List Sibling) :
              insert (.link r t condition) c (merged q t (t.within c) conditions :: ss) =
                merged q t (t.within c) (insert condition (t.within c) conditions) :: ss := by
            rw [← List.nil_append (merged q t (t.within c) conditions :: ss)]
            exact insert_add ht hq (List.forall_mem_nil _)
          rw [hi, hi, add, add]
          exact .merged q t (ih hcd hcd' hc) (.refl hss)
        · rw [insert_link_cons ha, insert_link_cons ha, insert_link_cons ha, insert_link_cons ha]
          exact (ihs hss).cons hs
    · exact reordered_insert_of_not hu hm
  | _ => exact reordered_insert_of_not hu (by simp [Filter.Merges])

theorem Reordered.foldl_insert (fs : List Filter) (h : Reordered c ss ss') :
    Reordered c (fs.foldl (fun ss f => Sibling.insert f c ss) ss)
      (fs.foldl (fun ss f => Sibling.insert f c ss) ss') := by
  induction fs generalizing ss ss' with
  | nil => exact h
  | cons f fs ih => exact ih (h.insert f)

theorem reordered_foldl_insert {fs gs : List Filter} (hp : fs.Perm gs)
    (hs : ∀ f ∈ fs, f.OverSchema) (hu : ∀ s ∈ ss, s.Under c) :
    Reordered c (fs.foldl (fun ss f => insert f c ss) ss)
      (gs.foldl (fun ss f => insert f c ss) ss) := by
  induction hp generalizing ss with
  | nil => exact .refl hu
  | cons f _ ih => exact ih (List.forall_mem_cons.1 hs).2 (under_insert hu)
  | swap f g fs =>
    obtain ⟨hg, hf, -⟩ := List.forall_mem_cons.1 hs |>.imp_right List.forall_mem_cons.1
    exact (reordered_insert_comm hf hg hu).foldl_insert fs
  | trans hp _ ih ih' => exact (ih hs hu).trans (ih' (fun f hf => hs f (hp.mem_iff.2 hf)) hu)

theorem Reordered.group (h : Reordered c ss ss') (d : Connective) (before : List Filter) :
    (Filter.group d (before ++ ss.map toFilter)).Reordered
      (.group d (before ++ ss'.map toFilter)) := by
  induction h generalizing d before with
  | nil => exact .refl _
  | @single c f g ss ss' hf _ ih =>
    refine (Filter.Reordered.child before (ss.map toFilter) hf).trans ?_
    simpa [toFilter] using ih d (before ++ [g])
  | @merged c r t conditions conditions' ss ss' _ _ ihc ih =>
    have hc : (Sibling.merged r t (t.within c) conditions).toFilter.Reordered
        (Sibling.merged r t (t.within c) conditions').toFilter := by
      simpa [toFilter, toFilters_eq] using .condition r t (ihc (t.within c) [])
    refine (Filter.Reordered.child before (ss.map toFilter) hc).trans ?_
    simpa using ih d (before ++ [(Sibling.merged r t (t.within c) conditions').toFilter])
  | swap ss _ => exact .children ((List.Perm.swap ..).append_left before)
  | trans _ _ ih ih' => exact (ih d before).trans (ih' d before)

end Sibling

namespace Filter

variable {c : Connective} {fs gs : List Filter} {f g : Filter}

theorem reordered_mergeSiblings (h : Sibling.Reordered c (siblings c fs) (siblings c gs)) :
    (group c (mergeSiblings c fs)).Reordered (group c (mergeSiblings c gs)) := by
  rw [mergeSiblings_eq, mergeSiblings_eq]
  exact h.group c []

theorem Reordered.normalize (h : f.Reordered g) (hf : f.OverSchema) (k : Kind) :
    (f.normalize k).Reordered (g.normalize k) := by
  induction h generalizing k with
  | refl => exact .refl _
  | trans h _ ih ih' => exact (ih hf k).trans (ih' (h.overSchema hf) k)
  | @children c fs gs h =>
    rw [Filter.normalize, Filter.normalize, normalizeAll_eq, normalizeAll_eq]
    apply reordered_mergeSiblings
    refine Sibling.reordered_foldl_insert (h.map _) ?_ (List.forall_mem_nil _)
    exact List.forall_mem_map.2 fun f hm => OverSchema.normalize (every_group.1 hf f hm) k
  | @child c f g before after h ih =>
    rw [Filter.normalize, Filter.normalize, normalizeAll_eq, normalizeAll_eq]
    apply reordered_mergeSiblings
    have hu := under_siblings c (before.map (·.normalize k))
    rw [List.map_append, List.map_append, siblings, siblings, List.foldl_append, List.foldl_append]
    exact (Sibling.reordered_insert hu (ih (every_group.1 hf f (by simp)) k)).foldl_insert _
  | condition r t _ ih => exact .along _ (.condition r t (ih (every_link.1 hf).2 r.far))

theorem Reordered.yields_resolve {store : Store} {x : Row} (h : f.Reordered g) (hf : f.OverSchema)
    (k : Kind) : (f.resolve k).Yields store x true ↔ (g.resolve k).Yields store x true :=
  (h.normalize hf k).yields_iff.2

end Filter

end Lexiquery
