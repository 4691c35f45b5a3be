import Lexiquery.Proofs.Filter.Merging

/-! Compacting before normalizing. A filter that says nothing adds nothing to the siblings it is
inserted among, and one that is compacted first meets the same of them; so what is dropped from a
filter beforehand would have been dropped from the resolved one. -/

namespace Lexiquery

namespace Sibling

mutual

def compact : Sibling → Sibling
  | single f => single f.compact
  | merged r t c conditions => merged r t c (compactAll conditions)

def compactAll : List Sibling → List Sibling
  | [] => []
  | s :: ss => if s.toFilter.Vanishes then compactAll ss else s.compact :: compactAll ss

end

theorem vanishes_toFilter_compact {s : Sibling} :
    s.compact.toFilter.Vanishes ↔ s.toFilter.Vanishes := by
  cases s with
  | single f => exact Filter.vanishes_compact
  | merged => exact iff_of_false Filter.not_vanishes_link Filter.not_vanishes_link

theorem compactAll_append (ss ss' : List Sibling) :
    compactAll (ss ++ ss') = compactAll ss ++ compactAll ss' := by
  induction ss with
  | nil => rfl
  | cons s ss ih => by_cases h : s.toFilter.Vanishes <;> simp [compactAll, h, ih]

theorem compactAll_single_congr {f g : Filter} (h : f.compact = g.compact) :
    compactAll [single f] = compactAll [single g] := by
  have hv : f.Vanishes ↔ g.Vanishes := by rw [Filter.Vanishes, Filter.Vanishes, h]
  by_cases hg : g.Vanishes <;> simp [compactAll, compact, toFilter, hv, hg, h]

mutual

theorem compact_compact : ∀ s : Sibling, s.compact.compact = s.compact
  | single f => by rw [compact, compact, Filter.compact_compact]
  | merged r t c conditions => by rw [compact, compact, compactAll_compactAll conditions]

theorem compactAll_compactAll : ∀ ss : List Sibling, compactAll (compactAll ss) = compactAll ss
  | [] => rfl
  | s :: ss => by
    by_cases h : s.toFilter.Vanishes
    · simp [compactAll, h, compactAll_compactAll ss]
    · simp [compactAll, h, vanishes_toFilter_compact, compact_compact s, compactAll_compactAll ss]

end

mutual

theorem compact_toFilter_compact : ∀ s : Sibling, s.compact.toFilter.compact = s.toFilter.compact
  | single f => Filter.compact_compact f
  | merged r t c conditions => by
    simp only [compact, toFilter, Filter.compact, compactAll_toFilters_compactAll conditions]

theorem compactAll_toFilters_compactAll : ∀ ss : List Sibling,
    Filter.compactAll (toFilters (compactAll ss)) = Filter.compactAll (toFilters ss)
  | [] => rfl
  | s :: ss => by
    have ih := compactAll_toFilters_compactAll ss
    by_cases h : s.toFilter.Vanishes
    · have he : s.toFilter.compact.isEmpty = true := Filter.isEmpty_iff.2 h
      simp [compactAll, toFilters, Filter.compactAll, h, he, ih]
    · simp [compactAll, toFilters, Filter.compactAll, h, compact_toFilter_compact s, ih]

end

theorem asks_compact {s : Sibling} {r : Relationship} {t : LinkTest} (h : s.compact.Asks r t) :
    s.Asks r t := by
  match s with
  | single (.link ..) | merged .. => exact h
  | single .empty | single (.test ..) => exact h
  | single (.group c fs) =>
    rw [compact, Filter.compact] at h
    split at h <;> exact h

section

variable {r : Relationship} {t : LinkTest} {c : Connective} {condition condition' : Filter}
  {add add' : List Sibling → List Sibling}

theorem absorb_cons {s : Sibling} {ss : List Sibling} (h : ¬ s.Asks r t) :
    absorb r t c condition add (s :: ss) = s :: absorb r t c condition add ss :=
  absorb_append (List.forall_mem_singleton.2 h)

theorem compactAll_absorb (hc : condition.compact = condition'.compact)
    (hfirst : ∀ f : Filter, compactAll (add [single f]) = compactAll (add' [single f.compact]))
    (hadd : ∀ ss, compactAll (add ss) = compactAll (add' (compactAll ss))) (ss : List Sibling) :
    compactAll (absorb r t c condition add ss) =
      compactAll (absorb r t c condition' add' (compactAll ss)) := by
  induction ss with
  | nil => exact compactAll_single_congr (by rw [Filter.compact, Filter.compact, hc])
  | cons s ss ih =>
    by_cases ha : s.Asks r t
    · obtain ⟨s, first, rfl, hr⟩ | ⟨s, d, conditions, rfl, hr⟩ := ha.eq_single_or_merged
      · simp [absorb, compactAll, compact, Filter.compact, toFilter, hr, hfirst,
          compactAll_compactAll]
      · simp [absorb, compactAll, compact, toFilter, hr, hadd, compactAll_compactAll]
    · rw [absorb_cons ha, compactAll, compactAll]
      split
      · exact ih
      · rename_i hv
        rw [absorb_cons (mt asks_compact ha), compactAll,
          if_neg (mt vanishes_toFilter_compact.1 hv), compact_compact, ih]

end

theorem compactAll_insert {f g : Filter} (h : g.compact = f.compact) (c : Connective)
    (ss : List Sibling) :
    compactAll (insert g c ss) = compactAll (insert f.compact c (compactAll ss)) := by
  have last {f g : Filter} (h : g.compact = f.compact) (ss : List Sibling) :
      compactAll (ss ++ [single g]) = compactAll (compactAll ss ++ [single f.compact]) := by
    rw [compactAll_append, compactAll_append, compactAll_compactAll,
      compactAll_single_congr (h.trans (Filter.compact_compact f).symm)]
  have other {f g : Filter} (h : g.compact = f.compact) (hf : ∀ r t c, f ≠ .link r t c)
      (c : Connective) (ss : List Sibling) :
      compactAll (insert g c ss) = compactAll (insert f.compact c (compactAll ss)) := by
    have ne {f' : Filter} (h : f'.compact = f.compact) (r t c) : f' ≠ .link r t c := by
      rintro rfl
      obtain ⟨c', rfl⟩ := Filter.compact_eq_link h.symm
      exact hf r t c' rfl
    rw [insert_of_ne_link (ne h), insert_of_ne_link (ne (Filter.compact_compact f)), last h]
  induction f using Filter.induction generalizing g c ss with
  | link r t condition ih =>
    obtain ⟨condition', rfl⟩ := Filter.compact_eq_link h
    have hc : condition'.compact = condition.compact := by simpa [Filter.compact] using h
    have hcc := Filter.compact_compact condition
    rw [insert, Filter.compact, insert]
    split
    · refine compactAll_absorb (hc.trans hcc.symm) (fun first => ?_) (ih hc _) ss
      rw [ih hc, ih hcc _ [single first.compact],
        compactAll_single_congr (Filter.compact_compact first)]
    · exact last h ss
  | empty => exact other h (by simp) c ss
  | test => exact other h (by simp) c ss
  | group => exact other h (by simp) c ss

theorem compactAll_insert_congr {f g : Filter} {ss ss' : List Sibling}
    (h : g.compact = f.compact) (hs : compactAll ss = compactAll ss') (c : Connective) :
    compactAll (insert g c ss) = compactAll (insert f c ss') := by
  rw [compactAll_insert h, hs, compactAll_insert (f := f) rfl]

theorem compactAll_insert_of_vanishes {f : Filter} (h : f.Vanishes) (c : Connective)
    (ss : List Sibling) : compactAll (insert f c ss) = compactAll ss := by
  rw [compactAll_insert (f := .empty) h, Filter.compact, insert_of_ne_link (by simp),
    compactAll_append, compactAll_compactAll]
  simp [compactAll, toFilter]

theorem compactAll_foldl_insert {c : Connective} {fs : List Filter} {ss ss' : List Sibling}
    (h : compactAll ss = compactAll ss') :
    compactAll (fs.foldl (fun ss f => insert f c ss) ss) =
      compactAll ((Filter.compactAll fs).foldl (fun ss f => insert f c ss) ss') := by
  induction fs generalizing ss ss' with
  | nil => exact h
  | cons f fs ih =>
    rw [List.foldl_cons, Filter.compactAll]
    split
    · rename_i hv
      exact ih ((compactAll_insert_of_vanishes (Filter.isEmpty_iff.1 hv) c ss).trans h)
    · exact ih (compactAll_insert_congr (Filter.compact_compact f).symm h c)

end Sibling

namespace Filter

variable {c : Connective} {k : Kind}

theorem compactAll_mergeSiblings (fs : List Filter) :
    compactAll (mergeSiblings c (compactAll fs)) = compactAll (mergeSiblings c fs) := by
  rw [mergeSiblings, mergeSiblings, ← Sibling.compactAll_toFilters_compactAll,
    ← Sibling.compactAll_foldl_insert rfl, Sibling.compactAll_toFilters_compactAll]

theorem compact_mergeSiblings_congr {fs gs : List Filter} (h : compactAll fs = compactAll gs) :
    (group c (mergeSiblings c fs)).compact = (group c (mergeSiblings c gs)).compact := by
  rw [compact, compact, ← compactAll_mergeSiblings fs, h, compactAll_mergeSiblings]

theorem compactAll_map_compactAll {g : Filter → Filter} {fs : List Filter}
    (hv : ∀ f : Filter, f.Vanishes → (g f).Vanishes)
    (h : ∀ f ∈ fs, (g f.compact).compact = (g f).compact) :
    compactAll ((compactAll fs).map g) = compactAll (fs.map g) := by
  induction fs with
  | nil => rfl
  | cons f fs ih =>
    obtain ⟨hf, hfs⟩ := List.forall_mem_cons.1 h
    rw [compactAll, List.map_cons, compactAll]
    split
    · rename_i he
      rw [if_pos (isEmpty_iff.2 (hv f (isEmpty_iff.1 he))), ih hfs]
    · rw [List.map_cons, compactAll, hf, ih hfs]

theorem compact_along {hops : List Relationship} {f : Filter} :
    (along hops f).compact = along hops f.compact := by
  induction hops with
  | nil => rfl
  | cons r hops ih => exact congrArg (link r .hasSome) ih

theorem resolve_compact (f : Filter) (k : Kind) : f.compact.resolve k = f.resolve k := by
  induction f using induction generalizing k with
  | empty => rfl
  | test => rfl
  | link r t condition ih =>
    have ih : (condition.compact.normalize r.far).compact = (condition.normalize r.far).compact :=
      ih r.far
    rw [compact, resolve, resolve, normalize, normalize, compact_along, compact_along, compact,
      compact, ih]
  | group c fs ih =>
    have children : compactAll ((compactAll fs).map (·.normalize k)) =
        compactAll (fs.map (·.normalize k)) :=
      compactAll_map_compactAll (fun _ => vanishes_normalize.2) fun f hf => ih f hf k
    by_cases hne : compactAll fs = []
    · have hv : (group c fs).Vanishes := by rw [Vanishes, compact, hne]
      rw [show (group c fs).compact = empty from hv]
      exact (vanishes_normalize.2 hv).symm
    · rw [compact_group_of_ne hne, resolve, resolve, normalize, normalize, normalizeAll_eq,
        normalizeAll_eq, compact_mergeSiblings_congr children]

theorem resolve_normalize (f : Filter) (k : Kind) : (f.normalize k).resolve k = f.resolve k := by
  rw [resolve, (normal_normalize f k).normalize_eq, resolve]

theorem resolve_resolve (f : Filter) (k : Kind) : (f.resolve k).resolve k = f.resolve k :=
  (normal_resolve f k).resolve_eq (compacted_resolve f k)

end Filter

end Lexiquery
