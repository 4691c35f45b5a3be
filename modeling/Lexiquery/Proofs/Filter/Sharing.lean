import Lexiquery.Proofs.Filter.Gathering

/-! Alternatives that all ask for related rows along one relationship. None of them costs a record
the rows that another joins: where one finds a related row, all of them do. -/

namespace Lexiquery

namespace Filter

def anyAlong (r : Relationship) (fs : List Filter) : Filter :=
  group .or (fs.map fun f => group .and [link r .hasSome f])

variable {store : Store} {r : Relationship} {fs : List Filter} {k : Kind} {x : Row}

/-- Several tests of a kind one hop away become one link, so they are about the same row. -/
theorem normalize_tests (hp : Schema.path k r.far = [r]) {c : Connective}
    {first second : Filter} {rest : List Filter}
    (h : ∀ f ∈ first :: second :: rest, ∃ g t, f = test g t ∧ g.kind = r.far) :
    (group c (first :: second :: rest)).normalize k =
      group c [link r .hasSome (group c (first :: second :: rest))] := by
  have hop : ∀ f ∈ first :: second :: rest, f.normalize k = link r .hasSome f := fun f hf => by
    obtain ⟨g, t, rfl, hg⟩ := h f hf
    rw [normalize, hg, hp]
    rfl
  have alone : ∀ f ∈ second :: rest, ∀ s u condition, f ≠ link s u condition := fun f hf => by
    obtain ⟨g, t, rfl, -⟩ := h f (List.mem_cons_of_mem _ hf)
    rintro _ _ _ ⟨⟩
  rw [normalize, normalizeAll_eq, List.map_congr_left hop, mergeSiblings_links rfl alone]
  rfl

theorem resolve_alternatives (hne : fs ≠ [])
    (h : ∀ f ∈ fs, f.normalize k = group .and [link r .hasSome f]) (hc : ∀ f ∈ fs, f.Compacted) :
    (group .or fs).resolve k = anyAlong r fs := by
  have apart : (fs.map fun f => group .and [link r .hasSome f]).Pairwise
      fun f g => ¬ Merges .or f g := by
    refine List.pairwise_map.2 (List.pairwise_of_forall fun f g => ?_)
    rintro ⟨_, _, _, _, _, ⟨⟩, -⟩
  have compacted : (anyAlong r fs).Compacted := by
    refine .group (by simpa using hne) ?_ ?_ <;> refine List.forall_mem_map.2 fun f hf => ?_
    · exact nofun
    · exact .group (by simp) (List.forall_mem_singleton.2 nofun)
        (List.forall_mem_singleton.2 (.link (hc f hf)))
  rw [resolve, normalize, normalizeAll_eq, List.map_congr_left h, mergeSiblings_eq_self apart,
    ← anyAlong, compacted.compact_eq]

theorem yields_anyAlong (hne : fs ≠ []) (hu : ∀ f ∈ fs, f.Unjoined) :
    (anyAlong r fs).Yields store x true ↔
      ∃ f ∈ fs, ∃ y, r.Relates store x y ∧ f.Yields store y true := by
  have one (f : Filter) : (group .and [link r .hasSome f]).Yields store x true ↔
      ∃ y, r.Relates store x y ∧ f.Yields store y true := by
    rw [yields_and, List.forall_mem_singleton, yields_link]
    rfl
  rw [anyAlong, yields_or (by simpa using hne)]
  simp only [List.mem_map, exists_exists_and_eq_and, one, and_iff_right_iff_imp]
  -- the related row that satisfies one alternative is there for the others as well
  rintro ⟨f, hf, y, hy, -⟩ _ ⟨g, hg, rfl⟩
  refine joins_group.2 (List.forall_mem_singleton.2 ?_)
  obtain ⟨b, hb⟩ : g.Joins store y := (hu g hg).joins
  exact ⟨b, y, hy, hb⟩

theorem holds_anyAlong (hk : r.kind = k) (hne : fs ≠ []) :
    (anyAlong r fs).Holds store k x ↔
      ∃ f ∈ fs, ∃ y, r.Relates store x y ∧ f.Holds store r.far y := by
  have one (f : Filter) : (group .and [link r .hasSome f]).Holds store k x ↔
      ∃ y, r.Relates store x y ∧ f.Holds store r.far y := by
    rw [holds_and, List.forall_mem_singleton, holds_link hk]
    rfl
  obtain ⟨f, hf⟩ := List.exists_mem_of_ne_nil fs hne
  have stays : ¬ (anyAlong r fs).Vanishes := by
    simpa [anyAlong] using ⟨f, hf⟩
  rw [anyAlong] at stays ⊢
  rw [holds_or, or_iff_right stays]
  simp [one]

theorem Scalar.guarded {f : Filter} (h : f.Scalar k) : f.Guarded := by
  induction h with
  | empty => exact .empty
  | test => exact .test
  | group h ih => exact .group ih fun _ _ f hf => (h f hf).unjoined

end Filter

end Lexiquery
