import Lexiquery.Proofs.Filter.Complement
import Lexiquery.Proofs.Query.Links

/-! Queries of a filter and of its negation. -/

namespace Lexiquery

theorem Store.Lexical.eq_of_project {store : Store} (hs : store.Lexical) {k : Kind} {x y : Row}
    (hx : x ∈ store.records k) (hy : y ∈ store.records k) (h : k.project x = k.project y) :
    x = y := by
  refine hs.eq_of_key hx hy ?_
  rw [← k.get_project x, h, k.get_project]

namespace Store

/-- No record is selected both by a filter and by its negation, as long as all clauses outside of
conditions stand on the kind that is queried. Every record is selected by one of them if the filter
is one link, or asks at once for links to related rows and for tests of columns without nulls. -/
theorem answers_negated {store : Store} (hs : store.Lexical) {f : Filter} {k : Kind}
    (hw : f.WellFormed) (hf : f.OverSchema) (hv : ¬ f.Vanishes) (hk : f.foreign? k = none)
    {order order' : Order} (ho : order.validate k = .ok ()) (ho' : order'.validate k = .ok ()) :
    ∃ rows rows', store.Answers k f order rows ∧ store.Answers k f.negated order' rows' ∧
      (∀ row ∈ rows, row ∉ rows') ∧
      (f.Exhaustive store k → ∀ x ∈ store.records k, k.project x ∈ rows ∨ k.project x ∈ rows') := by
  obtain ⟨rows, ha, h⟩ := exists_answers hs hw hf ho
  obtain ⟨rows', ha', h'⟩ := exists_answers hs hw.negated hf.negated ho'
  rw [Filter.resolve_negated hk] at h'
  refine ⟨rows, rows', ha, ha', fun row hr hr' => ?_, fun he x hx => ?_⟩
  · obtain ⟨x, hx, hy, rfl⟩ := h.mem_iff.1 hr
    obtain ⟨x', hx', hy', heq⟩ := h'.mem_iff.1 hr'
    obtain rfl := hs.eq_of_project hx hx' heq
    exact Filter.not_yields_negated (f.compacted_resolve k) (Filter.resolve_ne_empty hv) hy hy'
  · rw [h.mem_iff, h'.mem_iff]
    exact (he.yields hs hw hf hv hk hx).imp (fun hy => ⟨x, hx, hy, rfl⟩)
      fun hy => ⟨x, hx, hy, rfl⟩

theorem sample_answers_negated : ∃ rows rows',
    sample.Answers .word (.group .and [.synonym .hasSome 2, .synonym .hasSome 3,
      .test Schema.Word.id (.integer .lessThan 3)]) .random rows ∧
    sample.Answers .word (.group .or [.synonym .hasNone 2, .synonym .hasNone 3,
      .test Schema.Word.id (.integer .atLeast 3)]) .random rows' ∧
    (∀ row ∈ rows, row ∉ rows') ∧
    ∀ x ∈ sample.records .word, Kind.word.project x ∈ rows ∨ Kind.word.project x ∈ rows' := by
  let f : Filter := .group .and [.synonym .hasSome 2, .synonym .hasSome 3,
    .test Schema.Word.id (.integer .lessThan 3)]
  have hw : f.WellFormed := .group (by
    simpa using ⟨Filter.wellFormed_synonym rfl, Filter.wellFormed_synonym rfl, .test rfl⟩)
  have hf : f.OverSchema := .group (by
    simpa using ⟨Filter.overSchema_synonym, Filter.overSchema_synonym,
      Schema.Word.declares_id⟩)
  have he : f.Exhaustive sample .word := by
    have ids : ∀ x ∈ sample.records .word, x.get Schema.Word.id.column ≠ .null := by decide +kernel
    refine List.forall_mem_cons.2 ⟨rfl, List.forall_mem_cons.2 ⟨rfl, ?_⟩⟩
    exact List.forall_mem_singleton.2 fun x hx => ⟨ids x hx, nofun⟩
  have ho : Order.random.validate .word = .ok () := rfl
  obtain ⟨rows, rows', ha, ha', hd, hall⟩ :=
    answers_negated lexical_sample hw hf (by decide) (by decide) ho ho
  exact ⟨rows, rows', ha, ha', hd, hall he⟩

end Store

end Lexiquery
