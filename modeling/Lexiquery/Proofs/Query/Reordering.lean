import Lexiquery.Proofs.Filter.Commuting
import Lexiquery.Proofs.Query.Answers

/-! Queries of filters that differ in the order of their children. -/

namespace Lexiquery

namespace Store

theorem Selects.perm {store : Store} {k : Kind} {P Q : Row → Prop} {rows rows' : List Row}
    (h : store.Selects k P rows) (h' : store.Selects k Q rows') (hpq : ∀ x, P x ↔ Q x) :
    rows.Perm rows' := by
  obtain ⟨xs, hn, hm, rfl⟩ := h
  obtain ⟨ys, hn', hm', rfl⟩ := h'
  refine List.Perm.map _ ((List.perm_ext_iff_of_nodup hn hn').2 ?_)
  intro x
  rw [hm, hm', hpq]

/-- The order in which the children of a group stand makes no difference to what a query selects,
wherever the group is. -/
theorem answers_reordered {store : Store} (hs : store.Lexical) {f g : Filter} {k : Kind}
    (hw : f.WellFormed) (hf : f.OverSchema) (h : f.Reordered g) {order order' : Order}
    (ho : order.validate k = .ok ()) (ho' : order'.validate k = .ok ()) :
    ∃ rows rows', store.Answers k f order rows ∧ store.Answers k g order' rows' ∧
      rows.Perm rows' := by
  obtain ⟨rows, ha, hr⟩ := exists_answers hs hw hf ho
  obtain ⟨rows', ha', hr'⟩ := exists_answers hs (h.wellFormed hw) (h.overSchema hf) ho'
  refine ⟨rows, rows', ha, ha', hr.perm hr' ?_⟩
  intro x
  exact h.yields_resolve hf k

/-- Two alternatives that merge, one of them with a condition in another order. -/
theorem sample_answers_reordered : ∃ rows rows',
    sample.Answers .word (.group .or [.link Schema.Word.synonyms .hasSome
      (.group .and [.synonym .hasNone 1, .synonym .hasNone 3]), .synonym .hasSome 2]) .random rows ∧
    sample.Answers .word (.group .or [.synonym .hasSome 2, .link Schema.Word.synonyms .hasSome
      (.group .and [.synonym .hasNone 3, .synonym .hasNone 1])]) .random rows' ∧
    rows.Perm rows' := by
  have ho : Order.random.validate .word = .ok () := rfl
  have hw : (Filter.group .or [.link Schema.Word.synonyms .hasSome
      (.group .and [.synonym .hasNone 1, .synonym .hasNone 3]),
      .synonym .hasSome 2]).WellFormed := by
    have accepts : (Comparison.link .hasSome).accepts Schema.Word.synonyms = true := rfl
    have wf {t : LinkTest} {n : Int64} (ht : t.isTransitive = false) :
        (Filter.synonym t n).WellFormed := Filter.wellFormed_synonym ht
    simp [Filter.wellFormed_group, Filter.wellFormed_link, accepts, wf (t := .hasNone) rfl,
      wf (t := .hasSome) rfl]
  have hf : (Filter.group .or [.link Schema.Word.synonyms .hasSome
      (.group .and [.synonym .hasNone 1, .synonym .hasNone 3]),
      .synonym .hasSome 2]).OverSchema := by
    simp [Filter.OverSchema, Filter.synonym, Schema.Word.declares_synonyms,
      Schema.Word.declares_id]
  refine answers_reordered lexical_sample hw hf ?_ ho ho
  refine .trans (.children (.swap ..)) (.child [_] [] (.condition _ _ ?_))
  exact .children (.swap ..)

end Store

end Lexiquery
