import Lexiquery.Query.Basic
import Lexiquery.Proofs.Filter.Guarded
import Lexiquery.Proofs.Statement.Running

/-! What a query of a kind gives. A guarded filter selects the records it holds of. -/

namespace Lexiquery

/-- The rows of the statement that a query compiles, which are returned unless the statement is
larger than any may be. -/
def Store.Answers (store : Store) (k : Kind) (f : Filter) (order : Order) (rows : List Row) :
    Prop :=
  ∃ s, Statement.compile k k.columns (f.resolve k) order none = .ok s ∧ s.rows store = rows ∧
    (s.Fits → order.OverSchema → s.run store = .ok rows ∧
      (Query.prepare store k f order none).result = .ok ⟨k, f.resolve k, s⟩)

namespace Store

variable {store : Store} (hs : store.Lexical) {f : Filter} {k : Kind} {order : Order}
  (hw : f.WellFormed) (hf : f.OverSchema) (ho : order.validate k = .ok ())
include hs hw hf ho

theorem answers_ofFilter : store.Answers k f order
    ((Statement.ofFilter k k.columns (f.resolve k) order none).rows store) := by
  have hsound := (hw.sound hf).resolve k
  refine ⟨_, Statement.compile_resolve ho f, rfl, fun hfit hd => ?_⟩
  have hc := Statement.check_ofFilter hs (f.normal_resolve k) hsound ho hd hfit
  exact ⟨Statement.run_of_check hc, by simp [Query.prepare, Statement.compile_resolve ho, hc]⟩

/-- Every query over the schema has an answer: the records that its filter, resolved, yields. -/
theorem exists_answers :
    ∃ rows, store.Answers k f order rows ∧
      store.Selects k ((f.resolve k).Yields store · true) rows :=
  ⟨_, answers_ofFilter hs hw hf ho,
    Statement.selects_ofFilter hs (f.normal_resolve k) ((hw.sound hf).resolve k) order⟩

/-- A query selects each record once of which the resolved filter holds, and no other, provided that
none of two or more alternatives joins related rows. -/
theorem answers_records_of_guarded (hg : (f.resolve k).Guarded) :
    ∃ rows, store.Answers k f order rows ∧
      store.Selects k ((f.resolve k).Holds store k) rows := by
  obtain ⟨rows, ha, h⟩ := exists_answers hs hw hf ho
  exact ⟨rows, ha, h.congr fun x _ => hg.yields_iff (f.normal_resolve k) (f.compacted_resolve k)⟩

end Store

theorem Schema.Word.declares_id : Declares id :=
  @Declares.constant "word.ID" _ (by simp [catalogue])

theorem Schema.Word.declares_synonyms : Declares synonyms.field :=
  @Declares.constant "word.SYNONYMS" _ (by simp [catalogue])

namespace Filter

def synonym (t : LinkTest) (id : Int64) : Filter :=
  link Schema.Word.synonyms t (test Schema.Word.id (.integer .equals id))

variable {t : LinkTest} {id : Int64}

theorem wellFormed_synonym (ht : t.isTransitive = false) : (synonym t id).WellFormed :=
  .link (by rw [Comparison.accepts, ht]; rfl) (.test rfl)

theorem overSchema_synonym : (synonym t id).OverSchema :=
  .link Schema.Word.declares_synonyms (.test Schema.Word.declares_id)

theorem normal_synonym : (synonym t id).Normal .word :=
  normal_link_iff.2 ⟨rfl, normal_test_iff.2 rfl⟩

theorem not_vanishes_synonym : ¬ (synonym t id).Vanishes := not_vanishes_link

theorem guarded_synonym : ((synonym t id).resolve .word).Guarded := by
  rw [normal_synonym.resolve_eq (.link .test)]
  exact .link .test

end Filter

namespace Store

theorem sample_answers_records : ∃ rows, sample.Answers .word (.synonym .hasNone 2) .random rows ∧
    sample.Selects .word (((Filter.synonym .hasNone 2).resolve .word).Holds sample .word) rows :=
  answers_records_of_guarded lexical_sample (Filter.wellFormed_synonym rfl)
    Filter.overSchema_synonym rfl Filter.guarded_synonym

end Store

end Lexiquery
