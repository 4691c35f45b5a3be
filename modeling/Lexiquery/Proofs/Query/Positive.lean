import Lexiquery.Proofs.Filter.Merging
import Lexiquery.Proofs.Query.Answers

/-! Queries without negative clauses. Alternatives may cost them rows, but nothing that happens to a
filter between writing and running it adds one. -/

namespace Lexiquery

namespace Query

variable {store : Store} {k : Kind} {f : Filter} {order : Order} {limit : Option UInt32}

theorem statement_of_prepare {q : Query}
    (h : (prepare store k f order limit).result = .ok q) :
    q.statement = .ofFilter k k.columns (f.resolve k) order limit := by
  rw [prepare] at h
  cases ho : order.validate k with
  | error e => simp [Statement.compile, ho, bind, Except.bind, Logged.fail] at h
  | ok =>
    rw [Statement.compile_resolve ho] at h
    simp only at h
    split at h <;> cases h
    rfl

theorem rows_of_run {s : Statement} {rows : List Row} (h : s.run store = .ok rows) :
    rows = s.rows store := by
  rw [Statement.run] at h
  cases hc : s.check store with
  | error e => simp [hc, bind, Except.bind] at h
  | ok => simpa [hc, bind, Except.bind, pure, Except.pure, eq_comm] using h

theorem mem_rows_of_limit {row : Row}
    (h : row ∈ (Statement.ofFilter k k.columns f order limit).rows store) :
    row ∈ (Statement.ofFilter k k.columns f order none).rows store := by
  rw [Statement.rows_limit] at h
  cases limit with
  | none => exact h
  | some n => exact List.mem_of_mem_take h

/-- Whatever a query without negative clauses returns is a record of which its filter holds as it
was written, in any order, under any limit and whenever it is run. -/
theorem holds_of_mem_run (hs : store.Lexical) (hw : f.WellFormed) (hf : f.OverSchema)
    (hp : f.Every (fun _ _ => True) fun _ t => t.isPositive = true) {earlier : Store} {q : Query}
    (hq : (prepare earlier k f order limit).result = .ok q) {rows : List Row}
    (hr : q.statement.run store = .ok rows) {row : Row} (h : row ∈ rows) :
    ∃ x ∈ store.records k, row = k.project x ∧ f.Holds store k x := by
  have hpos : f.Positive := (hf.and hp).mono (fun _ _ => And.left) fun _ _ => id
  rw [rows_of_run hr, statement_of_prepare hq] at h
  have hsel := Statement.selects_ofFilter hs (f.normal_resolve k) ((hw.sound hf).resolve k) order
  obtain ⟨x, hx, hy, rfl⟩ := hsel.mem_iff.1 (mem_rows_of_limit h)
  refine ⟨x, hx, rfl, hpos.holds_of_normalize (Filter.holds_compact.1 ?_)⟩
  exact (hpos.resolve k).holds_of_yields (f.normal_resolve k) (f.compacted_resolve k) hy

theorem sample_holds_of_mem_run : ∃ q rows,
    (prepare .sample .word (.synonym .hasSome 2) .random none).result = .ok q ∧
    q.statement.run .sample = .ok rows ∧ ∃ row ∈ rows, ∃ x ∈ Store.sample.records .word,
      row = Kind.word.project x ∧ (Filter.synonym .hasSome 2).Holds .sample .word x := by
  let s := Statement.ofFilter .word Kind.word.columns
    ((Filter.synonym .hasSome 2).resolve .word) .random none
  have hc : s.check .sample = .ok () := by decide +kernel
  have hr : s.run .sample = .ok (s.rows .sample) := Statement.run_of_check hc
  have hq : (prepare .sample .word (.synonym .hasSome 2) .random none).result =
      .ok ⟨.word, (Filter.synonym .hasSome 2).resolve .word, s⟩ := by
    have ho : Order.random.validate .word = .ok () := rfl
    simp only [prepare, Statement.compile_resolve ho]
    rw [hc]
  have hm : Kind.word.project (Store.sample.records .word).head! ∈ s.rows .sample := by
    decide +kernel
  exact ⟨_, _, hq, hr, _, hm, holds_of_mem_run Store.lexical_sample (Filter.wellFormed_synonym rfl)
    Filter.overSchema_synonym (.link rfl (.test trivial)) hq hr hm⟩

end Query

end Lexiquery
