import Lexiquery.Proofs.Filter.Stability
import Lexiquery.Query.Basic

/-! Filters that are resolved already, in part or as a whole. A query resolves what it is given, and
the compiler the conditions of what it is given; where that was done before, nothing changes. -/

namespace Lexiquery

theorem Query.prepare_congr {f g : Filter} {k : Kind} (h : g.resolve k = f.resolve k)
    (store : Store) (order : Order) (limit : Option UInt32) :
    prepare store k g order limit = prepare store k f order limit := by
  rw [prepare, prepare, h]

theorem Statement.compile_link (r : Relationship) (t : LinkTest) (condition : Filter)
    (columns : List String) (order : Order) (limit : Option UInt32) :
    compile r.kind columns (.link r t condition) order limit =
      compile r.kind columns ((Filter.link r t condition).resolve r.kind) order limit := by
  have hf : (Filter.link r t condition).foreign? r.kind = none := by simp [Filter.foreign?]
  have hf' := ((Filter.link r t condition).normal_resolve r.kind).foreign?_eq
  rw [compile, compile, hf, hf', Filter.resolveConditions_resolve, Filter.resolve_link,
    Filter.resolveConditions]

/-- A filter resolves to the same as what it compacts, normalizes or resolves to, and all of them
prepare the same query, with the same statement and fingerprint. A link compiles to the statement of
what it resolves to, whatever its condition. -/
theorem Query.resolution_stable (f : Filter) (k : Kind) :
    (f.resolve k).resolve k = f.resolve k ∧ f.compact.resolve k = f.resolve k ∧
      (f.normalize k).resolve k = f.resolve k ∧
      (∀ g ∈ [f.compact, f.normalize k, f.resolve k], ∀ store order limit,
        prepare store k g order limit = prepare store k f order limit) ∧
      ∀ r t columns order limit, Statement.compile r.kind columns (.link r t f) order limit =
        Statement.compile r.kind columns ((Filter.link r t f).resolve r.kind) order limit := by
  have hr := f.resolve_resolve k
  have hc := f.resolve_compact k
  have hn := f.resolve_normalize k
  refine ⟨hr, hc, hn, ?_, fun r t => Statement.compile_link r t f⟩
  simpa using ⟨prepare_congr hc, prepare_congr hn, prepare_congr hr⟩

end Lexiquery
