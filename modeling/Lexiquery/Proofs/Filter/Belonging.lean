import Lexiquery.Proofs.Filter.Every
import Lexiquery.Proofs.Filter.NormalForm

/-! Filters whose clauses all stand on fields of the kind at hand. Statements are compiled from such
filters only: the clauses outside of conditions are checked, and conditions are resolved. -/

namespace Lexiquery

namespace Filter

/-- All clauses stand on fields of the kind at hand; within a condition that is the kind of the
related rows. -/
inductive Belongs : Kind → Filter → Prop
  | empty {k : Kind} : Belongs k empty
  | test {f : Field} {t : Test} : Belongs f.kind (test f t)
  | link {r : Relationship} {t : LinkTest} {condition : Filter} :
    Belongs r.far condition → Belongs r.kind (link r t condition)
  | group {k : Kind} {c : Connective} {fs : List Filter} :
    (∀ f ∈ fs, Belongs k f) → Belongs k (group c fs)

theorem belongs_test_iff {k : Kind} {f : Field} {t : Test} :
    (test f t).Belongs k ↔ f.kind = k :=
  ⟨fun h => by cases h; rfl, fun h => h ▸ .test⟩

theorem belongs_link_iff {k : Kind} {r : Relationship} {t : LinkTest} {condition : Filter} :
    (link r t condition).Belongs k ↔ r.kind = k ∧ condition.Belongs r.far :=
  ⟨fun h => by cases h with | link h => exact ⟨rfl, h⟩, fun h => h.1 ▸ .link h.2⟩

theorem belongs_group_iff {k : Kind} {c : Connective} {fs : List Filter} :
    (group c fs).Belongs k ↔ ∀ f ∈ fs, f.Belongs k :=
  ⟨fun h => by cases h with | group h => exact h, .group⟩

theorem Normal.belongs {k : Kind} {f : Filter} (h : f.Normal k) : f.Belongs k := by
  induction h with
  | empty => exact .empty
  | test => exact .test
  | link _ ih => exact .link ih
  | group _ _ ih => exact .group ih

theorem belongs_resolveConditions {k : Kind} {f : Filter} (h : f.foreign? k = none) :
    f.resolveConditions.Belongs k := by
  induction f using induction with
  | empty => exact .empty
  | test f t =>
    obtain rfl : f.kind = k := by simpa [foreign?] using h
    exact .test
  | link r t condition =>
    obtain rfl : r.kind = k := by simpa [foreign?] using h
    exact .link (normal_resolve condition r.far).belongs
  | group c fs ih =>
    rw [resolveConditions, resolveConditionsAll_eq]
    refine .group (List.forall_mem_map.2 fun f hf => ih f hf ?_)
    exact foreignAny?_eq_none.1 h f hf

theorem every_resolveConditions {p : Field → Test → Prop} {q : Relationship → LinkTest → Prop}
    (hq : ∀ k l r, Schema.route k l = some r → q r .hasSome) {f : Filter} (h : f.Every p q) :
    f.resolveConditions.Every p q := by
  induction h with
  | empty => exact .empty
  | test h => exact .test h
  | link h hc _ => exact .link h (every_compact (every_normalize hq hc _))
  | group _ ih =>
    rw [resolveConditions, resolveConditionsAll_eq]
    exact .group (List.forall_mem_map.2 ih)

theorem OverSchema.resolveConditions {f : Filter} (h : f.OverSchema) :
    f.resolveConditions.OverSchema :=
  every_resolveConditions (fun _ _ _ hr => Schema.declares_of_route hr) h

end Filter

end Lexiquery
