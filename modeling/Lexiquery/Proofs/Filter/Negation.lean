import Lexiquery.Proofs.Filter.Every
import Lexiquery.Proofs.Filter.NormalForm

/-! Negated filters. Siblings that one connective merges the other one merges after each was
negated, and their conditions are joined in the same way; so it is all the same whether a filter on
a kind is negated before it is resolved or after. -/

namespace Lexiquery

theorem LinkTest.negate_beq (t u : LinkTest) : (t.negate == u.negate) = (t == u) := by
  cases t <;> cases u <;> rfl

namespace Sibling

def negated : Sibling → Sibling
  | single f => single f.negated
  | merged r t c conditions => merged r t.negate c conditions

theorem toFilter_negated (s : Sibling) : s.negated.toFilter = s.toFilter.negated := by
  cases s with
  | single => rfl
  | merged => simp [negated, toFilter, Filter.negated]

theorem absorb_negated {r : Relationship} {t : LinkTest} {c : Connective} {condition : Filter}
    {add : List Sibling → List Sibling} {ss : List Sibling} :
    absorb r t.negate c condition add (ss.map negated) =
      (absorb r t c condition add ss).map negated := by
  induction ss with
  | nil => rfl
  | cons s ss ih =>
    match s with
    | single (.link s u first) =>
      simp only [List.map_cons, negated, Filter.negated, absorb, ih, LinkTest.negate_beq]
      split <;> rfl
    | merged s u d conditions =>
      simp only [List.map_cons, negated, absorb, ih, LinkTest.negate_beq]
      split <;> rfl
    | single .empty | single (.test ..) | single (.group ..) =>
      simp only [List.map_cons, negated, Filter.negated, absorb, ih]

theorem insert_negated {f : Filter} {c : Connective} {ss : List Sibling} :
    insert f.negated c.flip (ss.map negated) = (insert f c ss).map negated := by
  match f with
  | .link r t condition =>
    simp only [Filter.negated, insert, LinkTest.mergesUnder_negate_flip,
      LinkTest.within_negate_flip]
    split
    · exact absorb_negated
    · simp [negated, Filter.negated]
  | .empty | .test .. | .group .. => simp [insert, negated, Filter.negated]

end Sibling

namespace Filter

theorem mergeSiblings_negated (c : Connective) (fs : List Filter) :
    mergeSiblings c.flip (fs.map negated) = (mergeSiblings c fs).map negated :=
  mergeSiblings_map (fun _ _ => Sibling.insert_negated) Sibling.toFilter_negated fs

theorem normalize_negated {f : Filter} {k : Kind} (h : f.foreign? k = none) :
    f.negated.normalize k = (f.normalize k).negated := by
  induction f using induction with
  | empty => rfl
  | test f t =>
    obtain rfl : f.kind = k := by simpa [foreign?] using h
    simp [negated, normalize, along]
  | link r t condition =>
    obtain rfl : r.kind = k := by simpa [foreign?] using h
    simp [negated, normalize, along]
  | group c fs ih =>
    have hfs := foreignAny?_eq_none.1 h
    simp only [negated, normalize, negatedAll_eq, normalizeAll_eq, List.map_map,
      ← mergeSiblings_negated]
    congr 2
    exact List.map_congr_left fun f hf => ih f hf (hfs f hf)

theorem isEmpty_negated (f : Filter) : f.negated.isEmpty = f.isEmpty := by
  cases f <;> rfl

theorem compact_negated (f : Filter) : f.negated.compact = f.compact.negated := by
  induction f using induction with
  | empty => rfl
  | test => rfl
  | link => rfl
  | group c fs ih =>
    rw [negated, negatedAll_eq, compact, compact, compactAll_map ih isEmpty_negated]
    cases compactAll fs <;> simp [negated, negatedAll_eq]

theorem resolve_negated {f : Filter} {k : Kind} (h : f.foreign? k = none) :
    f.negated.resolve k = (f.resolve k).negated := by
  rw [resolve, normalize_negated h, compact_negated, resolve]

theorem Every.negated {p : Field → Test → Prop} {q : Relationship → LinkTest → Prop}
    (hp : ∀ f t, p f t → p f t.negate) (hq : ∀ r t, q r t → q r t.negate) {f : Filter}
    (h : f.Every p q) : f.negated.Every p q := by
  induction h with
  | empty => exact .empty
  | test h => exact .test (hp _ _ h)
  | link h hc => exact .link (hq _ _ h) hc
  | group _ ih =>
    rw [Filter.negated, negatedAll_eq]
    exact .group (List.forall_mem_map.2 ih)

theorem OverSchema.negated {f : Filter} (h : f.OverSchema) : f.negated.OverSchema :=
  Every.negated (fun _ _ => id) (fun _ _ => id) h

theorem WellFormed.negated {f : Filter} (h : f.WellFormed) : f.negated.WellFormed := by
  refine wellFormed_iff.2 (Every.negated (fun f t ha => ?_) (fun r t ha => ?_) (wellFormed_iff.1 h))
  · rwa [Test.comparison_negate, Comparison.accepts_negate]
  · exact ((Comparison.link t).accepts_negate r).trans ha

end Filter

end Lexiquery
