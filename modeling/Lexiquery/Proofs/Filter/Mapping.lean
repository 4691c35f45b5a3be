import Lexiquery.Proofs.Filter.NormalForm

/-! Other tests in the place of the tests of a filter. Normalizing and compacting look at fields,
links and connectives, never into a test; so they commute with whatever is done to the tests. -/

namespace Lexiquery

variable (m : Test → Test)

namespace Filter

mutual

def mapTests : Filter → Filter
  | empty => empty
  | test f t => test f (m t)
  | link r t condition => link r t condition.mapTests
  | group c fs => group c (mapTestsAll fs)

def mapTestsAll : List Filter → List Filter
  | [] => []
  | f :: fs => f.mapTests :: mapTestsAll fs

end

theorem mapTestsAll_eq (fs : List Filter) : mapTestsAll m fs = fs.map (mapTests m) := by
  induction fs <;> simp [mapTestsAll, *]

end Filter

namespace Sibling

mutual

def mapTests : Sibling → Sibling
  | single f => single (f.mapTests m)
  | merged r t c conditions => merged r t c (mapTestsAll conditions)

def mapTestsAll : List Sibling → List Sibling
  | [] => []
  | s :: ss => s.mapTests :: mapTestsAll ss

end

theorem mapTestsAll_eq (ss : List Sibling) : mapTestsAll m ss = ss.map (mapTests m) := by
  induction ss <;> simp [mapTestsAll, *]

mutual

theorem toFilter_mapTests : ∀ s : Sibling, (s.mapTests m).toFilter = s.toFilter.mapTests m
  | single _ => rfl
  | merged r t c conditions => by
    simp only [mapTests, toFilter, Filter.mapTests, toFilters_mapTestsAll conditions]

theorem toFilters_mapTestsAll : ∀ ss : List Sibling,
    toFilters (mapTestsAll m ss) = Filter.mapTestsAll m (toFilters ss)
  | [] => rfl
  | s :: ss => by
    simp only [mapTestsAll, toFilters, Filter.mapTestsAll, toFilter_mapTests s,
      toFilters_mapTestsAll ss]

end

theorem absorb_mapTests {r : Relationship} {t : LinkTest} {c : Connective} {condition : Filter}
    {add add' : List Sibling → List Sibling}
    (h : ∀ ss, add' (ss.map (mapTests m)) = (add ss).map (mapTests m)) (ss : List Sibling) :
    absorb r t c (condition.mapTests m) add' (ss.map (mapTests m)) =
      (absorb r t c condition add ss).map (mapTests m) := by
  induction ss with
  | nil => rfl
  | cons s ss ih =>
    match s with
    | single (.link s u first) =>
      have hf : add' [single (first.mapTests m)] = (add [single first]).map (mapTests m) :=
        h [single first]
      simp only [List.map_cons, mapTests, Filter.mapTests, absorb, ih, hf]
      split <;> simp [mapTests, mapTestsAll_eq, Filter.mapTests]
    | merged s u d conditions =>
      simp only [List.map_cons, mapTests, mapTestsAll_eq, absorb, ih, h]
      split <;> simp [mapTests, mapTestsAll_eq]
    | single .empty | single (.test ..) | single (.group ..) =>
      simp only [List.map_cons, mapTests, Filter.mapTests, absorb, ih]

theorem insert_mapTests (f : Filter) (c : Connective) (ss : List Sibling) :
    insert (f.mapTests m) c (ss.map (mapTests m)) = (insert f c ss).map (mapTests m) := by
  induction f using Filter.induction generalizing c ss with
  | link r t condition ih =>
    rw [Filter.mapTests, insert, insert]
    split
    · exact absorb_mapTests m (ih _) ss
    · simp [mapTests, Filter.mapTests]
  | _ => simp [insert, mapTests, Filter.mapTests]

end Sibling

namespace Filter

variable {m}

theorem mergeSiblings_mapTests (c : Connective) (fs : List Filter) :
    mergeSiblings c (fs.map (mapTests m)) = (mergeSiblings c fs).map (mapTests m) :=
  mergeSiblings_map (fun f => Sibling.insert_mapTests m f c) (Sibling.toFilter_mapTests m) fs

theorem along_mapTests (hops : List Relationship) (f : Filter) :
    along hops (f.mapTests m) = (along hops f).mapTests m := by
  induction hops with
  | nil => rfl
  | cons r hops ih => exact congrArg (link r .hasSome) ih

theorem normalize_mapTests (f : Filter) (k : Kind) :
    (f.mapTests m).normalize k = (f.normalize k).mapTests m := by
  induction f using induction generalizing k with
  | empty => rfl
  | test f t => exact along_mapTests _ (.test f t)
  | link r t condition ih => rw [mapTests, normalize, normalize, ih, ← along_mapTests, mapTests]
  | group c fs ih =>
    rw [mapTests, normalize, normalize, mapTests]
    simp only [mapTestsAll_eq, normalizeAll_eq, List.map_map, ← mergeSiblings_mapTests]
    congr 2
    exact List.map_congr_left fun f hf => ih f hf k

theorem isEmpty_mapTests (f : Filter) : (f.mapTests m).isEmpty = f.isEmpty := by
  cases f <;> rfl

theorem compact_mapTests (f : Filter) : (f.mapTests m).compact = f.compact.mapTests m := by
  induction f using induction with
  | empty => rfl
  | test => rfl
  | link r t condition ih => rw [mapTests, compact, ih, compact, mapTests]
  | group c fs ih =>
    rw [mapTests, mapTestsAll_eq, compact, compact, compactAll_map ih isEmpty_mapTests]
    cases compactAll fs <;> simp [mapTests, mapTestsAll_eq]

theorem resolve_mapTests (f : Filter) (k : Kind) :
    (f.mapTests m).resolve k = (f.resolve k).mapTests m := by
  rw [resolve, normalize_mapTests, compact_mapTests, resolve]

end Filter

end Lexiquery
