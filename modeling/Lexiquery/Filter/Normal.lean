import Lexiquery.Filter.Basic
import Lexiquery.Schema.Route

/-! Normal form of a filter for a kind: each clause stands on a field of that kind, and a group asks
the same of the same related rows only once. -/

namespace Lexiquery

/-- Whether two links that ask this of the same rows may be asked at once under a connective. The
union of two transitive closures is the closure of the union; for intersections this fails. -/
def LinkTest.mergesUnder : LinkTest → Connective → Bool
  | hasSome, _ | hasNone, _ => true
  | reachesSome, c => c == .or
  | reachesNone, c => c == .and

def LinkTest.within (t : LinkTest) (c : Connective) : Connective :=
  if t.isPositive then c else c.flip

@[simp] theorem LinkTest.mergesUnder_negate_flip (t : LinkTest) (c : Connective) :
    t.negate.mergesUnder c.flip = t.mergesUnder c := by
  cases t <;> cases c <;> rfl

@[simp] theorem LinkTest.within_negate_flip (t : LinkTest) (c : Connective) :
    t.negate.within c.flip = t.within c := by
  cases t <;> cases c <;> rfl

/-- A child of a group while siblings are being merged; merged links keep their conditions apart
at the place of the first of them. -/
inductive Sibling
  | single (filter : Filter)
  | merged (via : Relationship) (test : LinkTest) (connective : Connective)
      (conditions : List Sibling)

namespace Sibling

mutual

def toFilter : Sibling → Filter
  | single f => f
  | merged r t c conditions => .link r t (.group c (toFilters conditions))

def toFilters : List Sibling → List Filter
  | [] => []
  | s :: ss => s.toFilter :: toFilters ss

end

theorem toFilters_eq (ss : List Sibling) : toFilters ss = ss.map toFilter := by
  induction ss <;> simp [toFilters, *]

/-- Adds a link to the first sibling that asks the same of the same rows, if there is one; `add`
puts its condition among other conditions, which `c` joins. -/
def absorb (r : Relationship) (t : LinkTest) (c : Connective) (condition : Filter)
    (add : List Sibling → List Sibling) : List Sibling → List Sibling
  | [] => [single (.link r t condition)]
  | single (.link s u first) :: ss =>
    if s == r && u == t then merged s u c (add [single first]) :: ss
    else single (.link s u first) :: absorb r t c condition add ss
  | merged s u d conditions :: ss =>
    if s == r && u == t then merged s u d (add conditions) :: ss
    else merged s u d conditions :: absorb r t c condition add ss
  | other :: ss => other :: absorb r t c condition add ss

def insert : Filter → Connective → List Sibling → List Sibling
  | .link r t condition, c, ss =>
    if t.mergesUnder c then
      absorb r t (t.within c) condition (insert condition (t.within c)) ss
    else ss ++ [single (.link r t condition)]
  | f, _, ss => ss ++ [single f]

end Sibling

namespace Filter

def mergeSiblings (c : Connective) (fs : List Filter) : List Filter :=
  Sibling.toFilters (fs.foldl (fun ss f => Sibling.insert f c ss) [])

def along (hops : List Relationship) (f : Filter) : Filter :=
  hops.foldr (fun r g => link r .hasSome g) f

mutual

/-- The filter as one on records of kind `k`. A clause on another kind asks for some row of that
kind along the path to it. -/
def normalize : Filter → Kind → Filter
  | empty, _ => empty
  | test f t, k => along (Schema.path k f.kind) (test f t)
  | link r t condition, k => along (Schema.path k r.kind) (link r t (condition.normalize r.far))
  | group c fs, k => group c (mergeSiblings c (normalizeAll fs k))

def normalizeAll : List Filter → Kind → List Filter
  | [], _ => []
  | f :: fs, k => f.normalize k :: normalizeAll fs k

end

theorem normalizeAll_eq (fs : List Filter) (k : Kind) :
    normalizeAll fs k = fs.map (·.normalize k) := by
  induction fs <;> simp [normalizeAll, *]

mutual

/-- Drops empty filters; a group left without children is empty. -/
def compact : Filter → Filter
  | empty => empty
  | test f t => test f t
  | link r t condition => link r t condition.compact
  | group c fs =>
    match compactAll fs with
    | [] => empty
    | f :: fs => group c (f :: fs)

def compactAll : List Filter → List Filter
  | [] => []
  | f :: fs => if f.compact.isEmpty then compactAll fs else f.compact :: compactAll fs

end

theorem compactAll_eq (fs : List Filter) :
    compactAll fs = (fs.map compact).filter (!·.isEmpty) := by
  induction fs with
  | nil => rfl
  | cons f fs ih => by_cases h : f.compact.isEmpty <;> simp [compactAll, h, ih]

/-- The filter that a query of records of kind `k` stands for. -/
def resolve (f : Filter) (k : Kind) : Filter :=
  (f.normalize k).compact

end Filter

end Lexiquery
