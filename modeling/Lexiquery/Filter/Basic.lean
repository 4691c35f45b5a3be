import Lexiquery.Filter.Comparison

/-! Filters: trees of tests on columns and of conditions on related rows. -/

namespace Lexiquery

inductive Connective
  | and
  | or
  deriving DecidableEq

def Connective.flip : Connective → Connective
  | and => or
  | or => and

def Connective.keyword : Connective → String
  | and => "AND"
  | or => "OR"

@[simp] theorem Connective.flip_flip (c : Connective) : c.flip.flip = c := by
  cases c <;> rfl

inductive Test
  | integer (test : IntegerTest) (value : Int64)
  | boolean (value : Bool)
  | string (test : StringTest) (value : String)
  | null (test : NullTest)
  deriving DecidableEq

def Test.comparison : Test → Comparison
  | integer t _ => .integer t
  | boolean _ => .boolean
  | string t _ => .string t
  | null t => .null t

def Test.negate : Test → Test
  | integer t n => integer t.negate n
  | boolean b => boolean !b
  | string t s => string t.negate s
  | null t => null t.negate

@[simp] theorem Test.negate_negate (t : Test) : t.negate.negate = t := by
  cases t <;> simp [negate]

@[simp] theorem Test.comparison_negate (t : Test) : t.negate.comparison = t.comparison.negate := by
  cases t <;> rfl

inductive Filter
  | empty
  | test (field : Field) (test : Test)
  | link (via : Relationship) (test : LinkTest) (condition : Filter)
  | group (connective : Connective) (children : List Filter)

namespace Filter

instance : Inhabited Filter := ⟨empty⟩

@[elab_as_elim]
theorem induction {motive : Filter → Prop}
    (empty : motive .empty)
    (test : ∀ field test, motive (.test field test))
    (link : ∀ via test condition, motive condition → motive (.link via test condition))
    (group : ∀ connective children, (∀ f ∈ children, motive f) →
      motive (.group connective children)) :
    ∀ f, motive f
  | .empty => empty
  | .test f t => test f t
  | .link r t c => link r t c (induction empty test link group c)
  | .group c fs => group c fs fun f _ => induction empty test link group f

def isEmpty : Filter → Bool
  | empty => true
  | _ => false

mutual

def nodeCount : Filter → Nat
  | empty => 1
  | test _ _ => 1
  | link _ _ condition => 1 + condition.nodeCount
  | group _ children => 1 + nodeCountAll children

def nodeCountAll : List Filter → Nat
  | [] => 0
  | f :: fs => f.nodeCount + nodeCountAll fs

end

theorem nodeCountAll_map {g : Filter → Filter} {fs : List Filter}
    (h : ∀ f ∈ fs, (g f).nodeCount = f.nodeCount) : nodeCountAll (fs.map g) = nodeCountAll fs := by
  induction fs <;> simp_all [nodeCountAll]

mutual

/-- The logical negation, pushed down to the leaves. A condition on related rows keeps its meaning;
what is asked of those rows flips. -/
def negated : Filter → Filter
  | empty => empty
  | test f t => test f t.negate
  | link r t condition => link r t.negate condition
  | group c children => group c.flip (negatedAll children)

def negatedAll : List Filter → List Filter
  | [] => []
  | f :: fs => f.negated :: negatedAll fs

end

theorem negatedAll_eq (fs : List Filter) : negatedAll fs = fs.map negated := by
  induction fs <;> simp [negatedAll, *]

@[simp] theorem negated_negated (f : Filter) : f.negated.negated = f := by
  induction f using induction with
  | empty => rfl
  | test => simp [negated]
  | link => simp [negated]
  | group c fs ih =>
    simp only [negated, negatedAll_eq, List.map_map, Connective.flip_flip, group.injEq, true_and]
    exact (List.map_congr_left (by simpa using ih)).trans (List.map_id fs)

@[simp] theorem nodeCount_negated (f : Filter) : f.negated.nodeCount = f.nodeCount := by
  induction f using induction with
  | group c fs ih =>
    rw [negated, nodeCount, negatedAll_eq, nodeCountAll_map ih, nodeCount]
  | _ => simp [negated, nodeCount]

/-- Two filters under one connective: a group that already stands under it is extended, and an empty
left side yields to the right. -/
def combine (c : Connective) : Filter → Filter → Filter
  | empty, g => g
  | group d fs, g => if d = c then group c (fs ++ [g]) else group c [group d fs, g]
  | f, g => group c [f, g]

instance : AndOp Filter := ⟨combine .and⟩

instance : OrOp Filter := ⟨combine .or⟩

/-- Appends a child to a group; any other filter is combined with it under AND. -/
def push : Filter → Filter → Filter
  | group c fs, g => group c (fs ++ [g])
  | f, g => combine .and f g

mutual

def sameAs : Filter → Filter → Bool
  | empty, empty => true
  | test f t, test g u => f == g && t == u
  | link r t condition, link s u condition' => r == s && t == u && condition.sameAs condition'
  | group c fs, group d gs => c == d && sameAll fs gs
  | _, _ => false

def sameAll : List Filter → List Filter → Bool
  | [], [] => true
  | f :: fs, g :: gs => f.sameAs g && sameAll fs gs
  | _, _ => false

end

instance : BEq Filter := ⟨sameAs⟩

end Filter

end Lexiquery
