import Lexiquery.Filter.Normal
import Lexiquery.Statement.Basic

/-! From a filter to a statement. Each link joins the tables it leads through; what must have no
related row becomes a common table expression of the rows that have one, joined so that only rows
without a partner remain. -/

namespace Lexiquery

structure Numbering where
  aliases : Nat
  ctes : Nat
  deriving DecidableEq

structure Fragment where
  joins : List Join
  condition : Condition
  ctes : List Cte
  tables : List Alias

namespace Fragment

def ofCondition (c : Condition) : Fragment := ⟨[], c, [], []⟩

def all (c : Connective) (ps : List Fragment) : Fragment where
  joins := ps.flatMap (·.joins)
  condition := .all c (ps.map (·.condition))
  ctes := ps.flatMap (·.ctes)
  tables := ps.flatMap (·.tables)

end Fragment

def Numbering.after (n : Numbering) (p : Fragment) : Numbering :=
  ⟨n.aliases + p.tables.length, n.ctes + p.ctes.length⟩

def IntegerTest.operator : IntegerTest → Operator
  | equals => .equals
  | differs => .differs
  | atLeast => .atLeast
  | greaterThan => .greaterThan
  | atMost => .atMost
  | lessThan => .lessThan

def StringTest.operator : StringTest → Operator
  | equals => .equals
  | differs => .differs
  | like => .like
  | notLike => .notLike

def Test.condition (r : ColumnRef) : Test → Condition
  | integer t n => .compare r t.operator (.integer n)
  | boolean b => .compare r .equals (.ofBool b)
  | string t s => .compare r t.operator (.string s)
  | null t => .null r t

/-- Two hops: the near column equals `nearColumn` of a row of `table`, whose `farColumn` equals
`targetColumn` of the far row. -/
structure Association where
  table : String
  nearColumn : String
  farColumn : String
  targetColumn : String

inductive Passage
  | key
  | association (association : Association)
  | closure (table joinColumn foreignJoinColumn : String)

def Relationship.passage (r : Relationship) (t : LinkTest) : Passage :=
  match r.link with
  | .key .. | .keyWhere .. => .key
  | .through _ table foreignColumn _ =>
    .association ⟨table, r.column, foreignColumn, foreignColumn⟩
  | .self table joinColumn foreignJoinColumn hierarchical =>
    if hierarchical && t.isTransitive then .closure table joinColumn foreignJoinColumn
    else .association ⟨table, joinColumn, foreignJoinColumn, r.column⟩

def Relationship.fixedOn (r : Relationship) (a : Alias) : List JoinOn :=
  (r.fixed?.map fun fixed => JoinOn.literal ⟨a, fixed.column⟩ fixed.value).toList

def Relationship.withFixed (r : Relationship) (a : Alias) (c : Condition) : Condition :=
  match r.fixed? with
  | none => c
  | some fixed => .all .and [c, .literal ⟨a, fixed.column⟩ fixed.value]

def Fragment.select (p : Fragment) (column : ColumnRef) : Select :=
  ⟨column, p.joins, p.condition⟩

/-- Joins a new common table expression on a column and asks for a row of it, or for none. It
follows the expressions `ctes`, and its alias the aliases `tables`, which its body brought along. -/
def Fragment.hoist (owner : ColumnRef) (far : Kind) (positive : Bool) (body : CteBody)
    (ctes : List Cte) (tables : List Alias) (n : Numbering) : Fragment :=
  let name : CteName := ⟨far.table, n.ctes + ctes.length + 1⟩
  let partner : ColumnRef := ⟨⟨.cte name, n.aliases + tables.length + 1⟩, owner.column⟩
  { joins := [⟨if positive then .inner else .left, partner.table, [.columns owner partner]⟩]
    condition := if positive then .always else .null partner .isNull
    ctes := ctes ++ [⟨name, owner.column, body⟩]
    tables := tables ++ [partner.table] }

def Fragment.alongKey (p : Fragment) (r : Relationship) (t : LinkTest) (owner : ColumnRef)
    (far : Alias) (n : Numbering) : Fragment :=
  let target : ColumnRef := ⟨far, r.column⟩
  if t.isPositive then
    { p with
      joins := ⟨.inner, far, .columns owner target :: r.fixedOn far⟩ :: p.joins
      tables := far :: p.tables }
  else
    let body : Select := ⟨target, p.joins, r.withFixed far p.condition⟩
    .hoist owner r.far false (.select body) p.ctes (far :: p.tables) n

/-- A link through an association, `p` being the fragment of its condition on the rows of `far`. The
association may list one near row many times, so what is negated is the set of near rows. -/
def Fragment.alongAssociation (p : Fragment) (r : Relationship) (assoc : Association)
    (t : LinkTest) (owner : ColumnRef) (relation far : Alias) (n : Numbering) : Fragment :=
  let near : ColumnRef := ⟨relation, assoc.nearColumn⟩
  let farJoin : Join :=
    ⟨.inner, far, [.columns ⟨relation, assoc.farColumn⟩ ⟨far, assoc.targetColumn⟩]⟩
  if t.isPositive then
    { p with
      joins := ⟨.inner, relation, .columns owner near :: r.fixedOn relation⟩ :: farJoin :: p.joins
      tables := relation :: far :: p.tables }
  else
    let body : Select := ⟨near, farJoin :: p.joins, r.withFixed relation p.condition⟩
    .hoist owner r.far false (.select body) p.ctes (relation :: far :: p.tables) n

def Fragment.alongClosure (p : Fragment) (r : Relationship) (t : LinkTest) (owner : ColumnRef)
    (far : Alias) (step : ClosureStep) (n : Numbering) : Fragment :=
  let base : Select := ⟨⟨far, r.column⟩, p.joins, p.condition⟩
  .hoist owner r.far t.isPositive (.closure base step) p.ctes
    (far :: p.tables ++ [step.relation]) n

namespace Filter

mutual

def lower : Filter → Alias → Numbering → Fragment
  | empty, _, _ => .ofCondition .always
  | test f t, a, _ => .ofCondition (t.condition ⟨a, f.column⟩)
  | group c fs, a, n => .all c (lowerAll fs a n)
  | link r t condition, a, n =>
    let owner : ColumnRef := ⟨a, r.column⟩
    let fresh (name : String) (skip : Nat) : Alias := ⟨.table name, n.aliases + skip + 1⟩
    match r.passage t with
    | .key =>
      let far := fresh r.far.table 0
      (condition.lower far ⟨n.aliases + 1, n.ctes⟩).alongKey r t owner far n
    | .association assoc =>
      let relation := fresh assoc.table 0
      let far := fresh r.far.table 1
      (condition.lower far ⟨n.aliases + 2, n.ctes⟩).alongAssociation r assoc t owner relation far n
    | .closure table joinColumn foreignJoinColumn =>
      let far := fresh r.far.table 0
      let p := condition.lower far ⟨n.aliases + 1, n.ctes⟩
      let relation := fresh table (p.tables.length + 1)
      p.alongClosure r t owner far ⟨relation, joinColumn, foreignJoinColumn⟩ n

def lowerAll : List Filter → Alias → Numbering → List Fragment
  | [], _, _ => []
  | f :: fs, a, n =>
    let p := f.lower a n
    p :: lowerAll fs a (n.after p)

end

mutual

/-- The leftmost field, conditions on related rows aside, that is not one of kind `k`. -/
def foreign? (k : Kind) : Filter → Option Field
  | empty => none
  | test f _ => if f.kind = k then none else some f
  | link r _ _ => if r.kind = k then none else some r
  | group _ fs => foreignAny? k fs

def foreignAny? (k : Kind) : List Filter → Option Field
  | [] => none
  | f :: fs => (f.foreign? k).or (foreignAny? k fs)

end

mutual

def resolveConditions : Filter → Filter
  | link r t condition => link r t (condition.resolve r.far)
  | group c fs => group c (resolveConditionsAll fs)
  | f => f

def resolveConditionsAll : List Filter → List Filter
  | [] => []
  | f :: fs => f.resolveConditions :: resolveConditionsAll fs

end

end Filter

def Statement.compile (k : Kind) (columns : List String) (f : Filter) (order : Order)
    (limit : Option UInt32) : Except CompileError Statement := do
  order.validate k
  if let some g := f.foreign? k then throw (.foreignField g k)
  let main : Alias := ⟨.table k.table, 1⟩
  let p := f.resolveConditions.lower main ⟨1, 0⟩
  return {
    kind := k
    main
    columns
    ctes := p.ctes
    joins := p.joins
    condition := p.condition
    order
    limit
    tables := main :: p.tables }

end Lexiquery
