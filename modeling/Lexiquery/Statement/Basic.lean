import Lexiquery.Binding
import Lexiquery.Order

/-! Statements: one select over aliased tables, preceded by common table expressions. -/

namespace Lexiquery

structure CteName where
  table : String
  number : Nat
  deriving DecidableEq

inductive Source
  | table (name : String)
  | cte (name : CteName)
  deriving DecidableEq

structure Alias where
  source : Source
  number : Nat
  deriving DecidableEq

structure ColumnRef where
  table : Alias
  column : String
  deriving DecidableEq

inductive Operator
  | equals
  | differs
  | atLeast
  | greaterThan
  | atMost
  | lessThan
  | like
  | notLike
  deriving DecidableEq

inductive Condition
  | always
  | compare (column : ColumnRef) (op : Operator) (value : Binding)
  | literal (column : ColumnRef) (value : Int64)
  | null (column : ColumnRef) (test : NullTest)
  | group (connective : Connective) (children : List Condition)

namespace Condition

def isAlways : Condition → Bool
  | always => true
  | _ => false

/-- Conditions under one connective. What always holds is left out under AND; under OR it stays, so
that the others are still written. -/
def all (c : Connective) (children : List Condition) : Condition :=
  if children.all isAlways then always
  else match c with
    | .and => group .and (children.filter (!·.isAlways))
    | .or => group .or children

end Condition

inductive JoinOn
  | columns (left right : ColumnRef)
  | literal (column : ColumnRef) (value : Int64)
  deriving DecidableEq

inductive JoinType
  | inner
  | left
  deriving DecidableEq

structure Join where
  type : JoinType
  table : Alias
  on : List JoinOn
  deriving DecidableEq

structure Select where
  column : ColumnRef
  joins : List Join
  condition : Condition

/-- The rows of a relation whose foreign join column is already in a closure; they add their join
column. -/
structure ClosureStep where
  relation : Alias
  joinColumn : String
  foreignJoinColumn : String

inductive CteBody
  | select (select : Select)
  | closure (base : Select) (step : ClosureStep)

structure Cte where
  name : CteName
  column : String
  body : CteBody

structure Statement where
  kind : Kind
  main : Alias
  columns : List String
  ctes : List Cte
  joins : List Join
  condition : Condition
  order : Order
  limit : Option UInt32
  tables : List Alias

def CteBody.joinCount : CteBody → Nat
  | select s => s.joins.length
  | closure base _ => base.joins.length + 1

namespace Statement

/-- The column by which rows that the joins repeat are gathered into one. -/
def groupColumn (s : Statement) : String :=
  s.columns.head?.getD s.kind.primaryKey

def cteCount (s : Statement) : Nat := s.ctes.length

def joinCount (s : Statement) : Nat :=
  s.joins.length + s.ctes.foldr (fun c n => c.body.joinCount + n) 0

end Statement

end Lexiquery
