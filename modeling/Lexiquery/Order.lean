import Lexiquery.Field

/-! The order of the rows of a query. -/

namespace Lexiquery

inductive Direction
  | ascending
  | descending
  deriving DecidableEq

def Direction.keyword : Direction → String
  | ascending => "ASC"
  | descending => "DESC"

inductive Order
  | random
  | by (field : Field) (direction : Direction)

namespace Order

instance : Inhabited Order := ⟨random⟩

def ascending (f : Field) : Order := .by f .ascending

def descending (f : Field) : Order := .by f .descending

end Order

inductive CompileError
  | foreignSortField (field : Field) (kind : Kind)
  | nonScalarSortField (field : Field)
  | foreignField (field : Field) (kind : Kind)

def CompileError.message : CompileError → String
  | foreignSortField f k => s!"cannot order {k.name} by {f.text}: field belongs to another kind"
  | nonScalarSortField f => s!"cannot order by relationship field {f.text}"
  | foreignField f k =>
    s!"field {f.text} does not belong to {k.name}; normalize the filter against {k.name} first"

def Order.validate (k : Kind) : Order → Except CompileError Unit
  | random => .ok ()
  | .by f _ =>
    if f.kind ≠ k then .error (.foreignSortField f k)
    else if f.isLink then .error (.nonScalarSortField f)
    else .ok ()

end Lexiquery
