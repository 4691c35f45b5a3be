import Lexiquery.Filter.Basic
import Lexiquery.Schema.Fields

/-! Checked construction: a comparison that does not fit its field never enters a filter. -/

namespace Lexiquery

inductive Operand
  | none
  | integer (value : Int64)
  | boolean (value : Bool)
  | string (value : String)
  | filter (condition : Filter)

def Operand.shape : Operand → OperandShape
  | none => .none
  | integer _ => .integer
  | boolean _ => .boolean
  | string _ => .string
  | filter _ => .filter

def Operand.ofCode {α : Type} [Enumeration α] (a : α) : Operand :=
  integer (Enumeration.code a)

inductive FilterError
  | incompatibleComparison (field : Field) (comparison : Comparison)
  | operandMismatch (field : Field) (comparison : Comparison) (found : OperandShape)
  | unsupportedOperation (field : Field) (operation : String)

def FilterError.message : FilterError → String
  | incompatibleComparison f c =>
    s!"comparison {c.name} is not valid for field {f.text} ({f.flavour.name})"
  | operandMismatch f c found =>
    s!"comparison {c.name} on field {f.text} expects a {c.operandShape.name} operand, " ++
      s!"found {found.name}"
  | unsupportedOperation f operation =>
    s!"field {f.text} ({f.flavour.name}) does not support {operation}"

namespace Filter

def ofOperand? (f : Field) : Comparison → Operand → Option Filter
  | .integer t, .integer n => some (test f (.integer t n))
  | .boolean, .boolean b => some (test f (.boolean b))
  | .string t, .string s => some (test f (.string t s))
  | .null t, .none => some (test f (.null t))
  | .link t, .filter condition => f.relationship?.map (link · t condition)
  | _, _ => none

def ofComparison (f : Field) (c : Comparison) (operand : Operand) : Except FilterError Filter :=
  if c.accepts f then
    match ofOperand? f c operand with
    | some filter => .ok filter
    | none => .error (.operandMismatch f c operand.shape)
  else .error (.incompatibleComparison f c)

inductive WellFormed : Filter → Prop
  | empty : WellFormed empty
  | test {f : Field} {t : Test} : t.comparison.accepts f → WellFormed (test f t)
  | link {r : Relationship} {t : LinkTest} {condition : Filter} :
    (Comparison.link t).accepts r → WellFormed condition → WellFormed (link r t condition)
  | group {c : Connective} {fs : List Filter} :
    (∀ f ∈ fs, WellFormed f) → WellFormed (group c fs)

end Filter

namespace Field

def equals (f : Field) (v : Operand) : Except FilterError Filter :=
  match f.flavour with
  | .scalar (.string _) => Filter.ofComparison f (.string .equals) v
  | .scalar (.integer _) => Filter.ofComparison f (.integer .equals) v
  | .scalar .boolean => Filter.ofComparison f .boolean v
  | .link _ => .error (.unsupportedOperation f "eq")

def differs (f : Field) (v : Operand) : Except FilterError Filter :=
  match f.flavour with
  | .scalar (.string _) => Filter.ofComparison f (.string .differs) v
  | .scalar (.integer _) => Filter.ofComparison f (.integer .differs) v
  | .scalar .boolean =>
    match v with
    | .boolean b => Filter.ofComparison f .boolean (.boolean !b)
    | v => Filter.ofComparison f .boolean v
  | .link _ => .error (.unsupportedOperation f "ne")

def ordered (f : Field) (operation : String) (t : IntegerTest) (v : Operand) :
    Except FilterError Filter :=
  if f.isInteger then Filter.ofComparison f (.integer t) v
  else .error (.unsupportedOperation f operation)

def lessThan (f : Field) : Operand → Except FilterError Filter := f.ordered "lt" .lessThan

def atMost (f : Field) : Operand → Except FilterError Filter := f.ordered "le" .atMost

def greaterThan (f : Field) : Operand → Except FilterError Filter := f.ordered "gt" .greaterThan

def atLeast (f : Field) : Operand → Except FilterError Filter := f.ordered "ge" .atLeast

def like (f : Field) (pattern : String) : Except FilterError Filter :=
  Filter.ofComparison f (.string .like) (.string pattern)

def notLike (f : Field) (pattern : String) : Except FilterError Filter :=
  Filter.ofComparison f (.string .notLike) (.string pattern)

def isNull (f : Field) : Except FilterError Filter :=
  Filter.ofComparison f (.null .isNull) .none

def isNotNull (f : Field) : Except FilterError Filter :=
  Filter.ofComparison f (.null .isNotNull) .none

def related (f : Field) (t : LinkTest) (condition : Filter) : Except FilterError Filter :=
  Filter.ofComparison f (.link t) (.filter condition)

end Field

namespace Filter

def formText (s : String) : Filter :=
  test Schema.Form.text (.string .equals s)

def framePart (index : Int64) (condition : Filter) : Filter :=
  link (Schema.Frame.partAt index) .hasSome condition

def idEquals (k : Kind) (id : Int64) : Filter :=
  test (Schema.idField k) (.integer .equals id)

end Filter

end Lexiquery
