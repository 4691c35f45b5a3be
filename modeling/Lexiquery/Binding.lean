import Lexiquery.Filter.Basic

/-! Values that fill the placeholders of a statement. -/

namespace Lexiquery

inductive BindingKind
  | integer
  | string
  deriving DecidableEq

def BindingKind.name : BindingKind → String
  | integer => "integer"
  | string => "string"

inductive Binding
  | integer (value : Int64)
  | string (value : String)
  deriving DecidableEq

structure BindingError where
  expected : BindingKind
  found : BindingKind
  deriving DecidableEq

def BindingError.message (e : BindingError) : String :=
  s!"expected {e.expected.name} binding, found {e.found.name}"

namespace Binding

def kind : Binding → BindingKind
  | integer _ => .integer
  | string _ => .string

def asInteger : Binding → Except BindingError Int64
  | integer n => .ok n
  | string _ => .error ⟨.integer, .string⟩

def asString : Binding → Except BindingError String
  | string s => .ok s
  | integer _ => .error ⟨.string, .integer⟩

def quoted (s : String) : String :=
  let double (c : Char) := if c = '\'' then ['\'', '\''] else [c]
  String.ofList ('\'' :: s.toList.flatMap double ++ ['\''])

def display : Binding → String
  | integer n => toString n
  | string s => quoted s

def ofBool (b : Bool) : Binding := integer (if b then 1 else 0)

end Binding

def Test.binding? : Test → Option Binding
  | integer _ n => some (.integer n)
  | boolean b => some (.ofBool b)
  | string _ s => some (.string s)
  | null _ => none

end Lexiquery
