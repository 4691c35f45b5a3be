import Lexiquery.Field

/-! The comparisons a filter may apply to a field, each with its logical opposite. -/

namespace Lexiquery

inductive IntegerTest
  | equals
  | differs
  | atLeast
  | greaterThan
  | atMost
  | lessThan
  deriving DecidableEq

inductive StringTest
  | equals
  | differs
  | like
  | notLike
  deriving DecidableEq

inductive NullTest
  | isNull
  | isNotNull
  deriving DecidableEq

/-- What is asked of the related rows: that some or none of them satisfies a condition, in one hop
or, along a hierarchical relationship, in any number of hops. -/
inductive LinkTest
  | hasSome
  | hasNone
  | reachesSome
  | reachesNone
  deriving DecidableEq

inductive Comparison
  | integer (test : IntegerTest)
  | boolean
  | string (test : StringTest)
  | null (test : NullTest)
  | link (test : LinkTest)
  deriving DecidableEq

def IntegerTest.negate : IntegerTest → IntegerTest
  | equals => differs
  | differs => equals
  | atLeast => lessThan
  | lessThan => atLeast
  | greaterThan => atMost
  | atMost => greaterThan

def StringTest.negate : StringTest → StringTest
  | equals => differs
  | differs => equals
  | like => notLike
  | notLike => like

def NullTest.negate : NullTest → NullTest
  | isNull => isNotNull
  | isNotNull => isNull

def LinkTest.negate : LinkTest → LinkTest
  | hasSome => hasNone
  | hasNone => hasSome
  | reachesSome => reachesNone
  | reachesNone => reachesSome

@[simp] theorem IntegerTest.negate_negate (t : IntegerTest) : t.negate.negate = t := by
  cases t <;> rfl

@[simp] theorem StringTest.negate_negate (t : StringTest) : t.negate.negate = t := by
  cases t <;> rfl

@[simp] theorem NullTest.negate_negate (t : NullTest) : t.negate.negate = t := by
  cases t <;> rfl

@[simp] theorem LinkTest.negate_negate (t : LinkTest) : t.negate.negate = t := by
  cases t <;> rfl

def LinkTest.isPositive : LinkTest → Bool
  | hasSome | reachesSome => true
  | hasNone | reachesNone => false

def LinkTest.isTransitive : LinkTest → Bool
  | reachesSome | reachesNone => true
  | hasSome | hasNone => false

@[simp] theorem LinkTest.isPositive_negate (t : LinkTest) :
    t.negate.isPositive = !t.isPositive := by
  cases t <;> rfl

@[simp] theorem LinkTest.isTransitive_negate (t : LinkTest) :
    t.negate.isTransitive = t.isTransitive := by
  cases t <;> rfl

namespace Comparison

def all : List Comparison :=
  [.integer .equals, .integer .differs, .integer .atLeast, .integer .greaterThan, .integer .atMost,
    .integer .lessThan, .boolean, .string .equals, .string .differs, .string .like,
    .string .notLike, .null .isNull, .null .isNotNull, .link .hasSome, .link .hasNone,
    .link .reachesSome, .link .reachesNone]

def name : Comparison → String
  | integer .equals => "int_equals"
  | integer .differs => "int_does_not_equal"
  | integer .atLeast => "int_is_at_least"
  | integer .greaterThan => "int_is_greater_than"
  | integer .atMost => "int_is_at_most"
  | integer .lessThan => "int_is_less_than"
  | boolean => "boolean_equals"
  | string .equals => "string_equals"
  | string .differs => "string_does_not_equal"
  | string .like => "string_is_like"
  | string .notLike => "string_is_not_like"
  | null .isNull => "is_null"
  | null .isNotNull => "is_not_null"
  | link .hasSome => "matches"
  | link .hasNone => "does_not_match"
  | link .reachesSome => "hierarchically_matches"
  | link .reachesNone => "does_not_hierarchically_match"

def ofName? (s : String) : Option Comparison :=
  all.find? (·.name == s)

def tag : Comparison → UInt8
  | integer .equals => 0x01
  | integer .differs => 0x02
  | integer .atLeast => 0x03
  | integer .greaterThan => 0x04
  | integer .atMost => 0x05
  | integer .lessThan => 0x06
  | boolean => 0x07
  | string .equals => 0x08
  | string .differs => 0x09
  | string .like => 0x0a
  | string .notLike => 0x0b
  | null .isNull => 0x0c
  | null .isNotNull => 0x0d
  | link .hasSome => 0x0e
  | link .hasNone => 0x0f
  | link .reachesSome => 0x10
  | link .reachesNone => 0x11

theorem mem_all (c : Comparison) : c ∈ all := by
  rcases c with t | _ | t | t | t <;> first | decide | (cases t <;> decide)

theorem tag_injective {c d : Comparison} (h : c.tag = d.tag) : c = d :=
  (by decide : ∀ c ∈ all, ∀ d ∈ all, c.tag = d.tag → c = d) c (mem_all c) d (mem_all d) h

/-- The logical opposite. A boolean test is its own opposite: its operand flips instead. -/
def negate : Comparison → Comparison
  | integer t => integer t.negate
  | boolean => boolean
  | string t => string t.negate
  | null t => null t.negate
  | link t => link t.negate

@[simp] theorem negate_negate (c : Comparison) : c.negate.negate = c := by
  cases c <;> simp [negate]

def isLink : Comparison → Bool
  | link _ => true
  | _ => false

def isPositiveLink : Comparison → Bool
  | link t => t.isPositive
  | _ => false

def accepts : Comparison → Field → Bool
  | integer _, f => f.isInteger
  | boolean, f => f.isBoolean
  | string _, f => f.isString
  | null _, f => f.isNullable
  | link t, f => if t.isTransitive then f.isHierarchical else f.isLink

@[simp] theorem accepts_negate (c : Comparison) (f : Field) : c.negate.accepts f = c.accepts f := by
  cases c <;> simp [negate, accepts]

end Comparison

inductive OperandShape
  | none
  | integer
  | boolean
  | string
  | filter
  deriving DecidableEq

def OperandShape.name : OperandShape → String
  | none => "none"
  | integer => "integer"
  | boolean => "boolean"
  | string => "string"
  | filter => "filter"

def Comparison.operandShape : Comparison → OperandShape
  | integer _ => .integer
  | boolean => .boolean
  | string _ => .string
  | null _ => .none
  | link _ => .filter

@[simp] theorem Comparison.operandShape_negate (c : Comparison) :
    c.negate.operandShape = c.operandShape := by
  cases c <;> rfl

end Lexiquery
