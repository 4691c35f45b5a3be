import Lexiquery.Kind

/-! Fields: the columns of a kind that a filter may test and the relationships it may follow. -/

namespace Lexiquery

structure Fixed where
  column : String
  value : Int64
  deriving DecidableEq

inductive ScalarType
  | string (nullable : Bool)
  | integer (nullable : Bool)
  | boolean
  deriving DecidableEq

/-- How the rows of a kind reach their related rows, `c` being the column of the relationship.

- `key`: the rows of `far` with an equal `c`;
- `keyWhere`: those among them that carry the fixed value;
- `through`: the rows of `far` that an association row with an equal `c` names by
  `foreignColumn`, if `fixed` is given only by association rows that carry the fixed value;
- `self`: the rows of the same kind whose `c` stands in `foreignJoinColumn` of a row of `table`
  that has an equal `joinColumn`; a hierarchical one may be followed any number of times. -/
inductive Link
  | key (far : Kind) (nullable : Bool)
  | keyWhere (far : Kind) (fixed : Fixed)
  | through (far : Kind) (table foreignColumn : String) (fixed : Option Fixed)
  | self (table joinColumn foreignJoinColumn : String) (hierarchical : Bool)
  deriving DecidableEq

inductive Flavour
  | scalar (type : ScalarType)
  | link (link : Link)
  deriving DecidableEq

structure Field where
  kind : Kind
  column : String
  flavour : Flavour
  deriving DecidableEq

structure Relationship where
  kind : Kind
  column : String
  link : Link
  deriving DecidableEq

def Flavour.name : Flavour → String
  | scalar (.string _) => "string"
  | scalar (.integer _) => "integer"
  | scalar .boolean => "boolean"
  | link (.key ..) => "join"
  | link (.keyWhere ..) => "join_where"
  | link (.through _ _ _ none) => "join_through"
  | link (.through _ _ _ (some _)) => "join_through_where"
  | link (.self _ _ _ false) => "self_join"
  | link (.self _ _ _ true) => "hierarchical_self_join"

def Flavour.tag : Flavour → UInt8
  | scalar (.string _) => 1
  | scalar (.integer _) => 2
  | scalar .boolean => 3
  | link (.key ..) => 4
  | link (.keyWhere ..) => 5
  | link (.through _ _ _ none) => 6
  | link (.through _ _ _ (some _)) => 7
  | link (.self _ _ _ false) => 8
  | link (.self _ _ _ true) => 9

namespace Relationship

def field (r : Relationship) : Field :=
  ⟨r.kind, r.column, .link r.link⟩

instance : Coe Relationship Field := ⟨field⟩

def far (r : Relationship) : Kind :=
  match r.link with
  | .key far _ | .keyWhere far _ | .through far .. => far
  | .self .. => r.kind

def fixed? (r : Relationship) : Option Fixed :=
  match r.link with
  | .keyWhere _ fixed => some fixed
  | .through _ _ _ fixed => fixed
  | .key .. | .self .. => none

def isHierarchical (r : Relationship) : Bool :=
  match r.link with
  | .self _ _ _ hierarchical => hierarchical
  | _ => false

end Relationship

structure FieldError where
  field : Field
  accessor : String

namespace Field

def string (kind : Kind) (column : String) : Field :=
  ⟨kind, column, .scalar (.string false)⟩

def nullableString (kind : Kind) (column : String) : Field :=
  ⟨kind, column, .scalar (.string true)⟩

def integer (kind : Kind) (column : String) : Field :=
  ⟨kind, column, .scalar (.integer false)⟩

def nullableInteger (kind : Kind) (column : String) : Field :=
  ⟨kind, column, .scalar (.integer true)⟩

def boolean (kind : Kind) (column : String) : Field :=
  ⟨kind, column, .scalar .boolean⟩

def text (f : Field) : String :=
  s!"{f.kind.name}.{f.column}"

def relationship? (f : Field) : Option Relationship :=
  match f.flavour with
  | .link link => some ⟨f.kind, f.column, link⟩
  | .scalar _ => none

def isInteger (f : Field) : Bool :=
  match f.flavour with
  | .scalar (.integer _) => true
  | _ => false

def isString (f : Field) : Bool :=
  match f.flavour with
  | .scalar (.string _) => true
  | _ => false

def isBoolean (f : Field) : Bool :=
  match f.flavour with
  | .scalar .boolean => true
  | _ => false

def isLink (f : Field) : Bool :=
  f.relationship?.isSome

def isHierarchical (f : Field) : Bool :=
  f.relationship?.any (·.isHierarchical)

def isNullable (f : Field) : Bool :=
  match f.flavour with
  | .scalar (.string nullable) | .scalar (.integer nullable) => nullable
  | .link (.key _ nullable) => nullable
  | _ => false

def table? (f : Field) : Option String :=
  match f.flavour with
  | .link (.through _ table _ _) | .link (.self table _ _ _) => some table
  | _ => none

def foreignColumn? (f : Field) : Option String :=
  match f.flavour with
  | .link (.through _ _ column _) => some column
  | _ => none

def joinColumn? (f : Field) : Option String :=
  match f.flavour with
  | .link (.self _ column _ _) => some column
  | _ => none

def foreignJoinColumn? (f : Field) : Option String :=
  match f.flavour with
  | .link (.self _ _ column _) => some column
  | _ => none

def far? (f : Field) : Option Kind :=
  f.relationship?.map (·.far)

def fixed? (f : Field) : Option Fixed :=
  f.relationship?.bind (·.fixed?)

def require (f : Field) (accessor : String) : Option α → Except FieldError α
  | some a => .ok a
  | none => .error ⟨f, accessor⟩

def far (f : Field) : Except FieldError Kind := f.require "join object" f.far?

def table (f : Field) : Except FieldError String := f.require "table" f.table?

def foreignColumn (f : Field) : Except FieldError String :=
  f.require "foreign column" f.foreignColumn?

def joinColumn (f : Field) : Except FieldError String := f.require "join column" f.joinColumn?

def foreignJoinColumn (f : Field) : Except FieldError String :=
  f.require "foreign join column" f.foreignJoinColumn?

def fixed (f : Field) : Except FieldError Fixed := f.require "join condition" f.fixed?

/-- What tells two fields apart. Nullability and the far column of a self-relation are no part
of it. -/
structure Identity where
  flavour : UInt8
  kind : Kind
  column : String
  far : Option Kind
  table : Option String
  joinColumn : Option String
  fixedColumn : Option String
  fixedValue : Option Int64
  deriving DecidableEq, Ord

def identity (f : Field) : Identity where
  flavour := f.flavour.tag
  kind := f.kind
  column := f.column
  far := f.far?
  table := f.table?
  joinColumn := f.foreignColumn?.or f.joinColumn?
  fixedColumn := f.fixed?.map (·.column)
  fixedValue := f.fixed?.map (·.value)

instance : BEq Field := ⟨fun f g => f.identity == g.identity⟩

instance : Ord Field := ⟨fun f g => compare f.identity g.identity⟩

theorem beq_iff {f g : Field} : f == g ↔ f.identity = g.identity :=
  beq_iff_eq (a := f.identity)

def sortDistinct (fs : List Field) : List Field :=
  let sorted := fs.mergeSort (fun f g => (compare f g).isLE)
  (sorted.foldl (fun kept f => if kept.head?.any (· == f) then kept else f :: kept) []).reverse

@[simp] theorem relationship?_field (r : Relationship) : r.field.relationship? = some r := rfl

end Field

instance : BEq Relationship := ⟨fun r s => r.field == s.field⟩

def FieldError.message (e : FieldError) : String :=
  s!"field {e.field.text} ({e.field.flavour.name}) has no {e.accessor}"

end Lexiquery
