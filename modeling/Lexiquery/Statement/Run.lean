import Lexiquery.Statement.Scope
import Lexiquery.Store.Like

/-! The rows that a statement selects from a store. -/

namespace Lexiquery

/-- What a statement reads: the tables of a store and the common table expressions so far. -/
structure Reading where
  store : Store
  ctes : List (CteName × Table)

def Reading.table? (d : Reading) : Source → Option Table
  | .table name => d.store.table? name
  | .cte name => d.ctes.lookup name

def Reading.rows (d : Reading) (s : Source) : List Row :=
  ((d.table? s).map (·.rows)).getD []

def Reading.affinity (d : Reading) (r : ColumnRef) : Affinity :=
  ((d.table? r.table.source).bind (·.affinity? r.column)).getD .integer

abbrev Env := List (Alias × Row)

def Env.get (e : Env) (r : ColumnRef) : Value :=
  ((e.lookup r.table).map (·.get r.column)).getD .null

def Operator.holds (op : Operator) (v w : Value) : Bool :=
  if v.isNull || w.isNull then false
  else
    let isLike := Like.holds (w.asText?.getD []) (v.asText?.getD [])
    match op with
    | equals => v.order w == .eq
    | differs => v.order w != .eq
    | atLeast => v.order w != .lt
    | greaterThan => v.order w == .gt
    | atMost => v.order w != .gt
    | lessThan => v.order w == .lt
    | like => isLike
    | notLike => !isLike

/-- The value an operator sees; only a comparison takes the affinity of the column. -/
def Operator.operand : Operator → Affinity → Value → Value
  | like, _, v | notLike, _, v => v
  | _, a, v => a.apply v

def Binding.value : Binding → Value
  | integer n => .integer n
  | string s => .text s

def NullTest.holds : NullTest → Value → Bool
  | isNull, v => v.isNull
  | isNotNull, v => !v.isNull

namespace Condition

mutual

/-- Whether a condition is true, the only thing a select asks. -/
def holds (d : Reading) (e : Env) : Condition → Bool
  | always => true
  | compare r op b => op.holds (e.get r) (op.operand (d.affinity r) b.value)
  | literal r n => Operator.equals.holds (e.get r) ((d.affinity r).apply (.integer n))
  | null r t => t.holds (e.get r)
  | group .and children => holdsAll d e children
  | group .or children => holdsAny d e children

def holdsAll (d : Reading) (e : Env) : List Condition → Bool
  | [] => true
  | c :: cs => c.holds d e && holdsAll d e cs

def holdsAny (d : Reading) (e : Env) : List Condition → Bool
  | [] => false
  | c :: cs => c.holds d e || holdsAny d e cs

end

end Condition

/-- Whether two columns are equal; of an integer and a text column the text counts as a number. -/
def Reading.equal (d : Reading) (e : Env) (l r : ColumnRef) : Bool :=
  let v := e.get l
  let w := e.get r
  if d.affinity l = d.affinity r then Operator.equals.holds v w
  else Operator.equals.holds (Affinity.integer.apply v) (Affinity.integer.apply w)

def JoinOn.holds (d : Reading) (e : Env) : JoinOn → Bool
  | columns l r => d.equal e l r
  | literal r n => (Condition.literal r n).holds d e

/-- The rows of a join that go with the rows so far; a left join keeps what has none. -/
def Join.extend (d : Reading) (j : Join) (e : Env) : List Env :=
  let partners := ((d.rows j.table.source).map fun row => (j.table, row) :: e).filter fun e' =>
    j.on.all (·.holds d e')
  match j.type with
  | .inner => partners
  | .left => if partners.isEmpty then [(j.table, []) :: e] else partners

def Reading.envs (d : Reading) (main : Alias) (joins : List Join) (c : Condition) : List Env :=
  let start := (d.rows main.source).map fun row => [(main, row)]
  (joins.foldl (fun es j => es.flatMap (j.extend d)) start).filter fun e => c.holds d e

def Select.values (d : Reading) (s : Select) : List Value :=
  (d.envs s.column.table s.joins s.condition).map (·.get s.column)

/-- Whether a value is among others; nulls count as the same here. -/
def Value.isAmong (v : Value) (vs : List Value) : Bool :=
  vs.any fun w => v.order w == .eq

def Value.union (known new : List Value) : List Value :=
  new.foldl (fun known v => if v.isAmong known then known else known ++ [v]) known

def ClosureStep.next (d : Reading) (step : ClosureStep) (known : List Value) : List Value :=
  let linked := (d.rows step.relation.source).filter fun row =>
    known.any (Operator.equals.holds (row.get step.foreignJoinColumn))
  linked.map (·.get step.joinColumn)

/-- Steps until nothing new comes up. Each round but the last adds a value of the join column, so
there are no more rounds than rows of the relation and one. -/
def ClosureStep.saturate (d : Reading) (step : ClosureStep) : Nat → List Value → List Value
  | 0, known => known
  | n + 1, known =>
    let wider := Value.union known (step.next d known)
    if wider.length = known.length then known else step.saturate d n wider

namespace CteBody

def values (d : Reading) : CteBody → List Value
  | select s => s.values d
  | closure base step =>
    step.saturate d ((d.rows step.relation.source).length + 1) (Value.union [] (base.values d))

def column : CteBody → ColumnRef
  | select s | closure s _ => s.column

end CteBody

def Cte.table (d : Reading) (c : Cte) : Table where
  columns := [⟨c.column, d.affinity c.body.column⟩]
  rows := (c.body.values d).map fun v => [(c.column, v)]

namespace Statement

/-- Of rows with the same value of the group column only the first. -/
def distinctBy (r : ColumnRef) (es : List Env) : List Env :=
  (es.foldl (fun kept e =>
    if (e.get r).isAmong (kept.map (·.get r)) then kept else e :: kept) []).reverse

def sortBy (r : ColumnRef) (es : List Env) : List Env :=
  es.mergeSort fun e e' => ((e.get r).order (e'.get r)).isLE

/-- Rows in the order of the statement. What it leaves open, ascending primary keys decide. -/
def arrange (s : Statement) (es : List Env) : List Env :=
  let byKey := sortBy ⟨s.main, s.kind.primaryKey⟩ es
  match s.order with
  | .random => byKey
  | .by f .ascending => sortBy ⟨s.main, f.column⟩ byKey
  | .by f .descending =>
    byKey.mergeSort fun e e' =>
      ((e'.get ⟨s.main, f.column⟩).order (e.get ⟨s.main, f.column⟩)).isLE

def reading (store : Store) (s : Statement) : Reading :=
  ⟨store, s.gather fun known c => c.table ⟨store, known⟩⟩

def selected (store : Store) (s : Statement) : List Env :=
  distinctBy ⟨s.main, s.groupColumn⟩ ((s.reading store).envs s.main s.joins s.condition)

def rows (store : Store) (s : Statement) : List Row :=
  let arranged := s.arrange (s.selected store)
  let limited := match s.limit with
    | some n => arranged.take n.toNat
    | none => arranged
  limited.map fun e => s.columns.map fun c => (c, e.get ⟨s.main, c⟩)

def run (store : Store) (s : Statement) : Except EngineError (List Row) := do
  s.check store
  return s.rows store

end Statement

end Lexiquery
