import Lexiquery.Statement.Limits
import Lexiquery.Statement.Text
import Lexiquery.Store.Basic

/-! What a statement asks of a store: that it is not too large and that each table and column it
names is there. Tables are looked for throughout the statement before any column is. -/

namespace Lexiquery

/-- Why a store does not run a statement. A column that is not there may have a place in the text of
the statement. -/
inductive EngineError
  | tooManySources
  | tooHigh
  | notStore
  | noSuchTable (name : String)
  | noSuchColumn (column : ColumnRef) (place : Option Nat)
  | tooManyJoined
  deriving DecidableEq

def EngineError.message (sql : String) : EngineError → String
  | tooManySources => s!"too many FROM clause terms, max: {maxSources}"
  | tooHigh => s!"Expression tree is too large (maximum depth {maxHeight})"
  | notStore => "file is not a database"
  | noSuchTable name => s!"no such table: {name}"
  | noSuchColumn r none => s!"no such column: {r.text}"
  | noSuchColumn r (some place) => s!"no such column: {r.text} in {sql} at offset {place}"
  | tooManyJoined => s!"at most {maxJoined} tables in a join"

inductive Demand
  | table (name : String)
  | height (n : Nat)

/-- A column and the place in a text where it is named. What joins equate has no place. -/
structure Mention where
  column : ColumnRef
  place : Option Nat

namespace Condition

mutual

def mentions (start : Nat) : Condition → List Mention
  | always => []
  | compare r _ _ | literal r _ | null r _ => [⟨r, some start⟩]
  | group c children => mentionsAll s!" {c.keyword} " start children

def mentionsAll (separator : String) (start : Nat) : List Condition → List Mention
  | [] => []
  | group c children :: rest =>
    let size := (group c children).text.utf8ByteSize + 2
    (group c children).mentions (start + 1) ++
      mentionsAll separator (start + size + separator.utf8ByteSize) rest
  | child :: rest =>
    let size := child.text.utf8ByteSize
    child.mentions start ++ mentionsAll separator (start + size + separator.utf8ByteSize) rest

end

def whereMentions (start : Nat) (c : Condition) : List Mention :=
  c.mentions (start + " WHERE ".utf8ByteSize)

end Condition

def JoinOn.refs : JoinOn → List ColumnRef
  | .columns l r => [l, r]
  | literal r _ => [r]

def Join.mentions (j : Join) : List Mention :=
  j.on.flatMap fun o => o.refs.map (⟨·, none⟩)

namespace Select

def sources (s : Select) : List Source :=
  s.column.table.source :: s.joins.map (·.table.source)

/-- The columns of a select that starts at a place: what it selects, its condition, then what its
joins equate. -/
def mentions (start : Nat) (s : Select) : List Mention :=
  ⟨s.column, some (start + "SELECT ".utf8ByteSize)⟩ ::
    s.condition.whereMentions (start + s.head.utf8ByteSize) ++ s.joins.flatMap (·.mentions)

end Select

/-- The columns of an expression whose body starts at a place; those of the second select of a
closure come first. -/
def CteBody.mentions (start : Nat) : CteBody → List Mention
  | select s => s.mentions start
  | closure base step =>
    let second := start + (base.text ++ Cte.unionText ++ "SELECT ").utf8ByteSize
    [⟨⟨step.relation, step.joinColumn⟩, some second⟩,
      ⟨⟨step.relation, step.foreignJoinColumn⟩, none⟩] ++ base.mentions start

namespace Statement

def sources (s : Statement) : List Source :=
  s.main.source :: s.joins.map (·.table.source)

def rowMentions (start : Nat) : List ColumnRef → List Mention
  | [] => []
  | r :: rs => ⟨r, some start⟩ :: rowMentions (start + (r.text ++ ", ").utf8ByteSize) rs

def mentions (s : Statement) : List Mention :=
  let start := s.withText.utf8ByteSize
  let beforeWhere := start + s.head.utf8ByteSize
  let beforeGroup := beforeWhere + s.condition.whereText.utf8ByteSize
  let beforeOrder := beforeGroup + s.groupText.utf8ByteSize
  rowMentions (start + "SELECT ".utf8ByteSize) s.columnRefs ++
    s.condition.whereMentions beforeWhere ++ s.joins.flatMap (·.mentions) ++
    (match s.order with
      | .random => []
      | .by f _ => [⟨⟨s.main, f.column⟩, some (beforeOrder + " ORDER BY ".utf8ByteSize)⟩]) ++
    [⟨⟨s.main, s.groupColumn⟩, some (beforeGroup + " GROUP BY ".utf8ByteSize)⟩]

/-- For each name of a common table expression something about it, from what is known about those
before it. -/
def gather (s : Statement) (f : List (CteName × α) → Cte → α) : List (CteName × α) :=
  s.ctes.foldl (fun known c => known ++ [(c.name, f known c)]) []

def reach (known : List (CteName × List α)) (table : String → List α) : Source → List α
  | .table name => table name
  | .cte name => (known.lookup name).getD []

def bodyPlaces (start : Nat) : List Cte → List (CteName × Nat)
  | [] => []
  | c :: cs =>
    (c.name, start + c.head.utf8ByteSize) :: bodyPlaces (start + (c.text ++ ", ").utf8ByteSize) cs

/-- What is demanded for all tables, in the order they are looked for. When the tables of a select
are found, what it joins becomes part of its condition. -/
def demands (s : Statement) : List Demand :=
  let within := s.gather fun known c =>
    let found := (·.flatMap (reach known fun t => [.table t]))
    let full := .height c.body.extent.fullHeight
    match c.body with
    | .select s => found s.sources ++ [full]
    | .closure base step => found base.sources ++ full :: found [step.relation.source]
  s.sources.flatMap (reach within fun t => [.table t]) ++ [.height s.extent.fullHeight]

/-- All columns, in the order they are looked for; those of a common table expression come before
those of the select that joins it. -/
def allMentions (s : Statement) : List Mention :=
  let places := bodyPlaces withKeyword.utf8ByteSize s.ctes
  let within := s.gather fun known c =>
    let sources := match c.body with
      | .select s => s.sources
      | .closure base step => base.sources ++ [step.relation.source]
    sources.flatMap (reach known fun _ => []) ++ c.body.mentions ((places.lookup c.name).getD 0)
  s.sources.flatMap (reach within fun _ => []) ++ s.mentions

def hasColumn (store : Store) (s : Statement) (r : ColumnRef) : Bool :=
  match r.table.source with
  | .table name => (store.table? name).any fun t => (t.column? r.column).isSome
  | .cte name => s.ctes.any fun c => c.name == name && sameName c.column r.column

def read (s : Statement) : Except EngineError Unit :=
  s.extents.forM fun e =>
    if maxSources < e.sources then .error .tooManySources
    else if maxHeight < e.whereHeight then .error .tooHigh
    else .ok ()

def Demand.check (store : Store) : Demand → Except EngineError Unit
  | .table name => if (store.table? name).isNone then .error (.noSuchTable name) else .ok ()
  | .height n => if maxHeight < n then .error .tooHigh else .ok ()

def check (store : Store) (s : Statement) : Except EngineError Unit := do
  s.read
  if !store.isValid then throw .notStore
  s.demands.forM (Demand.check store)
  match s.allMentions.find? (!s.hasColumn store ·.column) with
  | some m => throw (.noSuchColumn m.column m.place)
  | none => pure ()
  if s.extents.any (maxJoined < ·.sources) then throw .tooManyJoined

end Statement

end Lexiquery
