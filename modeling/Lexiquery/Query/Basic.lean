import Lexiquery.Filter.Encoding
import Lexiquery.Query.Logged
import Lexiquery.Statement.Compile
import Lexiquery.Statement.Run

/-! Queries: a filter is resolved for a kind, compiled, checked against the store, and then run any
number of times, each time on the rows of that moment. -/

namespace Lexiquery

structure Query where
  kind : Kind
  filter : Filter
  statement : Statement

namespace Query

def fingerprint (q : Query) : Fingerprint := q.filter.fingerprint

def databaseError (q : Query) (e : EngineError) : Error :=
  .engine e q.statement.sql

def prepare (store : Store) (k : Kind) (f : Filter) (order : Order) (limit : Option UInt32) :
    Logged Query :=
  let filter := f.resolve k
  match Statement.compile k k.columns filter order limit with
  | .error e => .fail (.compile e)
  | .ok statement =>
    let q : Query := ⟨k, filter, statement⟩
    let compiled := Event.statementCompiled k statement.joinCount statement.cteCount
    match statement.check store with
    | .ok () => ⟨.ok q, [compiled]⟩
    | .error e => ⟨.error (q.databaseError e), [compiled, .databaseError k]⟩

/-- The records in the rows that `take` leaves, all of them or none. -/
def execute (q : Query) (store : Store) (take : List Row → List Row) : Logged (List Entity) :=
  match q.statement.run store with
  | .error e =>
    ⟨.error (q.databaseError e), [.queryStart q.kind, .databaseError q.kind, .queryFinish q.kind 0]⟩
  | .ok rows =>
    match (take rows).mapM (Entity.decode q.kind) with
    | .ok es => ⟨.ok es, [.queryStart q.kind, .queryFinish q.kind es.length]⟩
    | .error e => ⟨.error (.decode e), [.queryStart q.kind, .queryFinish q.kind 0]⟩

def all (q : Query) (store : Store) : Logged (List Entity) :=
  q.execute store id

def first (q : Query) (store : Store) : Logged Entity := do
  match ← q.execute store (·.take 1) with
  | e :: _ => return e
  | [] =>
    .report [.emptyFirst q.kind]
    .fail (.response (.notFound q.kind))

end Query

def Store.all (store : Store) (k : Kind) : Logged (List Entity) := do
  (← Query.prepare store k .empty (.ascending (Schema.idField k)) none).all store

end Lexiquery
