import Lexiquery.Metrics.Event

/-! Counters of events, in total and for each kind. They stay at the greatest count once there. -/

namespace Lexiquery

abbrev Count := UInt64

def Count.max : Count := 0xffffffffffffffff

def Count.add (n : Count) (m : Nat) : Count :=
  if n.toNat + m < UInt64.size then n + .ofNat m else Count.max

structure Totals where
  statementsCompiled : Count := 0
  ctesEmitted : Count := 0
  joinsEmitted : Count := 0
  queriesExecuted : Count := 0
  rowsLoaded : Count := 0
  emptyFirst : Count := 0
  databaseErrors : Count := 0
  hydrations : Count := 0
  deriving DecidableEq

structure KindCounters where
  statementsCompiled : Count := 0
  queriesExecuted : Count := 0
  rowsLoaded : Count := 0
  emptyFirst : Count := 0
  hydrations : Count := 0
  deriving DecidableEq

namespace Totals

def record (t : Totals) : Event → Totals
  | .statementCompiled _ joins ctes =>
    { t with
      statementsCompiled := Count.add t.statementsCompiled 1
      joinsEmitted := Count.add t.joinsEmitted joins
      ctesEmitted := Count.add t.ctesEmitted ctes }
  | .queryStart _ => { t with queriesExecuted := Count.add t.queriesExecuted 1 }
  | .queryFinish _ rows => { t with rowsLoaded := Count.add t.rowsLoaded rows }
  | .emptyFirst _ => { t with emptyFirst := Count.add t.emptyFirst 1 }
  | .hydration _ => { t with hydrations := Count.add t.hydrations 1 }
  | .databaseError _ => { t with databaseErrors := Count.add t.databaseErrors 1 }

end Totals

namespace KindCounters

def record (c : KindCounters) : Event → KindCounters
  | .statementCompiled .. => { c with statementsCompiled := Count.add c.statementsCompiled 1 }
  | .queryStart _ => { c with queriesExecuted := Count.add c.queriesExecuted 1 }
  | .queryFinish _ rows => { c with rowsLoaded := Count.add c.rowsLoaded rows }
  | .emptyFirst _ => { c with emptyFirst := Count.add c.emptyFirst 1 }
  | .hydration _ => { c with hydrations := Count.add c.hydrations 1 }
  | .databaseError _ => c

end KindCounters

/-- A kind has counters of its own from its first event on, errors of the database aside. -/
structure Counters where
  totals : Totals := {}
  kinds : List (Kind × KindCounters) := []
  deriving DecidableEq

namespace Counters

instance : Inhabited Counters := ⟨{}⟩

def isPerKind : Event → Bool
  | .databaseError _ => false
  | _ => true

def ofKind? (c : Counters) (k : Kind) : Option KindCounters :=
  c.kinds.lookup k

def setKind (kinds : List (Kind × KindCounters)) (k : Kind) (c : KindCounters) :
    List (Kind × KindCounters) :=
  match kinds with
  | [] => [(k, c)]
  | (l, d) :: rest => if l = k then (k, c) :: rest else (l, d) :: setKind rest k c

def record (c : Counters) (e : Event) : Counters where
  totals := c.totals.record e
  kinds :=
    if isPerKind e then setKind c.kinds e.kind (((c.ofKind? e.kind).getD {}).record e) else c.kinds

def recordAll (c : Counters) (es : List Event) : Counters :=
  es.foldl record c

def entries (c : Counters) : List (Kind × KindCounters) :=
  Kind.all.filterMap fun k => (c.ofKind? k).map (k, ·)

end Counters

end Lexiquery
