import Lexiquery.Json
import Lexiquery.Metrics.Counters

/-! The counters as a report, with the average number of rows of a query for each kind. -/

namespace Lexiquery

structure KindSummary where
  kind : Kind
  counters : KindCounters

def KindCounters.averageRows (c : KindCounters) : Rat :=
  if c.queriesExecuted = 0 then 0 else (c.rowsLoaded.toNat : Rat) / c.queriesExecuted.toNat

def Counters.summaries (c : Counters) : List KindSummary :=
  c.entries.map fun (k, d) => ⟨k, d⟩

def Count.json (n : Count) : Json := .integer n.toNat

def Totals.json (t : Totals) : Json :=
  .object [("statements_compiled", t.statementsCompiled.json),
    ("ctes_emitted", t.ctesEmitted.json),
    ("joins_emitted", t.joinsEmitted.json),
    ("queries_executed", t.queriesExecuted.json),
    ("rows_loaded", t.rowsLoaded.json),
    ("empty_first", t.emptyFirst.json),
    ("database_errors", t.databaseErrors.json),
    ("hydrations", t.hydrations.json)]

def KindCounters.json (c : KindCounters) : Json :=
  .object [("statements_compiled", c.statementsCompiled.json),
    ("queries_executed", c.queriesExecuted.json),
    ("rows_loaded", c.rowsLoaded.json),
    ("empty_first", c.emptyFirst.json),
    ("hydrations", c.hydrations.json)]

def KindSummary.json (s : KindSummary) : Json :=
  .object [("kind", .string s.kind.name),
    ("queries_executed", s.counters.queriesExecuted.json),
    ("rows_loaded", s.counters.rowsLoaded.json),
    ("avg_rows_per_query", .fraction s.counters.averageRows),
    ("empty_first", s.counters.emptyFirst.json),
    ("hydrations", s.counters.hydrations.json)]

def Counters.report (c : Counters) : Json :=
  .object [
    ("counters", .object [("ops", c.totals.json),
      ("kinds", .object (c.entries.map fun (k, d) => (k.name, d.json)))]),
    ("kind_summaries", .array (c.summaries.map (·.json)))]

end Lexiquery
