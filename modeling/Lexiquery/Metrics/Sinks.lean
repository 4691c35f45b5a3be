import Lexiquery.Metrics.Counters

/-! Where events go: to the innermost open capture, or to the counters if none is open. -/

namespace Lexiquery

structure Sinks where
  counters : Counters := {}
  /-- The events of each open capture, the innermost first. -/
  captures : List (List Event) := []
  deriving DecidableEq

namespace Sinks

def record (s : Sinks) (e : Event) : Sinks :=
  match s.captures with
  | [] => { s with counters := s.counters.record e }
  | inner :: outer => { s with captures := (inner ++ [e]) :: outer }

def recordAll (s : Sinks) (es : List Event) : Sinks :=
  es.foldl record s

def openCapture (s : Sinks) : Sinks :=
  { s with captures := [] :: s.captures }

def closeCapture (s : Sinks) : List Event × Sinks :=
  (s.captures.headD [], { s with captures := s.captures.tail })

def reset (s : Sinks) : Sinks :=
  { s with counters := {} }

end Sinks

end Lexiquery
