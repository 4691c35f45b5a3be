import Lexiquery.Statement.Basic

/-! How large a statement may be. Its conditions are trees of binary operators, a row of conditions
leaning to the left, and no tree may be too high. -/

namespace Lexiquery

def maxSources : Nat := 200

def maxJoined : Nat := 64

def maxHeight : Nat := 1000

def forkHeight (n m : Nat) : Nat :=
  if n = 0 then m else if m = 0 then n else max n m + 1

namespace Condition

mutual

/-- A column has a height of two, for it is a name in a source, and a test stands over it. -/
def height : Condition → Nat
  | always => 1
  | compare _ .notLike _ => 4
  | compare .. | literal .. | null .. => 3
  | group _ children => rowHeight 0 children

def rowHeight (sofar : Nat) : List Condition → Nat
  | [] => sofar
  | c :: cs => rowHeight (forkHeight sofar c.height) cs

end

def whereHeight (c : Condition) : Nat := if c.isAlways then 0 else c.height

end Condition

def Join.height (j : Join) : Nat := j.on.foldl (fun n _ => forkHeight n 3) 0

structure Extent where
  sources : Nat
  whereHeight : Nat
  /-- The height of the condition once what the joins equate is part of it. -/
  fullHeight : Nat

namespace Extent

def of (joins : List Join) (c : Condition) : Extent where
  sources := joins.length + 1
  whereHeight := c.whereHeight
  fullHeight := joins.foldl (fun n j => forkHeight n j.height) c.whereHeight

end Extent

def Select.extent (s : Select) : Extent := .of s.joins s.condition

/-- The first select of a body; the second one of a closure is small. -/
def CteBody.extent : CteBody → Extent
  | select s | closure s _ => s.extent

namespace Statement

def extent (s : Statement) : Extent := .of s.joins s.condition

def extents (s : Statement) : List Extent :=
  s.ctes.map (·.body.extent) ++ [s.extent]

end Statement

end Lexiquery
