/-! Sets of characters, given by ranges of their numbers. -/

namespace Lexiquery

def CharSet.areApart : List (Nat × Nat) → Bool
  | [] => true
  | [(low, high)] => low ≤ high
  | (low, high) :: (low', high') :: rest =>
    low ≤ high && high + 1 < low' && areApart ((low', high') :: rest)

structure CharSet where
  ranges : List (Nat × Nat)
  apart : CharSet.areApart ranges = true

def CharSet.contains (s : CharSet) (c : Char) : Bool :=
  s.ranges.any fun (low, high) => low ≤ c.toNat && c.toNat ≤ high

end Lexiquery
