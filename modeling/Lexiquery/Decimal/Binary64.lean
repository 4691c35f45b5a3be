/-! Rounding of rationals to the nearest binary number with a significand of 53 bits. -/

namespace Lexiquery

def twoPow (e : Int) : Rat := (2 : Rat) ^ e

def roundHalfEven (q : Rat) : Nat :=
  let n := q.num.toNat
  let d := q.den
  let floor := n / d
  let twice := 2 * (n % d)
  if twice < d then floor
  else if d < twice then floor + 1
  else if floor % 2 = 0 then floor else floor + 1

/-- The number `significand * 2 ^ exponent`. -/
structure Binary64 where
  significand : Nat
  exponent : Int
  deriving DecidableEq

namespace Binary64

def bits : Nat := 53

def significandBound : Nat := Nat.pow 2 bits

def leastExponent : Int := -1074

def toRat (x : Binary64) : Rat :=
  (x.significand : Rat) * twoPow x.exponent

/-- The exponent at which a positive rational has a significand of 53 bits, or the least there is.
-/
def exponentOf (q : Rat) : Int :=
  let guess : Int := q.num.toNat.log2 - q.den.log2 - (bits - 1)
  let e := if q / twoPow guess < 2 ^ (bits - 1) then guess - 1 else guess
  max e leastExponent

def round (q : Rat) : Binary64 :=
  let e := exponentOf q
  let m := roundHalfEven (q / twoPow e)
  if m = significandBound then ⟨significandBound / 2, e + 1⟩ else ⟨m, e⟩

/-- Half the distances to the neighbours below and above. The distance below halves at a power of
two. -/
def halfGaps (x : Binary64) : Rat × Rat :=
  let half := twoPow (x.exponent - 1)
  if x.significand = significandBound / 2 && leastExponent < x.exponent then (half / 2, half)
  else (half, half)

def covers (x : Binary64) (q : Rat) : Bool :=
  let v := x.toRat
  let (below, above) := x.halfGaps
  if x.significand % 2 = 0 then v - below ≤ q && q ≤ v + above
  else v - below < q && q < v + above

end Binary64

def roundTo53Bits (q : Rat) : Rat :=
  if q < 0 then -(Binary64.round (-q)).toRat else (Binary64.round q).toRat

end Lexiquery
