import Lexiquery.Decimal.Binary64

/-! The fewest decimal digits that read back as the same number of 53 bits, and their text. -/

namespace Lexiquery

/-- The number `digits * 10 ^ exponent`. -/
structure Decimal where
  digits : Nat
  exponent : Int
  deriving DecidableEq

namespace Decimal

def tenPow (e : Int) : Rat := (10 : Rat) ^ e

def toRat (x : Decimal) : Rat :=
  (x.digits : Rat) * tenPow x.exponent

def trim : Nat → Decimal → Decimal
  | 0, x => x
  | n + 1, x =>
    if x.digits ≠ 0 ∧ x.digits % 10 = 0 then trim n ⟨x.digits / 10, x.exponent + 1⟩ else x

/-- The number of digits before the point of a positive rational, zero or negative below 1/10. -/
def magnitude (q : Rat) : Int :=
  let guess : Int := (toString q.num.toNat).length - (toString q.den).length
  if q < tenPow guess then guess else guess + 1

def neighbours (q : Rat) (exponent : Int) : Decimal × Decimal :=
  let scaled := q / tenPow exponent
  let below := scaled.num.toNat / scaled.den
  (⟨below, exponent⟩, ⟨below + 1, exponent⟩)

/-- Which of two neighbours that are as near to a number stands for it. -/
inductive Tie
  | up
  | even

def Tie.isUp : Tie → Decimal → Bool
  | up, _ => true
  | even, low => low.digits % 2 = 1

/-- Of the two neighbours of `x` with `n` digits the one that reads back, the nearer if both do. -/
def withDigits? (tie : Tie) (x : Binary64) (n : Nat) : Option Decimal :=
  let v := x.toRat
  let (low, high) := neighbours v (magnitude v - n)
  match x.covers low.toRat, x.covers high.toRat with
  | true, true =>
    let below := v - low.toRat
    let above := high.toRat - v
    some (if above < below || (above = below && tie.isUp low) then high else low)
  | true, false => some low
  | false, true => some high
  | false, false => none

def mostDigits : Nat := 17

def shortest (tie : Tie) (x : Binary64) : Decimal :=
  let found := (List.range mostDigits).findSome? fun n => withDigits? tie x (n + 1)
  (found.getD (neighbours x.toRat x.exponent).1).trim mostDigits

def toSignificant (n : Nat) (q : Rat) : Decimal :=
  let e := magnitude q - n
  let scaled := q / tenPow e
  trim (n + 1) ⟨(2 * scaled.num.toNat + scaled.den) / (2 * scaled.den), e⟩

/-- How a number is written: positionally if its point falls within these places, otherwise with an
exponent. -/
structure Format where
  leastPoint : Int
  greatestPoint : Int
  exponentText : Int → String
  pointBeforeExponent : Bool

def zeros (n : Int) : String := String.ofList (List.replicate n.toNat '0')

def text (format : Format) (x : Decimal) : String :=
  let digits := toString x.digits
  let count : Int := digits.length
  let point := count + x.exponent
  let take (n : Int) := String.ofList (digits.toList.take n.toNat)
  let drop (n : Int) := String.ofList (digits.toList.drop n.toNat)
  if format.leastPoint ≤ point ∧ point ≤ format.greatestPoint then
    if point ≤ 0 then s!"0.{zeros (-point)}{digits}"
    else if count ≤ point then s!"{digits}{zeros (point - count)}.0"
    else s!"{take point}.{drop point}"
  else
    let fraction :=
      if count = 1 then if format.pointBeforeExponent then ".0" else "" else s!".{drop 1}"
    s!"{take 1}{fraction}{format.exponentText (point - 1)}"

end Decimal

end Lexiquery
