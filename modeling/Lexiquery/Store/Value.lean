import Lexiquery.Decimal.Shortest
import Lexiquery.Text.Utf8

/-! Stored values, the affinity of columns, and how values compare. -/

namespace Lexiquery

/-- Bytes that are stored as a text and are none. -/
structure Garbled where
  bytes : List UInt8
  isFaulty : (Utf8.fault? bytes).isSome = true
  deriving DecidableEq

def Garbled.fault (g : Garbled) : Utf8.Fault := (Utf8.fault? g.bytes).get g.isFaulty

inductive Value
  | null
  | integer (value : Int64)
  | real (value : Rat)
  | text (value : String)
  | garbled (text : Garbled)
  | blob (bytes : List UInt8)
  deriving DecidableEq

inductive StorageClass
  | null
  | integer
  | real
  | text
  | blob
  deriving DecidableEq

def StorageClass.name : StorageClass → String
  | null => "Null"
  | integer => "Integer"
  | real => "Real"
  | text => "Text"
  | blob => "Blob"

inductive Affinity
  | integer
  | text
  deriving DecidableEq

structure Numeral where
  negative : Bool
  whole : List Char
  fraction : List Char
  exponent : Int

namespace Numeral

def isBlank (c : Char) : Bool :=
  c = ' ' || ('\t' ≤ c && c ≤ '\r')

def digitsValue (cs : List Char) : Nat :=
  cs.foldl (fun n c => 10 * n + (c.toNat - '0'.toNat)) 0

def sign : List Char → Bool × List Char
  | '-' :: cs => (true, cs)
  | '+' :: cs => (false, cs)
  | cs => (false, cs)

def exponent? : List Char → Option Int
  | [] => some 0
  | c :: cs =>
    let (negative, digits) := sign cs
    if (c = 'e' || c = 'E') && !digits.isEmpty && digits.all Char.isDigit then
      some (if negative then -digitsValue digits else digitsValue digits)
    else none

def ofText? (s : String) : Option Numeral :=
  let body := ((s.toList.dropWhile isBlank).reverse.dropWhile isBlank).reverse
  let (negative, cs) := sign body
  let whole := cs.takeWhile Char.isDigit
  let (fraction, rest) := match cs.dropWhile Char.isDigit with
    | '.' :: cs => (cs.takeWhile Char.isDigit, cs.dropWhile Char.isDigit)
    | cs => ([], cs)
  if whole.isEmpty && fraction.isEmpty then none
  else (exponent? rest).map fun e => ⟨negative, whole, fraction, e⟩

/-- Exponents beyond this only make zero or infinity. -/
def greatestExponent : Int := 10000

def toRat (n : Numeral) : Rat :=
  let digits := digitsValue (n.whole ++ n.fraction)
  let exponent := max (-greatestExponent) (min greatestExponent n.exponent)
  let magnitude := digits * Decimal.tenPow (exponent - n.fraction.length)
  if n.negative then -magnitude else magnitude

end Numeral

namespace Value

def storageClass : Value → StorageClass
  | null => .null
  | integer _ => .integer
  | real _ => .real
  | text _ | garbled _ => .text
  | blob _ => .blob

def isNull : Value → Bool
  | null => true
  | _ => false

def ofUtf8 (bytes : List UInt8) : Value :=
  if h : (Utf8.fault? bytes).isSome then garbled ⟨bytes, h⟩ else text (Utf8.text bytes)

/-- Nulls come before numbers, numbers before texts and texts before blobs; numbers compare by
value, texts and blobs by their bytes. -/
def order : Value → Value → Ordering
  | null, null => .eq
  | null, _ => .lt
  | _, null => .gt
  | integer m, integer n => compare m n
  | integer m, real q => compareOfLessAndEq (m.toInt : Rat) q
  | real q, integer n => compareOfLessAndEq q (n.toInt : Rat)
  | real p, real q => compareOfLessAndEq p q
  | blob b, blob c => compare b c
  | blob _, _ => .gt
  | _, blob _ => .lt
  | text s, text t => compare (Utf8.encode s) (Utf8.encode t)
  | text s, garbled g => compare (Utf8.encode s) g.bytes
  | garbled g, text t => compare g.bytes (Utf8.encode t)
  | garbled g, garbled h => compare g.bytes h.bytes
  | text _, _ | garbled _, _ => .gt
  | _, text _ | _, garbled _ => .lt

/-- A real number is kept as an integer if it is one and lies well within its range. -/
def ofReal (q : Rat) : Value :=
  if q.den = 1 ∧ Int64.minValue.toInt < q.num ∧ q.num < Int64.maxValue.toInt then
    integer (.ofInt q.num)
  else real q

def ofNumeral (n : Numeral) : Value :=
  let q := n.toRat
  if n.fraction.isEmpty ∧ n.exponent = 0 ∧ q.den = 1 ∧
      Int64.minValue.toInt ≤ q.num ∧ q.num ≤ Int64.maxValue.toInt then
    integer (.ofInt q.num)
  else ofReal (roundTo53Bits q)

/-- Real numbers have fifteen significant digits, and an exponent outside of 10⁻⁴ to 10¹⁵. -/
def realFormat : Decimal.Format where
  leastPoint := -3
  greatestPoint := 15
  exponentText e :=
    let digits := toString e.natAbs
    (if e < 0 then "e-" else "e+") ++ (if digits.length < 2 then "0" else "") ++ digits
  pointBeforeExponent := true

def realText (q : Rat) : String :=
  if q = 0 then "0.0"
  else if q < 0 then "-" ++ (Decimal.toSignificant 15 (-q)).text realFormat
  else (Decimal.toSignificant 15 q).text realFormat

/-- The bytes of the text that a value counts as where text is asked for. -/
def asText? : Value → Option (List UInt8)
  | null => none
  | integer n => some (Utf8.encode (toString n))
  | real q => some (Utf8.encode (realText q))
  | text s => some (Utf8.encode s)
  | garbled g => some g.bytes
  | blob b => some b

end Value

def Affinity.apply : Affinity → Value → Value
  | integer, .text s => (Numeral.ofText? s).elim (.text s) .ofNumeral
  | integer, .real q => .ofReal q
  | text, .integer n => .text (toString n)
  | text, .real q => .text (Value.realText q)
  | _, v => v

end Lexiquery
