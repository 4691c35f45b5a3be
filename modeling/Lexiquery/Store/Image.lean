import Lexiquery.Decimal.Binary64
import Lexiquery.Store.Basic
import Lexiquery.Text.Blank

/-! Stores in files. A file consists of pages of one size; the pages of a table form a tree, the
rows in the order of their numbers at its leaves. The tree that starts on the first page lists the
tables and the statements that made them. What lies outside of a file reads as zero. -/

namespace Lexiquery

structure Image where
  bytes : ByteArray
  pageSize : Nat
  reserved : Nat

namespace Image

def byte (b : ByteArray) (i : Nat) : Nat :=
  (b[i]?.map (·.toNat)).getD 0

def number (b : ByteArray) (i : Nat) : Nat → Nat
  | 0 => 0
  | n + 1 => 256 * number b i n + byte b (i + n)

def signed (bits n : Nat) : Int64 := .ofInt (Int.bmod n (Nat.pow 2 bits))

/-- Seven bits from each byte, and on as long as the eighth is set; the byte after the last of them
counts in full. With the place behind the number. -/
def varintFrom (b : ByteArray) : Nat → Nat → Nat → Nat × Nat
  | 0, v, i => (256 * v + byte b i, i + 1)
  | n + 1, v, i =>
    let c := byte b i
    if c < 128 then (128 * v + c, i + 1) else varintFrom b n (128 * v + (c - 128)) (i + 1)

def varint (b : ByteArray) (i : Nat) : Nat × Nat := varintFrom b 8 0 i

/-! Cells of a row -/

def fractionBound : Nat := Nat.pow 2 52

def exponentMax : Nat := 2047

def realOfBits (n : Nat) : Value :=
  let fraction := n % fractionBound
  let exponent : Nat := n / fractionBound % (exponentMax + 1)
  let x : Binary64 :=
    if exponent = 0 then ⟨fraction, Binary64.leastExponent⟩
    else ⟨fractionBound + fraction, Binary64.leastExponent + (exponent - 1 : Nat)⟩
  if exponent = exponentMax then .null
  else .real (if n < fractionBound * (exponentMax + 1) then x.toRat else -x.toRat)

def contentSize (code : Nat) : Nat :=
  match code with
  | 5 => 6
  | 6 | 7 => 8
  | _ => if code < 5 then code else (code - 12) / 2

def content (b : ByteArray) (i code : Nat) : Value :=
  let size := contentSize code
  match code with
  | 0 => .null
  | 7 => realOfBits (number b i 8)
  | 8 => .integer 0
  | 9 => .integer 1
  | _ =>
    if code < 7 then .integer (signed (8 * size) (number b i size))
    else
      let bytes := (b.extract i (i + size)).data.toList
      if code % 2 = 0 then .blob bytes else .ofUtf8 bytes

def contents (b : ByteArray) : Nat → List Nat → List Value
  | _, [] => []
  | i, code :: codes => content b i code :: contents b (i + contentSize code) codes

def codes (b : ByteArray) : Nat → Nat → Nat → List Nat
  | 0, _, _ => []
  | n + 1, i, stop =>
    if i < stop then
      let (code, i) := varint b i
      code :: codes b n i stop
    else []

/-- The values of a row: the size of the codes, the codes, and what they announce. -/
def values (b : ByteArray) : List Value :=
  let (stop, i) := varint b 0
  contents b stop (codes b stop i stop)

/-! Trees of pages -/

def usable (m : Image) : Nat := m.pageSize - m.reserved

def pageCount (m : Image) : Nat := m.bytes.size / m.pageSize + 1

def offset (m : Image) (page : Nat) : Nat := (page - 1) * m.pageSize

def sizeInCell (m : Image) (size : Nat) : Nat :=
  let most := m.usable - 35
  let least := (m.usable - 12) * 32 / 255 - 23
  let here := least + (size - least) % (m.usable - 4)
  if size ≤ most then size else if here ≤ most then here else least

/-- The rest of a row, on pages each of which names the next. -/
def overflow (m : Image) : Nat → Nat → Nat → ByteArray
  | 0, _, _ => .empty
  | n + 1, page, size =>
    let start := m.offset page
    let here := min size (m.usable - 4)
    let rest := if size = here then .empty else m.overflow n (number m.bytes start 4) (size - here)
    m.bytes.extract (start + 4) (start + 4 + here) ++ rest

def payload (m : Image) (i size : Nat) : ByteArray :=
  let here := m.sizeInCell size
  let rest :=
    if size = here then .empty
    else m.overflow m.pageCount (number m.bytes (i + here) 4) (size - here)
  m.bytes.extract i (i + here) ++ rest

def maxDepth : Nat := 20

def rows (m : Image) : Nat → Nat → List (Int64 × List Value)
  | 0, _ => []
  | n + 1, page =>
    let start := m.offset page
    let header := if page = 1 then start + 100 else start
    let cells (i : Nat) := (List.range (number m.bytes (header + 3) 2)).map fun k =>
      start + number m.bytes (i + 2 * k) 2
    match byte m.bytes header with
    | 5 =>
      let pages := (cells (header + 12)).map (number m.bytes · 4)
      (pages ++ [number m.bytes (header + 8) 4]).flatMap (m.rows n)
    | 13 => (cells (header + 8)).map fun i =>
      let (size, i) := varint m.bytes i
      let (key, i) := varint m.bytes i
      (signed 64 key, values (m.payload i size))
    | _ => []

/-! Definitions of columns -/

def parts : Nat → List Char → List Char → List (List Char)
  | _, part, [] => [part.reverse]
  | depth, part, '(' :: cs => parts (depth + 1) ('(' :: part) cs
  | 0, part, ')' :: _ => [part.reverse]
  | depth + 1, part, ')' :: cs => parts depth (')' :: part) cs
  | 0, part, ',' :: cs => part.reverse :: parts 0 [] cs
  | depth, part, c :: cs => parts depth (c :: part) cs

def words (cs : List Char) : List String :=
  let spaced := String.ofList (cs.map fun c => if isBlank c then ' ' else c)
  (spaced.splitOn " " : List String).filter (· ≠ "")

def mentions (type part : String) : Bool := (type.splitOn part : List String).length != 1

def affinity (type : String) : Affinity :=
  if !mentions type "INT" && ["CHAR", "CLOB", "TEXT"].any (mentions type) then .text else .integer

def column? (definition : List Char) : Option (Column × Bool) :=
  match words definition with
  | [] => none
  | name :: rest =>
    let rest := rest.map (·.toUpper)
    if ["CONSTRAINT", "PRIMARY", "UNIQUE", "CHECK", "FOREIGN"].contains name.toUpper then none
    else
      let isQuote (c : Char) := ['"', '\'', '[', ']', '\x60'].contains c
      let name := String.ofList (name.toList.filter fun c => !isQuote c)
      some (⟨name, affinity (rest.headD "")⟩, rest.take 3 == ["INTEGER", "PRIMARY", "KEY"])

def columns (statement : String) : List (Column × Bool) :=
  (parts 0 [] ((statement.toList.dropWhile (· ≠ '(')).drop 1)).filterMap column?

def table (m : Image) (root : Nat) (statement : String) : Table :=
  let defined := columns statement
  { columns := defined.map (·.1)
    rows := (m.rows maxDepth root).map fun (key, vs) =>
      defined.zipWith (fun (c, isKey) v => (c.name, if isKey then .integer key else v)) vs }

def store (m : Image) : Store where
  tables := (m.rows maxDepth 1).filterMap fun (_, vs) =>
    match vs with
    | [.text "table", .text name, _, .integer root, .text statement] =>
      some (name, m.table root.toInt.toNat statement)
    | _ => none

def signature : ByteArray := "SQLite format 3\x00".toUTF8

def ofBytes? (bytes : ByteArray) : Option Image :=
  let size := number bytes 16 2
  if (bytes.extract 0 signature.size).data = signature.data then
    some ⟨bytes, if size = 1 then 65536 else size, byte bytes 20⟩
  else none

end Image

end Lexiquery
