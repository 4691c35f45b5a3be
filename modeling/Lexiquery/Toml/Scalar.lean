import Lexiquery.Toml.Value

/-! Strings, numbers, dates and times as TOML writes them. A reader takes what it reads off the
front of a text and leaves the rest; it fails on what the format does not allow. -/

namespace Lexiquery.Toml

abbrev Reader (α : Type) := List Char → Option (α × List Char)

def isBlank (c : Char) : Bool := c = ' ' || c = '\t'

def skipBlanks (cs : List Char) : List Char := cs.dropWhile isBlank

def isPlain (c : Char) : Bool :=
  c = '\t' || (' ' ≤ c && c.toNat ≠ 127)

def newline? : List Char → Option (List Char)
  | '\n' :: cs => some cs
  | '\r' :: '\n' :: cs => some cs
  | _ => none

def hexValue? (c : Char) : Option Nat :=
  if '0' ≤ c && c ≤ '9' then some (c.toNat - '0'.toNat)
  else if 'a' ≤ c && c ≤ 'f' then some (c.toNat - 'a'.toNat + 10)
  else if 'A' ≤ c && c ≤ 'F' then some (c.toNat - 'A'.toNat + 10)
  else none

def numberOf? (base : Nat) (cs : List Char) : Option Nat :=
  cs.foldlM (fun n c => do
    let d ← hexValue? c
    if d < base then some (base * n + d) else none) 0

def codePoint? (n : Nat) : Reader Char := fun cs => do
  let v ← numberOf? 16 (cs.take n)
  if n ≤ cs.length ∧ v.isValidChar then some (Char.ofNat v, cs.drop n) else none

def escape? : Reader Char
  | 'b' :: cs => some (Char.ofNat 8, cs)
  | 't' :: cs => some ('\t', cs)
  | 'n' :: cs => some ('\n', cs)
  | 'f' :: cs => some (Char.ofNat 12, cs)
  | 'r' :: cs => some ('\r', cs)
  | '"' :: cs => some ('"', cs)
  | '\\' :: cs => some ('\\', cs)
  | 'u' :: cs => codePoint? 4 cs
  | 'U' :: cs => codePoint? 8 cs
  | _ => none

def blanksAndNewlines : Nat → List Char → List Char
  | 0, cs => cs
  | n + 1, cs =>
    match newline? (skipBlanks cs) with
    | some cs => blanksAndNewlines n cs
    | none => skipBlanks cs

def lineBreak? (cs : List Char) : Option (List Char) :=
  (newline? (skipBlanks cs)).map fun cs => blanksAndNewlines cs.length cs

/-- A text that holds quotes, delimited by three of them: up to two more may stand before the end.
-/
def closing? (quote : Char) (cs : List Char) : Option (List Char × List Char) :=
  let n := (cs.takeWhile (· = quote)).length
  if 3 ≤ n then
    let inside := min (n - 3) 2
    some (List.replicate inside quote, cs.drop (inside + 3))
  else none

/-- Reads until `close` ends the text, `next` taking one character at a time. Each takes at least
one character off the text, of which there are at most `n`. -/
def until? (close : List Char → Option (List Char × List Char)) (next : Reader (List Char)) :
    Nat → Reader (List Char)
  | 0, _ => none
  | n + 1, cs =>
    match close cs with
    | some (last, rest) => some (last, rest)
    | none => do
      let (c, cs) ← next cs
      let (text, rest) ← until? close next n cs
      return (c ++ text, rest)

def plain? : Reader (List Char)
  | c :: cs => if isPlain c then some ([c], cs) else none
  | [] => none

def escaped? : Reader (List Char)
  | '\\' :: cs => (escape? cs).map fun (c, cs) => ([c], cs)
  | cs => plain? cs

def ofLines? (inner : Reader (List Char)) : Reader (List Char) := fun cs =>
  match newline? cs with
  | some cs => some (['\n'], cs)
  | none => inner cs

/-- A backslash at the end of a line joins it to what comes next. -/
def joined? : Reader (List Char)
  | '\\' :: cs =>
    match lineBreak? cs with
    | some cs => some ([], cs)
    | none => escaped? ('\\' :: cs)
  | cs => plain? cs

def closedBy (quote : Char) : List Char → Option (List Char × List Char)
  | c :: cs => if c = quote then some ([], cs) else none
  | [] => none

def body? (close : List Char → Option (List Char × List Char)) (next : Reader (List Char)) :
    Reader String := fun cs =>
  (until? close next (cs.length + 1) cs).map fun (text, rest) => (String.ofList text, rest)

def lineString? : Reader String
  | '"' :: cs => body? (closedBy '"') escaped? cs
  | '\'' :: cs => body? (closedBy '\'') plain? cs
  | _ => none

/-- A string; a line end right after three opening quotes is no part of it. -/
def string? : Reader String
  | '"' :: '"' :: '"' :: cs =>
    body? (closing? '"') (ofLines? joined?) ((newline? cs).getD cs)
  | '\'' :: '\'' :: '\'' :: cs =>
    body? (closing? '\'') (ofLines? plain?) ((newline? cs).getD cs)
  | cs => lineString? cs

def isGrouped : List Char → Bool
  | [] => false
  | '_' :: _ => false
  | [_] => true
  | _ :: '_' :: cs => isGrouped cs
  | _ :: cs => isGrouped cs

def digits? (isDigit : Char → Bool) (cs : List Char) : Option (List Char × List Char) :=
  let isPart := fun c => isDigit c || c = '_'
  let run := cs.takeWhile isPart
  if isGrouped run then some (run.filter (· ≠ '_'), cs.dropWhile isPart) else none

def isDecimalDigit (c : Char) : Bool := '0' ≤ c && c ≤ '9'

def ofRange? (n : Int) : Option Value :=
  if Int64.minValue.toInt ≤ n ∧ n ≤ Int64.maxValue.toInt then some (.integer (.ofInt n)) else none

def based? (base : Nat) (cs : List Char) : Option Value := do
  let (ds, rest) ← digits? (fun c => (hexValue? c).any (· < base)) cs
  if rest.isEmpty then ofRange? (← numberOf? base ds) else none

def exponent? : List Char → Option Int
  | [] => some 0
  | c :: cs =>
    if c = 'e' || c = 'E' then
      let (negative, cs) := match cs with
        | '-' :: cs => (true, cs)
        | '+' :: cs => (false, cs)
        | cs => (false, cs)
      match digits? isDecimalDigit cs with
      | some (ds, []) => (numberOf? 10 ds).map fun n => if negative then -(n : Int) else n
      | _ => none
    else none

/-- The number with these digits around the point. Above the greatest of 1024 bits it is infinite,
which only a negative one may be. -/
def real? (negative : Bool) (whole fraction : List Char) (exponent : Int) : Option Value := do
  let n ← numberOf? 10 (whole ++ fraction)
  let places := exponent - fraction.length
  let size := (whole ++ fraction).length + places
  if n = 0 then return .real (.finite negative 0)
  if 400 < size then if negative then return .real (.infinite true) else none
  if size < -400 then return .real (.finite negative 0)
  let x := (Binary64.round (n * Decimal.tenPow places)).toRat
  if x < twoPow 1024 then return .real (.finite negative x)
  if negative then return .real (.infinite true) else none

def decimal? (negative : Bool) (cs : List Char) : Option Value := do
  let (whole, rest) ← digits? isDecimalDigit cs
  if 1 < whole.length ∧ whole.head? = some '0' then none
  match rest with
  | [] =>
    let n ← numberOf? 10 whole
    ofRange? (if negative then -(n : Int) else n)
  | '.' :: rest =>
    let (fraction, rest) ← digits? isDecimalDigit rest
    real? negative whole fraction (← exponent? rest)
  | rest => real? negative whole [] (← exponent? rest)

def signed? (negative : Bool) (cs : List Char) : Option Value :=
  if cs = ['i', 'n', 'f'] then some (.real (.infinite negative))
  else if cs = ['n', 'a', 'n'] then some (.real .nan)
  else decimal? negative cs

def number? : List Char → Option Value
  | '+' :: cs => signed? false cs
  | '-' :: cs => signed? true cs
  | '0' :: 'x' :: cs => based? 16 cs
  | '0' :: 'o' :: cs => based? 8 cs
  | '0' :: 'b' :: cs => based? 2 cs
  | cs => signed? false cs

def field? (n low high : Nat) : Reader Nat := fun cs => do
  let ds := cs.take n
  if ds.length = n ∧ ds.all isDecimalDigit then
    let v ← numberOf? 10 ds
    if low ≤ v ∧ v ≤ high then some (v, cs.drop n) else none
  else none

def expect? (c : Char) : List Char → Option (List Char)
  | d :: cs => if c = d then some cs else none
  | [] => none

def daysIn (year month : Nat) : Nat :=
  if month = 2 then
    if year % 4 = 0 ∧ (year % 100 ≠ 0 ∨ year % 400 = 0) then 29 else 28
  else if month = 4 ∨ month = 6 ∨ month = 9 ∨ month = 11 then 30 else 31

def date? (cs : List Char) : Option (List Char) := do
  let (year, cs) ← field? 4 0 9999 cs
  let (month, cs) ← field? 2 1 12 (← expect? '-' cs)
  let (_, cs) ← field? 2 1 (daysIn year month) (← expect? '-' cs)
  return cs

def time? (cs : List Char) : Option (List Char) := do
  let (_, cs) ← field? 2 0 23 cs
  let (_, cs) ← field? 2 0 59 (← expect? ':' cs)
  let (_, cs) ← field? 2 0 60 (← expect? ':' cs)
  match cs with
  | '.' :: rest =>
    let ds := rest.takeWhile isDecimalDigit
    if ds.isEmpty then none else return rest.dropWhile isDecimalDigit
  | cs => return cs

def isOffset : List Char → Bool
  | [] => true
  | [c] => c = 'Z' || c = 'z'
  | c :: cs =>
    (c = '+' || c = '-') && (do
      let (_, cs) ← field? 2 0 23 cs
      let (_, cs) ← field? 2 0 59 (← expect? ':' cs)
      return cs.isEmpty) = some true

def isDate (cs : List Char) : Bool := date? cs = some []

def isDateTime (cs : List Char) : Bool :=
  match date? cs with
  | some [] => true
  | some (c :: rest) => (c = 'T' || c = 't' || c = ' ') && (time? rest).any isOffset
  | none => time? cs = some []

def isWordChar (c : Char) : Bool :=
  c.isAlphanum || c = '_' || c = '+' || c = '-' || c = '.' || c = ':'

/-- A value that is no string and has no parts. A date may go on, after one blank, with a time. -/
def word? : Reader Value := fun cs =>
  let word := cs.takeWhile isWordChar
  let rest := cs.dropWhile isWordChar
  let value? (word : List Char) : Option Value :=
    if word = ['t', 'r', 'u', 'e'] then some (.boolean true)
    else if word = ['f', 'a', 'l', 's', 'e'] then some (.boolean false)
    else if isDateTime word then some .dateTime
    else number? word
  let long := word ++ ' ' :: (rest.drop 1).takeWhile isWordChar
  if isDate word && rest.head? = some ' ' && isDateTime long then
    some (.dateTime, (rest.drop 1).dropWhile isWordChar)
  else (value? word).map (·, rest)

end Lexiquery.Toml
