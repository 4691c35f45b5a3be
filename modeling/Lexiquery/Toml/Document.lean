import Lexiquery.Toml.Scalar

/-! A TOML document as a table of its keys, in the order they are first written. -/

namespace Lexiquery.Toml

/-- How a table came to be: from a header of its own, from the header of a table inside it, or from
a dotted key. -/
inductive Origin
  | header
  | implied
  | dotted
  deriving DecidableEq

inductive Node
  | value (value : Value)
  | table (origin : Origin) (entries : List (String × Node))
  | tables (items : List (List (String × Node)))

abbrev Entries := List (String × Node)

namespace Node

mutual

def toValue : Node → Value
  | value v => v
  | table _ entries => .table (toEntries entries)
  | tables items => .array (toItems items)

def toEntries : List (String × Node) → List (String × Value)
  | [] => []
  | (key, node) :: rest => (key, node.toValue) :: toEntries rest

def toItems : List (List (String × Node)) → List Value
  | [] => []
  | entries :: rest => .table (toEntries entries) :: toItems rest

end

end Node

namespace Entries

def put (key : String) (node : Node) : Entries → Entries
  | [] => [(key, node)]
  | (k, old) :: rest => if k = key then (key, node) :: rest else (k, old) :: put key node rest

def remove (key : String) (es : Entries) : Entries :=
  es.filter (·.1 ≠ key)

/-- Changes the table that a path leads to. Missing tables are made on the way, and of an array of
tables the last is entered. Nothing may go through a value, and a dotted key not through a table
that has a header. -/
def change (made : Origin) (f : Origin → Entries → Option Entries) :
    List String → Origin → Entries → Option Entries
  | [], origin, es => f origin es
  | key :: path, _, es =>
    match es.lookup key with
    | none => do
      let inner ← change made f path made []
      return es.put key (.table made inner)
    | some (.value _) => none
    | some (.tables items) => do
      let inner ← change made f path .header (items.getLastD [])
      return es.put key (.tables (items.dropLast ++ [inner]))
    | some (.table origin inner) =>
      if made = .dotted ∧ origin = .header then none
      else do
        let inner ← change made f path origin inner
        return es.put key (.table origin inner)

def define (path : List String) (key : String) (v : Value) (es : Entries) : Option Entries :=
  change .dotted (fun origin es =>
    if (origin = .dotted) = path.isEmpty ∨ (es.lookup key).isSome then none
    else some (es ++ [(key, .value v)])) path .header es

end Entries

structure Key where
  path : List String
  last : String

def inlineTable? (pairs : List (Key × Value)) : Option Value := do
  let es ← pairs.foldlM (fun es (key, v) => Entries.define key.path key.last v es) ([] : Entries)
  return .table (Node.toEntries es)

def isBareKeyChar (c : Char) : Bool := c.isAlphanum || c = '_' || c = '-'

def keyPart? : Reader String := fun cs =>
  match cs with
  | '"' :: _ | '\'' :: _ => lineString? cs
  | _ =>
    let key := cs.takeWhile isBareKeyChar
    if key.isEmpty then none else some (String.ofList key, cs.dropWhile isBareKeyChar)

/-- How deep values may stand in one another, and how many parts a key may have. -/
def maxDepth : Nat := 79

def keyParts? : Nat → Reader (List String)
  | 0, _ => none
  | n + 1, cs => do
    let (part, cs) ← keyPart? (skipBlanks cs)
    match skipBlanks cs with
    | '.' :: rest =>
      let (parts, rest) ← keyParts? n rest
      return (part :: parts, rest)
    | rest => return ([part], rest)

def key? : Reader Key := fun cs => do
  let (parts, rest) ← keyParts? maxDepth cs
  return (⟨parts.dropLast, parts.getLastD ""⟩, rest)

def skipComment? : List Char → Option (List Char)
  | '#' :: cs => some (cs.dropWhile isPlain)
  | cs => some cs

def skipLines? : Nat → List Char → Option (List Char)
  | 0, cs => some cs
  | n + 1, cs => do
    let cs := skipBlanks cs
    match cs with
    | '#' :: _ => skipLines? n (← newline? (← skipComment? cs))
    | _ =>
      match newline? cs with
      | some cs => skipLines? n cs
      | none => some cs

def skipLinesAll? (cs : List Char) : Option (List Char) := skipLines? cs.length cs

mutual

/-- A value in which others stand at most `depth` deep. Each call takes a character off the text
before the next, so `n` calls are enough for a text of `n` characters. -/
def value? : Nat → Nat → Reader Value
  | 0, _, _ => none
  | n + 1, depth, cs =>
    match cs, depth with
    | '"' :: _, _ | '\'' :: _, _ => (string? cs).map fun (s, rest) => (.string s, rest)
    | '[' :: _, 0 | '\x7b' :: _, 0 => none
    | '[' :: cs, depth + 1 => do
      let (items, rest) ← items? n depth (← skipLinesAll? cs)
      return (.array items, rest)
    | '\x7b' :: cs, depth + 1 => do
      match skipBlanks cs with
      | '\x7d' :: rest => return (.table [], rest)
      | cs =>
        let (pairs, rest) ← pairs? n depth cs
        return (← inlineTable? pairs, rest)
    | _, _ => word? cs

def items? : Nat → Nat → Reader (List Value)
  | 0, _, _ => none
  | n + 1, depth, cs =>
    match cs with
    | ']' :: rest => some ([], rest)
    | _ => do
      let (v, cs) ← value? n depth cs
      match ← skipLinesAll? cs with
      | ',' :: rest =>
        let (vs, rest) ← items? n depth (← skipLinesAll? rest)
        return (v :: vs, rest)
      | ']' :: rest => return ([v], rest)
      | _ => none

def pairs? : Nat → Nat → Reader (List (Key × Value))
  | 0, _, _ => none
  | n + 1, depth, cs => do
    let (pair, cs) ← pair? n depth cs
    match skipBlanks cs with
    | ',' :: rest =>
      let (pairs, rest) ← pairs? n depth rest
      return (pair :: pairs, rest)
    | '\x7d' :: rest => return ([pair], rest)
    | _ => none

def pair? : Nat → Nat → Reader (Key × Value)
  | 0, _, _ => none
  | n + 1, depth, cs => do
    let (key, cs) ← key? cs
    let (v, cs) ← value? n depth (skipBlanks (← expect? '=' cs))
    return ((key, v), cs)

end

inductive Line
  | blank
  | pair (key : Key) (value : Value)
  | header (key : Key)
  | arrayHeader (key : Key)

def lineEnd? (cs : List Char) : Option (List Char) := do
  let cs ← skipComment? (skipBlanks cs)
  if cs.isEmpty then some [] else newline? cs

def line? : Reader Line := fun cs => do
  let cs := skipBlanks cs
  let (line, cs) ← match cs with
    | '[' :: '[' :: cs => do
      let (key, cs) ← key? cs
      pure (Line.arrayHeader key, ← expect? ']' (← expect? ']' cs))
    | '[' :: cs => do
      let (key, cs) ← key? cs
      pure (Line.header key, ← expect? ']' cs)
    | [] | '#' :: _ | '\n' :: _ | '\r' :: _ => pure (Line.blank, cs)
    | cs => do
      let ((key, v), cs) ← pair? (2 * cs.length + 2) maxDepth cs
      pure (Line.pair key v, cs)
  return (line, ← lineEnd? cs)

def lines? : Nat → List Char → Option (List Line)
  | _, [] => some []
  | 0, _ => none
  | n + 1, cs => do
    let (line, cs) ← line? cs
    return line :: (← lines? n cs)

structure Progress where
  root : Entries
  path : List String

namespace Progress

def inRoot (p : Progress) (f : Origin → Entries → Option Entries) (path : List String) :
    Option Entries :=
  p.root.change .implied f path .header

/-- Takes up one line. A header may give a table to itself that so far was implied by others; the
table then counts as written here. -/
def take (p : Progress) : Line → Option Progress
  | .blank => some p
  | .pair key v => do
    return { p with root := ← p.inRoot (fun _ es => es.define key.path key.last v) p.path }
  | .header key => do
    let root ← p.inRoot (fun _ es =>
      match es.lookup key.last with
      | none => some (es ++ [(key.last, .table .header [])])
      | some (.table .implied inner) =>
        some (es.remove key.last ++ [(key.last, .table .header inner)])
      | some _ => none) key.path
    return ⟨root, key.path ++ [key.last]⟩
  | .arrayHeader key => do
    let root ← p.inRoot (fun _ es =>
      match es.lookup key.last with
      | none => some (es ++ [(key.last, .tables [[]])])
      | some (.tables items) => some (es.put key.last (.tables (items ++ [[]])))
      | some _ => none) key.path
    return ⟨root, key.path ++ [key.last]⟩

end Progress

def parse? (source : String) : Option (List (String × Value)) := do
  let cs := match source.toList with
    | c :: cs => if c.toNat = 0xfeff then cs else c :: cs
    | [] => []
  let p ← (← lines? (cs.length + 1) cs).foldlM Progress.take ⟨[], []⟩
  return Node.toEntries p.root

end Lexiquery.Toml
