import Lexiquery.Decimal.Shortest

/-! Reports as JSON text. -/

namespace Lexiquery

inductive Json
  | null
  | bool (value : Bool)
  | integer (value : Int)
  | fraction (value : Rat)
  | string (value : String)
  | array (items : List Json)
  | object (entries : List (String × Json))

namespace Json

/-- Numbers from 10⁻⁵ up to below 10¹⁶ are positional. -/
def fractionFormat : Decimal.Format where
  leastPoint := -4
  greatestPoint := 16
  exponentText e := s!"e{e}"
  pointBeforeExponent := false

def fractionText (q : Rat) : String :=
  if q = 0 then "0.0" else (Decimal.shortest .even (.round q)).text fractionFormat

def unicodeEscape (n : Nat) : List Char :=
  ['\\', 'u', '0', '0', Nat.digitChar (n / 16 % 16), Nat.digitChar (n % 16)]

def escape (c : Char) : List Char :=
  if c = '"' then ['\\', '"']
  else if c = '\\' then ['\\', '\\']
  else if c = '\n' then ['\\', 'n']
  else if c = '\r' then ['\\', 'r']
  else if c = '\t' then ['\\', 't']
  else if c.toNat = 8 then ['\\', 'b']
  else if c.toNat = 12 then ['\\', 'f']
  else if c.toNat < 32 then unicodeEscape c.toNat
  else [c]

def quote (s : String) : String :=
  String.ofList ('"' :: s.toList.flatMap escape ++ ['"'])

mutual

def compact : Json → String
  | null => "null"
  | bool b => if b then "true" else "false"
  | integer n => toString n
  | fraction q => fractionText q
  | string s => quote s
  | array items => "[" ++ String.intercalate "," (compactItems items) ++ "]"
  | object entries => "\x7b" ++ String.intercalate "," (compactEntries entries) ++ "\x7d"

def compactItems : List Json → List String
  | [] => []
  | j :: js => j.compact :: compactItems js

def compactEntries : List (String × Json) → List String
  | [] => []
  | (key, j) :: rest => (quote key ++ ":" ++ j.compact) :: compactEntries rest

end

def indent (depth : Nat) : String :=
  String.ofList (List.replicate (2 * depth) ' ')

def block (opening closing : String) (depth : Nat) : List String → String
  | [] => opening ++ closing
  | lines =>
    let inner := String.intercalate ",\n" (lines.map (indent (depth + 1) ++ ·))
    opening ++ "\n" ++ inner ++ "\n" ++ indent depth ++ closing

mutual

def pretty : Json → Nat → String
  | array items, depth => block "[" "]" depth (prettyItems items (depth + 1))
  | object entries, depth => block "\x7b" "\x7d" depth (prettyEntries entries (depth + 1))
  | j, _ => j.compact

def prettyItems : List Json → Nat → List String
  | [], _ => []
  | j :: js, depth => j.pretty depth :: prettyItems js depth

def prettyEntries : List (String × Json) → Nat → List String
  | [], _ => []
  | (key, j) :: rest, depth => (quote key ++ ": " ++ j.pretty depth) :: prettyEntries rest depth

end

end Json

end Lexiquery
