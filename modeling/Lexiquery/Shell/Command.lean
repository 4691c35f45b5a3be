import Lexiquery.Text.Blank

/-! The commands of the shell. -/

namespace Lexiquery

inductive Relative
  | synonyms
  | antonyms
  | hypernyms
  | rhymes
  deriving DecidableEq

structure Lookup where
  relative : Relative
  spelling : String
  deriving DecidableEq

inductive Command
  | lookup (lookup : Lookup)
  | explain (lookup : Lookup)
  | metrics
  | help
  | quit
  | empty
  | unknown (line : String)
  deriving DecidableEq

namespace Relative

def all : List Relative := [.synonyms, .antonyms, .hypernyms, .rhymes]

def keyword : Relative → String
  | synonyms => "synonyms"
  | antonyms => "antonyms"
  | hypernyms => "hypernyms"
  | rhymes => "rhymes"

end Relative

/-- A lookup is a keyword, a blank and a spelling, which may hold blanks. -/
def Lookup.parse? (cs : List Char) : Option Lookup :=
  let (head, rest) := splitHead cs
  if rest.isEmpty then none
  else (Relative.all.find? (·.keyword.toList == head)).map (⟨·, String.ofList rest⟩)

namespace Command

def parseTrimmed (cs : List Char) : Command :=
  let (head, rest) := splitHead cs
  let unknown := unknown (String.ofList cs)
  match Lookup.parse? cs with
  | some l => lookup l
  | none =>
    match String.ofList head with
    | "" => empty
    | "explain" => (Lookup.parse? rest).elim unknown explain
    | "metrics" => if rest.isEmpty then metrics else unknown
    | "help" | "?" => help
    | "quit" | "exit" => quit
    | _ => unknown

def parse (line : String) : Command :=
  parseTrimmed (trim line.toList)

end Command

end Lexiquery
