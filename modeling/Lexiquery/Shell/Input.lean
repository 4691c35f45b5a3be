import Lexiquery.Text.Cluster

/-! Lines as they are typed: a backspace takes back the cluster before it. -/

namespace Lexiquery

/-- What is typed so far, reversed, and the sizes of its clusters, the last first. -/
structure Draft where
  text : List Char
  sizes : List Nat

namespace Draft

def backspace : Char := '\x08'

def dropBytes : Nat → List Char → List Char
  | 0, cs => cs
  | _, [] => []
  | n + 1, c :: cs => dropBytes (n + 1 - c.utf8Size) cs

/-- The size of a cluster in bytes, as far as one byte can hold it. -/
def sizeOf (cluster : List Char) : Nat :=
  cluster.foldl (fun n c => n + c.utf8Size) 0 % 256

/-- A backspace at the start of a line does nothing. -/
def type (d : Draft) (cluster : List Char) : Draft :=
  if cluster = [backspace] then
    match d.sizes with
    | [] => d
    | n :: sizes => ⟨dropBytes n d.text, sizes⟩
  else ⟨cluster.reverse ++ d.text, sizeOf cluster :: d.sizes⟩

end Draft

def typed (line : String) : String :=
  String.ofList ((clusters line.toList).foldl Draft.type ⟨[], []⟩).text.reverse

end Lexiquery
