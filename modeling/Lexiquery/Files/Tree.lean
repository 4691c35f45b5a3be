import Lexiquery.Files

/-! Files in a tree of directories, and where a path leads in it. -/

namespace Lexiquery

inductive FileTree
  | file (file : File)
  | directory (entries : List (String × FileTree))

namespace FileTree

def maxName : Nat := 255

def pathBound : Nat := 4096

def contents : FileTree → File
  | file f => f
  | directory _ => .directory

/-- Follows the parts of a path from a place in a tree, given the places it lies in, the nearest
first. Above the root is the root. -/
def walk : List FileTree → FileTree → List String → Except PathFault FileTree
  | _, place, [] => .ok place
  | _, file _, _ :: _ => .error .notDirectory
  | above, directory entries, part :: parts =>
    let here := directory entries
    if part = "" ∨ part = "." then walk above here parts
    else if part = ".." then
      match above with
      | [] => walk [] here parts
      | outer :: above => walk above outer parts
    else if maxName < part.utf8ByteSize then .error .tooLong
    else
      match entries.lookup part with
      | none => .error .missing
      | some inner => walk (here :: above) inner parts

def files (root : FileTree) (directory : List String) : Files := fun path =>
  if path = "" then .error .missing
  else if pathBound ≤ path.utf8ByteSize then .error .tooLong
  else
    let parts : List String := path.splitOn "/"
    (walk [] root (if Path.isAbsolute path then parts else directory ++ parts)).map contents

end FileTree

end Lexiquery
