import Lexiquery.Store.Image

/-! Paths, their parts parted by slashes, and the files that they lead to. -/

namespace Lexiquery

namespace Path

def isAbsolute (path : String) : Bool := path.toList.head? = some '/'

def dropTrailing : Nat → List Char → List Char
  | 0, cs => cs
  | n + 1, cs =>
    match cs with
    | '/' :: rest => if rest.isEmpty then cs else dropTrailing n rest
    | '.' :: '/' :: rest => if rest.isEmpty then ['/'] else dropTrailing n rest
    | cs => cs

def parent (path : String) : String :=
  let reversed := path.toList.reverse.dropWhile (· ≠ '/')
  String.ofList (dropTrailing reversed.length reversed).reverse

def join (directory path : String) : String :=
  if isAbsolute path ∨ directory.isEmpty then path
  else if directory.toList.getLast? = some '/' then directory ++ path
  else directory ++ "/" ++ path

end Path

inductive File
  | text (source : String)
  | store (store : Store)
  | directory
  | other

def File.ofBytes (bytes : ByteArray) : File :=
  match Image.ofBytes? bytes with
  | some image => .store image.store
  | none => (String.fromUTF8? bytes).elim .other .text

inductive PathFault
  | missing
  | denied
  | notDirectory
  | tooLong
  deriving DecidableEq

abbrev Files := String → Except PathFault File

inductive ReadFault
  | path (fault : PathFault)
  | nulByte
  | directory
  | notText
  deriving DecidableEq

def PathFault.message : PathFault → String
  | missing => "No such file or directory (os error 2)"
  | denied => "Permission denied (os error 13)"
  | notDirectory => "Not a directory (os error 20)"
  | tooLong => "File name too long (os error 36)"

def ReadFault.message : ReadFault → String
  | path fault => fault.message
  | nulByte => "file name contained an unexpected NUL byte"
  | directory => "Is a directory (os error 21)"
  | notText => "stream did not contain valid UTF-8"

namespace Files

def readText (files : Files) (path : String) : Except ReadFault String :=
  if path.toList.contains '\x00' then .error .nulByte
  else
    match files path with
    | .ok (.text source) => .ok source
    | .ok .directory => .error .directory
    | .ok (.store _) | .ok .other => .error .notText
    | .error fault => .error (.path fault)

end Files

end Lexiquery
