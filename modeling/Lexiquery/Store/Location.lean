import Lexiquery.Error
import Lexiquery.Text.Utf8

/-! Where a store is, as a path says it. A path that starts with `file:` is a URI: its path may hold
escapes, and a query after it may ask for another way to open the store. -/

namespace Lexiquery

inductive Access
  | read
  | write
  | create
  | memory
  deriving DecidableEq

namespace Access

def named? : String → Option Access
  | "ro" => some read
  | "rw" => some write
  | "rwc" => some create
  | "memory" => some memory
  | _ => none

/-- What may be asked for is at most what is granted; a store in memory grants everything. -/
def rank : Access → Nat
  | read => 1
  | write => 2
  | create => 6
  | memory => 128

/-- Whether a URI may ask for `wanted` where `granted` would be in use. A store in memory is always
granted. -/
def grants (granted wanted : Access) : Bool :=
  wanted = memory || wanted.rank ≤ granted.rank

end Access

def drivers : List String := ["unix", "unix-none", "unix-dotfile", "unix-excl", "memdb"]

def memoryDriver : String := "memdb"

structure Location where
  path : String
  access : Access := .read
  driver : String := "unix"

namespace Location

def scheme : List UInt8 := Utf8.encode "file:"

def hexValue? (b : UInt8) : Option UInt8 :=
  if '0'.toUInt8 ≤ b ∧ b ≤ '9'.toUInt8 then some (b - '0'.toUInt8)
  else if 'a'.toUInt8 ≤ b ∧ b ≤ 'f'.toUInt8 then some (b - 'a'.toUInt8 + 10)
  else if 'A'.toUInt8 ≤ b ∧ b ≤ 'F'.toUInt8 then some (b - 'A'.toUInt8 + 10)
  else none

def escaped? : List UInt8 → Option UInt8
  | high :: low :: _ => return 16 * (← hexValue? high) + (← hexValue? low)
  | _ => none

/-- Resolves escapes, a percent sign before two digits. An escaped zero ends the text. -/
def decode : Nat → List UInt8 → List UInt8
  | 0, _ | _, [] => []
  | n + 1, b :: bs =>
    match if b = '%'.toUInt8 then escaped? bs else none with
    | none => b :: decode n bs
    | some v => if v = 0 then [] else v :: decode n (bs.drop 2)

def decoded (bs : List UInt8) : String := Utf8.text (decode bs.length bs)

def cut (at_ : Char) (bs : List UInt8) : List UInt8 × List UInt8 :=
  let before := bs.takeWhile (· ≠ at_.toUInt8)
  (before, bs.drop (before.length + 1))

def split (at_ : Char) (bs : List UInt8) : List (List UInt8) :=
  bs.foldr (fun b parts =>
    if b = at_.toUInt8 then [] :: parts
    else match parts with
      | part :: rest => (b :: part) :: rest
      | [] => [[b]]) [[]]

def settings (query : List UInt8) : List (String × String) :=
  ((split '&' query).map fun part =>
    let (name, value) := cut '=' part
    (decoded name, decoded value)).filter (·.1 ≠ "")

def afterAuthority : List UInt8 → Except OpenFault (List UInt8)
  | bs =>
    let slash := '/'.toUInt8
    if bs.take 2 = [slash, slash] then
      let authority := (bs.drop 2).takeWhile (· ≠ slash)
      if authority = [] ∨ authority = "localhost".toUTF8.data.toList then
        .ok (bs.drop (2 + authority.length))
      else .error (.foreignAuthority (Utf8.text authority))
    else .ok bs

def set (l : Location) : String × String → Except OpenFault Location
  | ("vfs", name) => .ok { l with driver := name }
  | ("cache", mode) =>
    if mode = "shared" ∨ mode = "private" then .ok l else .error (.unknownCache mode)
  | ("mode", mode) =>
    match Access.named? mode with
    | none => .error (.unknownAccess mode)
    | some wanted =>
      if l.access.grants wanted then .ok { l with access := wanted }
      else .error (.forbiddenAccess mode)
  | _ => .ok l

def ofUri (bs : List UInt8) : Except OpenFault Location := do
  let (bs, _) := cut '#' (← afterAuthority bs)
  let (path, query) := cut '?' bs
  let l ← (settings query).foldlM set { path := decoded path }
  if drivers.contains l.driver then return l else throw (.unknownDriver l.driver)

def parse (path : String) : Except OpenFault Location :=
  let bs := path.toUTF8.data.toList
  match bs.findIdx? (· = 0) with
  | some i => .error (.nulByte i)
  | none => if scheme.isPrefixOf bs then ofUri (bs.drop scheme.length) else .ok { path }

def isTransient (l : Location) : Bool :=
  l.path = "" || l.path = ":memory:" || l.access = .memory || l.driver = memoryDriver

end Location

end Lexiquery
