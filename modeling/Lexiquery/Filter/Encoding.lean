import Lexiquery.Filter.Basic
import Lexiquery.Digest.Sha256
import Lexiquery.Text.Utf8

/-! The byte encoding of a filter, and its digest as the filter's fingerprint. Every part either has
a fixed width or carries its length, so no encoding extends another. -/

namespace Lexiquery

open Sha256 (beBytes)

namespace Encoding

/-- A length in four bytes. One that does not fit them is written as the greatest that does. -/
def nat32 (n : Nat) : List UInt8 := beBytes 4 (min n (UInt32.size - 1))

def int64 (n : Int64) : List UInt8 := beBytes 8 n.toUInt64.toNat

def string (s : String) : List UInt8 := nat32 s.utf8ByteSize ++ Utf8.encode s

def option (encode : α → List UInt8) : Option α → List UInt8
  | none => [0x00]
  | some a => 0x01 :: encode a

def kind (k : Kind) : List UInt8 := string k.name

def identity (i : Field.Identity) : List UInt8 :=
  i.flavour :: (kind i.kind ++ string i.column ++ option kind i.far ++ option string i.table ++
    option string i.joinColumn ++ option string i.fixedColumn ++ option int64 i.fixedValue)

def field (f : Field) : List UInt8 := identity f.identity

def operand : Test → List UInt8
  | .null _ => [0x30]
  | .integer _ n => 0x31 :: int64 n
  | .boolean b => [0x32, if b then 1 else 0]
  | .string _ s => 0x33 :: string s

def connective : Connective → UInt8
  | .and => 0x22
  | .or => 0x23

mutual

def filter : Filter → List UInt8
  | .empty => [0x20]
  | .test f t => 0x21 :: (field f ++ t.comparison.tag :: operand t)
  | .link r t condition =>
    0x21 :: (field r ++ (Comparison.link t).tag :: 0x34 :: filter condition)
  | .group c fs => connective c :: (nat32 fs.length ++ filters fs)

def filters : List Filter → List UInt8
  | [] => []
  | f :: fs => filter f ++ filters fs

end

def header : List UInt8 := Utf8.encode "filterfp:v1"

end Encoding

structure Fingerprint where
  bytes : List UInt8
  deriving DecidableEq

namespace Fingerprint

def hexDigits (b : UInt8) : List Char :=
  [Nat.digitChar (b.toNat / 16), Nat.digitChar (b.toNat % 16)]

def hex (p : Fingerprint) : String :=
  String.ofList (p.bytes.flatMap hexDigits)

def short (p : Fingerprint) : String :=
  String.ofList (p.bytes.flatMap hexDigits |>.take 8)

end Fingerprint

namespace Filter

def encoding (f : Filter) : List UInt8 :=
  Encoding.header ++ Encoding.filter f

def fingerprint (f : Filter) : Fingerprint :=
  ⟨Sha256.digest f.encoding⟩

end Filter

end Lexiquery
