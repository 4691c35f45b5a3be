/-! Texts as bytes in UTF-8, and bytes read as a text whatever they are: what is no character of it
stands as one replacement character. -/

namespace Lexiquery.Utf8

def encode (s : String) : List UInt8 := s.toUTF8.data.toList

@[simp] theorem encode_inj {s t : String} : encode s = encode t ↔ s = t :=
  ⟨fun h => String.toByteArray_inj.1 (ByteArray.ext (Array.toList_inj.1 h)), congrArg encode⟩

theorem length_encode (s : String) : (encode s).length = s.utf8ByteSize := rfl

def replacement : Char := '\ufffd'

/-- The ranges that the bytes after a first byte are in. Those right after it are narrower where
others would spell a shorter character, a surrogate or no character at all. -/
def continuations (first : Nat) : List (Nat × Nat) :=
  let any := (0x80, 0xbf)
  if first < 0xc2 then []
  else if first < 0xe0 then [any]
  else if first = 0xe0 then [(0xa0, 0xbf), any]
  else if first = 0xed then [(0x80, 0x9f), any]
  else if first < 0xf0 then [any, any]
  else if first = 0xf0 then [(0x90, 0xbf), any, any]
  else if first < 0xf4 then [any, any, any]
  else if first = 0xf4 then [(0x80, 0x8f), any, any]
  else []

def matching : List (Nat × Nat) → List UInt8 → Nat
  | (low, high) :: ranges, b :: bs =>
    if low ≤ b.toNat ∧ b.toNat ≤ high then matching ranges bs + 1 else 0
  | _, _ => 0

def spelled (first : Nat) (others : List UInt8) : Char :=
  let bits := match others.length with
    | 1 => first % 32
    | 2 => first % 16
    | _ => first % 8
  Char.ofNat (others.foldl (fun v b => 64 * v + b.toNat % 64) bits)

/-- A replacement stands for as many bytes as could begin a character. -/
def decode : List UInt8 → List Char
  | [] => []
  | b :: bs =>
    let first := b.toNat
    if first < 0x80 then Char.ofNat first :: decode bs
    else
      let ranges := continuations first
      let n := matching ranges bs
      let c := if ranges ≠ [] ∧ n = ranges.length then spelled first (bs.take n) else replacement
      c :: decode (bs.drop n)
termination_by bs => bs.length

def text (bs : List UInt8) : String := String.ofList (decode bs)

/-- Where bytes cease to be a text. With a size it is that many bytes that rule it out, and without
one that a character lacks its end. -/
structure Fault where
  place : Nat
  size : Option Nat
  deriving DecidableEq

def Fault.message : Fault → String
  | ⟨place, some size⟩ => s!"invalid utf-8 sequence of {size} bytes from index {place}"
  | ⟨place, none⟩ => s!"incomplete utf-8 byte sequence from index {place}"

/-- The first fault from a place on, where so many bytes belong to a character before it. -/
def faultFrom (place : Nat) : Nat → List UInt8 → Option Fault
  | _, [] => none
  | n + 1, _ :: bs => faultFrom (place + 1) n bs
  | 0, b :: bs =>
    if b.toNat < 0x80 then faultFrom (place + 1) 0 bs
    else
      let ranges := continuations b.toNat
      let n := matching ranges bs
      if ranges ≠ [] ∧ n = ranges.length then faultFrom (place + 1) n bs
      else some ⟨place, if ranges ≠ [] ∧ n = bs.length then none else some (n + 1)⟩

def fault? (bs : List UInt8) : Option Fault := faultFrom 0 0 bs

end Lexiquery.Utf8
