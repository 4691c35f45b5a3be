/-! SHA-256 of a byte string. -/

namespace Lexiquery.Sha256

abbrev Word := UInt32

structure State where
  a : Word
  b : Word
  c : Word
  d : Word
  e : Word
  f : Word
  g : Word
  h : Word
  deriving DecidableEq

def State.initial : State where
  a := 0x6a09e667
  b := 0xbb67ae85
  c := 0x3c6ef372
  d := 0xa54ff53a
  e := 0x510e527f
  f := 0x9b05688c
  g := 0x1f83d9ab
  h := 0x5be0cd19

def State.add (s t : State) : State :=
  ⟨s.a + t.a, s.b + t.b, s.c + t.c, s.d + t.d, s.e + t.e, s.f + t.f, s.g + t.g, s.h + t.h⟩

def State.words (s : State) : List Word :=
  [s.a, s.b, s.c, s.d, s.e, s.f, s.g, s.h]

def constants : List Word :=
  [0x428a2f98, 0x71374491, 0xb5c0fbcf, 0xe9b5dba5, 0x3956c25b, 0x59f111f1, 0x923f82a4, 0xab1c5ed5,
    0xd807aa98, 0x12835b01, 0x243185be, 0x550c7dc3, 0x72be5d74, 0x80deb1fe, 0x9bdc06a7, 0xc19bf174,
    0xe49b69c1, 0xefbe4786, 0x0fc19dc6, 0x240ca1cc, 0x2de92c6f, 0x4a7484aa, 0x5cb0a9dc, 0x76f988da,
    0x983e5152, 0xa831c66d, 0xb00327c8, 0xbf597fc7, 0xc6e00bf3, 0xd5a79147, 0x06ca6351, 0x14292967,
    0x27b70a85, 0x2e1b2138, 0x4d2c6dfc, 0x53380d13, 0x650a7354, 0x766a0abb, 0x81c2c92e, 0x92722c85,
    0xa2bfe8a1, 0xa81a664b, 0xc24b8b70, 0xc76c51a3, 0xd192e819, 0xd6990624, 0xf40e3585, 0x106aa070,
    0x19a4c116, 0x1e376c08, 0x2748774c, 0x34b0bcb5, 0x391c0cb3, 0x4ed8aa4a, 0x5b9cca4f, 0x682e6ff3,
    0x748f82ee, 0x78a5636f, 0x84c87814, 0x8cc70208, 0x90befffa, 0xa4506ceb, 0xbef9a3f7, 0xc67178f2]

def rotr (w : Word) (n : Word) : Word :=
  (w >>> n) ||| (w <<< (32 - n))

def bigSigma0 (w : Word) : Word := rotr w 2 ^^^ rotr w 13 ^^^ rotr w 22

def bigSigma1 (w : Word) : Word := rotr w 6 ^^^ rotr w 11 ^^^ rotr w 25

def smallSigma0 (w : Word) : Word := rotr w 7 ^^^ rotr w 18 ^^^ (w >>> 3)

def smallSigma1 (w : Word) : Word := rotr w 17 ^^^ rotr w 19 ^^^ (w >>> 10)

def choose (e f g : Word) : Word := (e &&& f) ^^^ (~~~e &&& g)

def majority (a b c : Word) : Word := (a &&& b) ^^^ (a &&& c) ^^^ (b &&& c)

def State.round (s : State) (k w : Word) : State :=
  let t₁ := s.h + bigSigma1 s.e + choose s.e s.f s.g + k + w
  let t₂ := bigSigma0 s.a + majority s.a s.b s.c
  ⟨t₁ + t₂, s.a, s.b, s.c, s.d + t₁, s.e, s.f, s.g⟩

abbrev Window := Vector Word 16

def Window.advance (w : Window) : Window :=
  w.tail.push (smallSigma1 w[14] + w[9] + smallSigma0 w[1] + w[0])

def compressBlock (s : State) (block : Window) : State :=
  let step := fun (t : State × Window) k => (t.1.round k t.2[0], t.2.advance)
  s.add (constants.foldl step (s, block)).1

def beWord : List UInt8 → Word
  | [a, b, c, d] =>
    (a.toUInt32 <<< 24) ||| (b.toUInt32 <<< 16) ||| (c.toUInt32 <<< 8) ||| d.toUInt32
  | _ => 0

def beBytes : Nat → Nat → List UInt8
  | 0, _ => []
  | n + 1, v => beBytes n (v / 256) ++ [UInt8.ofNat v]

/-- The message, a set bit, zeros up to eight bytes below a multiple of 64, and the message's length
in bits. -/
def pad (message : List UInt8) : List UInt8 :=
  let n := message.length
  message ++ 0x80 :: List.replicate ((119 - n % 64) % 64) 0 ++ beBytes 8 (8 * n)

def blockAt (bytes : List UInt8) : Window :=
  Vector.ofFn fun i => beWord ((bytes.drop (4 * i.val)).take 4)

def blocks : Nat → List UInt8 → List Window
  | 0, _ => []
  | n + 1, bytes => blockAt (bytes.take 64) :: blocks n (bytes.drop 64)

def digest (message : List UInt8) : List UInt8 :=
  let padded := pad message
  let final := (blocks (padded.length / 64) padded).foldl compressBlock .initial
  final.words.flatMap fun w => beBytes 4 w.toNat

theorem length_beBytes (n v : Nat) : (beBytes n v).length = n := by
  induction n generalizing v with
  | zero => rfl
  | succ n ih => simp [beBytes, ih]

theorem beBytes_inj {n v w : Nat} (hv : v < Nat.pow 256 n) (hw : w < Nat.pow 256 n) :
    beBytes n v = beBytes n w ↔ v = w := by
  refine ⟨fun h => ?_, congrArg _⟩
  induction n generalizing v w with
  | zero => exact (Nat.lt_one_iff.1 hv).trans (Nat.lt_one_iff.1 hw).symm
  | succ n ih =>
    obtain ⟨high, low⟩ := List.append_inj' h rfl
    have fits {m : Nat} (hm : m < Nat.pow 256 n * 256) : m / 256 < Nat.pow 256 n :=
      Nat.div_lt_of_lt_mul (by rwa [Nat.mul_comm])
    have hdiv : v / 256 = w / 256 := ih (fits hv) (fits hw) high
    have hmod : v % 256 = w % 256 := by
      simpa using congrArg UInt8.toNat (List.singleton_inj.1 low)
    rw [← Nat.div_add_mod v 256, hdiv, hmod, Nat.div_add_mod]

theorem length_digest (message : List UInt8) : (digest message).length = 32 := by
  simp [digest, State.words, length_beBytes]

theorem length_pad_mod (message : List UInt8) : (pad message).length % 64 = 0 := by
  simp [pad, length_beBytes]
  omega

end Lexiquery.Sha256
