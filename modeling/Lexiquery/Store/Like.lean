/-! Patterns: `%` stands for any run of characters and `_` for one; letters match regardless of case
within ASCII. Texts are read byte by byte, and any bytes will do. -/

namespace Lexiquery.Like

/-- A code in four bytes. What can be no character, or none that is sent alone, is replaced. -/
def sound (code : Nat) : Nat :=
  let code := code % UInt32.size
  if code < 0x80 || code / 0x800 = 0xd800 / 0x800 || code / 2 = 0xfffe / 2 then 0xfffd else code

def leading (first : Nat) : Nat :=
  if first < 0xe0 then first % 32
  else if first < 0xf0 then first % 16
  else if first < 0xf8 then first % 8
  else if first < 0xfc then first % 4
  else if first < 0xfe then first % 2
  else 0

/-- Reads a byte before others: those of them that add to a character which nothing has begun yet,
and the codes behind them. -/
def read (b : UInt8) : List UInt8 × List Nat → List UInt8 × List Nat
  | (tail, codes) =>
    let first := b.toNat
    if first < 0x80 then ([], first :: (tail.map (·.toNat) ++ codes))
    else if first < 0xc0 then (b :: tail, codes)
    else
      let code := tail.foldl (fun code b => 64 * code + b.toNat % 64) (leading first)
      ([], sound code :: codes)

/-- The codes of the characters that bytes spell; a byte that adds to none stands for itself. -/
def codes (bs : List UInt8) : List Nat :=
  let (tail, codes) := bs.foldr read ([], [])
  tail.map (·.toNat) ++ codes

def fold (code : Nat) : Nat :=
  if 'A'.toNat ≤ code ∧ code ≤ 'Z'.toNat then code + 32 else code

def standsFor (p code : Nat) : Bool := p = '_'.toNat || fold p == fold code

def anyFrom : List Bool → List Bool
  | [] => []
  | b :: bs =>
    let later := anyFrom bs
    (b || later.head?.getD false) :: later

/-- For a text and all that is left of it by dropping characters from its front, down to nothing,
whether a pattern accepts it. -/
def verdicts : List Nat → List Nat → List Bool
  | [], s => s.map (fun _ => false) ++ [true]
  | p :: ps, s =>
    let rest := verdicts ps s
    if p = '%'.toNat then anyFrom rest
    else List.zipWith (fun code ok => standsFor p code && ok) s rest.tail ++ [false]

def accepts (pattern text : List Nat) : Bool := (verdicts pattern text).head?.getD false

def visible (bs : List UInt8) : List Nat := (codes bs).takeWhile (· ≠ 0)

def holds (pattern text : List UInt8) : Bool := accepts (visible pattern) (visible text)

end Lexiquery.Like
