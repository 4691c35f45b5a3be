/-! White space as Unicode defines it, and the splitting of a line at it. -/

namespace Lexiquery

def isBlank (c : Char) : Bool :=
  let n := c.toNat
  (9 ≤ n && n ≤ 13) || n = 0x20 || n = 0x85 || n = 0xa0 || n = 0x1680 ||
    (0x2000 ≤ n && n ≤ 0x200a) || n = 0x2028 || n = 0x2029 || n = 0x202f || n = 0x205f || n = 0x3000

theorem isBlank_of_isWhitespace {c : Char} (h : c.isWhitespace) : isBlank c := by
  simp only [Char.isWhitespace, Bool.or_eq_true, decide_eq_true_eq] at h
  rcases h with ((h | h) | h) | h <;> subst h <;> decide

def trim (cs : List Char) : List Char :=
  ((cs.dropWhile isBlank).reverse.dropWhile isBlank).reverse

/-- What stands before the first blank of a text, and what stands behind that blank without the
blanks at its ends. -/
def splitHead (cs : List Char) : List Char × List Char :=
  (cs.takeWhile (!isBlank ·), trim (cs.dropWhile (!isBlank ·)))

end Lexiquery
