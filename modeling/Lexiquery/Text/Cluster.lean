import Lexiquery.Text.Cluster.Classes
import Lexiquery.Text.Extending

/-! Clusters: what a reader takes for one character of a text, a letter with its marks, a Hangul
syllable, a conjunct of consonants, a flag or a pictograph that others are joined to. -/

namespace Lexiquery

namespace Cluster

def joiner : Char := '\u200d'

/-- Extends what is before it but keeps consonants from joining. -/
def nonJoiner : Char := '\u200c'

inductive Class
  | lineFeed
  | carriageReturn
  | control
  | extend
  | joiner
  | spacing
  | prepend
  | leading
  | vowel
  | trailing
  /-- A Hangul syllable that is open for a trailing consonant. -/
  | openSyllable
  | closedSyllable
  | regional
  | pictograph
  | consonant
  | other
  deriving DecidableEq

/-- Hangul syllables; the first of every 28 has no trailing consonant. -/
def isSyllable (n : Nat) : Bool := 0xac00 ≤ n && n ≤ 0xd7a3

def Class.of (c : Char) : Class :=
  let n := c.toNat
  if c = '\n' then lineFeed
  else if c = '\r' then carriageReturn
  else if 0x20 ≤ n && n < 0x7f then other
  else if c = Cluster.joiner then joiner
  else if isSyllable n then if (n - 0xac00) % 28 = 0 then openSyllable else closedSyllable
  else if 0x1f1e6 ≤ n && n ≤ 0x1f1ff then regional
  else if CharSet.extending.contains c || (0x1f3fb ≤ n && n ≤ 0x1f3ff) then extend
  else if controls.contains c then control
  else if spacingMarks.contains c then spacing
  else if prepended.contains c then prepend
  else if leadingConsonants.contains c then leading
  else if vowels.contains c then vowel
  else if trailingConsonants.contains c then trailing
  else if pictographs.contains c then pictograph
  else if conjunctConsonants.contains c then consonant
  else other

/-- Whether a reversed text ends in a consonant and signs after it of which one is a linker. -/
def endsLinked (linked : Bool) : List Char → Bool
  | [] => false
  | c :: before =>
    if conjunctLinkers.contains c then endsLinked true before
    else if c ≠ nonJoiner && (Class.of c = .extend || Class.of c = .joiner) then
      endsLinked linked before
    else linked && Class.of c = .consonant

def endsInPictograph : List Char → Bool
  | [] => false
  | c :: before =>
    match Class.of c with
    | .extend => endsInPictograph before
    | .pictograph => true
    | _ => false

def endsInHalfFlag (cluster : List Char) : Bool :=
  (cluster.takeWhile (Class.of · = .regional)).length % 2 = 1

def goesOn (cluster : List Char) (c : Char) : Bool :=
  match cluster with
  | [] => false
  | last :: before =>
    match Class.of last, Class.of c with
    | .carriageReturn, .lineFeed => true
    | .carriageReturn, _ | .lineFeed, _ | .control, _ => false
    | _, .carriageReturn | _, .lineFeed | _, .control => false
    | .leading, .leading | .leading, .vowel => true
    | .leading, .openSyllable | .leading, .closedSyllable => true
    | .openSyllable, .vowel | .openSyllable, .trailing | .vowel, .vowel | .vowel, .trailing => true
    | .closedSyllable, .trailing | .trailing, .trailing => true
    | _, .extend | _, .joiner | _, .spacing => true
    | .prepend, _ => true
    | _, .consonant => endsLinked false cluster
    | .joiner, .pictograph => endsInPictograph before
    | .regional, .regional => endsInHalfFlag cluster
    | _, _ => false

/-- The clusters of a text behind one that is reversed and not yet at its end. -/
def split (cluster : List Char) : List Char → List (List Char)
  | [] => [cluster.reverse]
  | c :: cs =>
    if goesOn cluster c then split (c :: cluster) cs else cluster.reverse :: split [c] cs

end Cluster

def clusters : List Char → List (List Char)
  | [] => []
  | c :: cs => Cluster.split [c] cs

theorem Cluster.flatten_split (cluster cs : List Char) :
    (split cluster cs).flatten = cluster.reverse ++ cs := by
  induction cs generalizing cluster with
  | nil => simp [split]
  | cons c cs ih => rw [split]; split <;> simp [ih]

theorem flatten_clusters (cs : List Char) : (clusters cs).flatten = cs := by
  cases cs <;> simp [clusters, Cluster.flatten_split]

end Lexiquery
