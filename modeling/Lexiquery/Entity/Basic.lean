import Lexiquery.Filter.Build
import Lexiquery.Store.Basic

/-! The typed records of each kind, read from rows. -/

namespace Lexiquery

/-- A set of synonyms: a concept shared by the words listed under it. -/
structure Notion where
  id : Int64
  partOfSpeech : PartOfSpeech
  wnid : Option Int64
  numOfImages : Option Int64
  deriving DecidableEq

/-- One sense of a lemma. -/
structure Word where
  id : Int64
  notionId : Int64
  lemmaId : Int64
  tagCount : Option Int64
  adjectivePosition : Option Int64
  groupId : Option Int64
  deriving DecidableEq

structure Group where
  id : Int64
  data : String
  deriving DecidableEq

structure Frame where
  id : Int64
  groupId : Int64
  data : String
  deriving DecidableEq

structure Part where
  id : Int64
  frameId : Int64
  index : Int64
  type : PartType
  role : Option String
  value : Option String
  deriving DecidableEq

structure Form where
  id : Int64
  text : String
  complexity : Int64
  proper : Bool
  length : Int64
  deriving DecidableEq

/-- A transcription. The rhyme runs from the last stressed vowel on; the prerhyme is the consonants
before it. -/
structure Pronunciation where
  id : Int64
  phonemes : String
  prerhyme : Option String
  rhyme : Option String
  numOfSyllables : Int64
  stress : String
  deriving DecidableEq

inductive Entity
  | notion (notion : Notion)
  | word (word : Word)
  | group (group : Group)
  | frame (frame : Frame)
  | part (part : Part)
  | form (form : Form)
  | pronunciation (pronunciation : Pronunciation)
  deriving DecidableEq

inductive DecodeError
  | invalidType (kind : Kind) (index : Nat) (found : StorageClass)
  | garbled (kind : Kind) (index : Nat) (fault : Utf8.Fault)
  | unknown (error : UnknownDiscriminant)
  deriving DecidableEq

def DecodeError.message : DecodeError → String
  | invalidType k i found =>
    let column := k.columns.getD i "?"
    s!"cannot decode {k.name}.{column}: Invalid column type {found.name} at index: {i}, " ++
      s!"name: {column}"
  | garbled k i fault =>
    let column := k.columns.getD i "?"
    s!"cannot decode {k.name}.{column}: Conversion error from type Text at index: {i}, " ++
      fault.message
  | unknown e => e.message

structure Cells where
  kind : Kind
  row : Row

namespace Cells

def value (c : Cells) (i : Nat) : Value :=
  (c.row[i]?.map (·.2)).getD .null

def refuse (c : Cells) (i : Nat) : Except DecodeError α :=
  .error (.invalidType c.kind i (c.value i).storageClass)

def integer (c : Cells) (i : Nat) : Except DecodeError Int64 :=
  match c.value i with
  | .integer n => .ok n
  | _ => c.refuse i

def text (c : Cells) (i : Nat) : Except DecodeError String :=
  match c.value i with
  | .text s => .ok s
  | .garbled g => .error (.garbled c.kind i g.fault)
  | _ => c.refuse i

def integerOrNull (c : Cells) (i : Nat) : Except DecodeError (Option Int64) :=
  if (c.value i).isNull then .ok none else some <$> c.integer i

def textOrNull (c : Cells) (i : Nat) : Except DecodeError (Option String) :=
  if (c.value i).isNull then .ok none else some <$> c.text i

def bool (c : Cells) (i : Nat) : Except DecodeError Bool :=
  (· != 0) <$> c.integer i

def code {α : Type} [Enumeration α] (c : Cells) (i : Nat) : Except DecodeError α := do
  let n ← c.integer i
  (Enumeration.ofCode n).mapError .unknown

end Cells

namespace Entity

def kind : Entity → Kind
  | notion _ => .notion
  | word _ => .word
  | group _ => .group
  | frame _ => .frame
  | part _ => .part
  | form _ => .form
  | pronunciation _ => .pronunciation

def id : Entity → Int64
  | notion n => n.id
  | word w => w.id
  | group g => g.id
  | frame f => f.id
  | part p => p.id
  | form f => f.id
  | pronunciation p => p.id

def decode (k : Kind) (row : Row) : Except DecodeError Entity :=
  let c : Cells := ⟨k, row⟩
  match k with
  | .notion =>
    return notion ⟨← c.integer 0, ← c.code 1, ← c.integerOrNull 2, ← c.integerOrNull 3⟩
  | .word =>
    return word ⟨← c.integer 0, ← c.integer 1, ← c.integer 2, ← c.integerOrNull 3,
      ← c.integerOrNull 4, ← c.integerOrNull 5⟩
  | .group => return group ⟨← c.integer 0, ← c.text 1⟩
  | .frame => return frame ⟨← c.integer 0, ← c.integer 1, ← c.text 2⟩
  | .part =>
    return part ⟨← c.integer 0, ← c.integer 1, ← c.integer 2, ← c.code 3, ← c.textOrNull 4,
      ← c.textOrNull 5⟩
  | .form => return form ⟨← c.integer 0, ← c.text 1, ← c.integer 2, ← c.bool 3, ← c.integer 4⟩
  | .pronunciation =>
    return pronunciation ⟨← c.integer 0, ← c.text 1, ← c.textOrNull 2, ← c.textOrNull 3,
      ← c.integer 4, ← c.text 5⟩

def identityFilter (e : Entity) : Filter :=
  .idEquals e.kind e.id

end Entity

end Lexiquery
