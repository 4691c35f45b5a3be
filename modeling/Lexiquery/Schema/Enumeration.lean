/-! Columns that store one of a few names as an integer. -/

namespace Lexiquery

structure UnknownDiscriminant where
  label : String
  value : Int64
  deriving DecidableEq

def UnknownDiscriminant.message (e : UnknownDiscriminant) : String :=
  s!"unknown {e.label} discriminant {e.value}"

/-- A type whose values are stored as their position in `all`. -/
class Enumeration (α : Type) where
  label : String
  all : List α
  index : α → Nat
  name : α → String

namespace Enumeration

variable {α : Type} [Enumeration α]

def code (a : α) : Int64 := Int64.ofNat (index a)

def ofName? (s : String) : Option α :=
  (all (α := α)).find? (name · == s)

def ofCode (n : Int64) : Except UnknownDiscriminant α :=
  match (all (α := α)).find? (code · == n) with
  | some a => .ok a
  | none => .error ⟨label α, n⟩

end Enumeration

inductive PartOfSpeech
  | noun
  | adjective
  | adverb
  | verb
  deriving DecidableEq

inductive Inflection
  | base
  | plural
  | comparative
  | superlative
  | pastTense
  | pastParticiple
  | ingForm
  | sForm
  deriving DecidableEq

inductive PartType
  | nounPhrase
  | verb
  | preposition
  | adjective
  | adverb
  | literal
  deriving DecidableEq

instance : Enumeration PartOfSpeech where
  label := "part of speech"
  all := [.noun, .adjective, .adverb, .verb]
  index := PartOfSpeech.ctorIdx
  name
    | .noun => "noun"
    | .adjective => "adjective"
    | .adverb => "adverb"
    | .verb => "verb"

instance : Enumeration Inflection where
  label := "inflection"
  all := [.base, .plural, .comparative, .superlative, .pastTense, .pastParticiple, .ingForm,
    .sForm]
  index := Inflection.ctorIdx
  name
    | .base => "base"
    | .plural => "plural"
    | .comparative => "comparative"
    | .superlative => "superlative"
    | .pastTense => "past_tense"
    | .pastParticiple => "past_participle"
    | .ingForm => "ing_form"
    | .sForm => "s_form"

instance : Enumeration PartType where
  label := "part type"
  all := [.nounPhrase, .verb, .preposition, .adjective, .adverb, .literal]
  index := PartType.ctorIdx
  name
    | .nounPhrase => "noun_phrase"
    | .verb => "verb"
    | .preposition => "preposition"
    | .adjective => "adjective"
    | .adverb => "adverb"
    | .literal => "literal"

@[simp] theorem PartOfSpeech.ofCode_code (p : PartOfSpeech) :
    Enumeration.ofCode (Enumeration.code p) = .ok p := by
  cases p <;> rfl

@[simp] theorem Inflection.ofCode_code (i : Inflection) :
    Enumeration.ofCode (Enumeration.code i) = .ok i := by
  cases i <;> rfl

@[simp] theorem PartType.ofCode_code (t : PartType) :
    Enumeration.ofCode (Enumeration.code t) = .ok t := by
  cases t <;> rfl

end Lexiquery
