import Lexiquery.Field
import Lexiquery.Schema.Enumeration

/-! The fields of each kind. -/

namespace Lexiquery.Schema

namespace Notion

def related (table joinColumn foreignJoinColumn : String) : Relationship :=
  ⟨.notion, "notion_id", .self table joinColumn foreignJoinColumn false⟩

def full (table joinColumn foreignJoinColumn : String) : Relationship :=
  ⟨.notion, "notion_id", .self table joinColumn foreignJoinColumn true⟩

def id : Field := .integer .notion "notion_id"
def partOfSpeech : Field := .integer .notion "part_of_speech"
def wnid : Field := .nullableInteger .notion "wnid"
def numOfImages : Field := .nullableInteger .notion "images"

def words : Relationship := ⟨.notion, "notion_id", .key .word false⟩

def hypernyms := related "hypernymy" "hyponym_id" "hypernym_id"
def hyponyms := related "hypernymy" "hypernym_id" "hyponym_id"
def fullHypernyms := full "hypernymy" "hyponym_id" "hypernym_id"
def fullHyponyms := full "hypernymy" "hypernym_id" "hyponym_id"

def classes := related "instantiation" "instance_id" "class_id"
def instances := related "instantiation" "class_id" "instance_id"

def memberMeronyms := related "member_meronymy" "holonym_id" "meronym_id"
def memberHolonyms := related "member_meronymy" "meronym_id" "holonym_id"
def fullMemberMeronyms := full "member_meronymy" "holonym_id" "meronym_id"
def fullMemberHolonyms := full "member_meronymy" "meronym_id" "holonym_id"

def partMeronyms := related "part_meronymy" "holonym_id" "meronym_id"
def partHolonyms := related "part_meronymy" "meronym_id" "holonym_id"
def fullPartMeronyms := full "part_meronymy" "holonym_id" "meronym_id"
def fullPartHolonyms := full "part_meronymy" "meronym_id" "holonym_id"

def substanceMeronyms := related "substance_meronymy" "holonym_id" "meronym_id"
def substanceHolonyms := related "substance_meronymy" "meronym_id" "holonym_id"
def fullSubstanceMeronyms := full "substance_meronymy" "holonym_id" "meronym_id"
def fullSubstanceHolonyms := full "substance_meronymy" "meronym_id" "holonym_id"

def entailments := related "entailment" "given_id" "entailment_id"
def entailedBy := related "entailment" "entailment_id" "given_id"
def causes := related "causality" "effect_id" "cause_id"
def effects := related "causality" "cause_id" "effect_id"

def similarAdjectives := related "similarity" "adjective_1_id" "adjective_2_id"

end Notion

namespace Word

def id : Field := .integer .word "word_id"
def lemmaId : Field := .integer .word "lemma_id"
def tagCount : Field := .nullableInteger .word "tag_count"
def adjectivePosition : Field := .nullableInteger .word "position"

def notions : Relationship := ⟨.word, "notion_id", .key .notion false⟩
def groups : Relationship := ⟨.word, "group_id", .key .group true⟩

def forms (i : Inflection) : Relationship :=
  ⟨.word, "lemma_id",
    .through .form "lemmas_forms" "form_id" (some ⟨"category", Enumeration.code i⟩)⟩

def synonyms : Relationship := ⟨.word, "word_id", .self "synonymy" "word_1_id" "word_2_id" false⟩

def antonyms : Relationship :=
  ⟨.word, "word_id", .self "antonymy" "antonym_1_id" "antonym_2_id" false⟩

def pertainyms : Relationship :=
  ⟨.word, "word_id", .self "pertainymy" "noun_id" "pertainym_id" false⟩

def antiPertainyms : Relationship :=
  ⟨.word, "word_id", .self "pertainymy" "pertainym_id" "noun_id" false⟩

end Word

namespace Group

def id : Field := .integer .group "group_id"
def data : Field := .string .group "data"
def words : Relationship := ⟨.group, "group_id", .key .word false⟩
def frames : Relationship := ⟨.group, "group_id", .key .frame false⟩

end Group

namespace Frame

def id : Field := .integer .frame "frame_id"
def data : Field := .string .frame "data"
def groups : Relationship := ⟨.frame, "group_id", .key .group false⟩
def parts : Relationship := ⟨.frame, "frame_id", .key .part false⟩

def partAt (index : Int64) : Relationship :=
  ⟨.frame, "frame_id", .keyWhere .part ⟨"part_index", index⟩⟩

end Frame

namespace Part

def id : Field := .integer .part "part_id"
def index : Field := .integer .part "part_index"
def type : Field := .integer .part "part_type"
def role : Field := .nullableString .part "role"
def value : Field := .nullableString .part "value"
def frames : Relationship := ⟨.part, "frame_id", .key .frame false⟩

end Part

namespace Form

def id : Field := .integer .form "form_id"
def text : Field := .string .form "form"
def complexity : Field := .integer .form "complexity"
def proper : Field := .boolean .form "proper"
def length : Field := .integer .form "length"

def pronunciations : Relationship :=
  ⟨.form, "form_id", .through .pronunciation "forms_pronunciations" "pronunciation_id" none⟩

def words (i : Inflection) : Relationship :=
  ⟨.form, "form_id",
    .through .word "lemmas_forms" "lemma_id" (some ⟨"category", Enumeration.code i⟩)⟩

end Form

namespace Pronunciation

def id : Field := .integer .pronunciation "pronunciation_id"
def phonemes : Field := .string .pronunciation "phonemes"
def prerhyme : Field := .nullableString .pronunciation "prerhyme"
def rhyme : Field := .nullableString .pronunciation "rhyme"
def numOfSyllables : Field := .integer .pronunciation "syllables"
def stress : Field := .string .pronunciation "stress"

def forms : Relationship :=
  ⟨.pronunciation, "pronunciation_id", .through .form "forms_pronunciations" "form_id" none⟩

end Pronunciation

def idField : Kind → Field
  | .notion => Notion.id
  | .word => Word.id
  | .group => Group.id
  | .frame => Frame.id
  | .part => Part.id
  | .form => Form.id
  | .pronunciation => Pronunciation.id

theorem idField_eq (k : Kind) : idField k = .integer k k.primaryKey := by
  cases k <;> rfl

def catalogue : List (String × Field) :=
  [("notion.ID", Notion.id),
    ("notion.PART_OF_SPEECH", Notion.partOfSpeech),
    ("notion.WNID", Notion.wnid),
    ("notion.NUM_OF_IMAGES", Notion.numOfImages),
    ("notion.WORDS", Notion.words.field),
    ("notion.HYPERNYMS", Notion.hypernyms.field),
    ("notion.HYPONYMS", Notion.hyponyms.field),
    ("notion.FULL_HYPERNYMS", Notion.fullHypernyms.field),
    ("notion.FULL_HYPONYMS", Notion.fullHyponyms.field),
    ("notion.CLASSES", Notion.classes.field),
    ("notion.INSTANCES", Notion.instances.field),
    ("notion.MEMBER_MERONYMS", Notion.memberMeronyms.field),
    ("notion.MEMBER_HOLONYMS", Notion.memberHolonyms.field),
    ("notion.FULL_MEMBER_MERONYMS", Notion.fullMemberMeronyms.field),
    ("notion.FULL_MEMBER_HOLONYMS", Notion.fullMemberHolonyms.field),
    ("notion.PART_MERONYMS", Notion.partMeronyms.field),
    ("notion.PART_HOLONYMS", Notion.partHolonyms.field),
    ("notion.FULL_PART_MERONYMS", Notion.fullPartMeronyms.field),
    ("notion.FULL_PART_HOLONYMS", Notion.fullPartHolonyms.field),
    ("notion.SUBSTANCE_MERONYMS", Notion.substanceMeronyms.field),
    ("notion.SUBSTANCE_HOLONYMS", Notion.substanceHolonyms.field),
    ("notion.FULL_SUBSTANCE_MERONYMS", Notion.fullSubstanceMeronyms.field),
    ("notion.FULL_SUBSTANCE_HOLONYMS", Notion.fullSubstanceHolonyms.field),
    ("notion.ENTAILMENTS", Notion.entailments.field),
    ("notion.ENTAILED_BY", Notion.entailedBy.field),
    ("notion.CAUSES", Notion.causes.field),
    ("notion.EFFECTS", Notion.effects.field),
    ("notion.SIMILAR_ADJECTIVES", Notion.similarAdjectives.field),
    ("word.ID", Word.id),
    ("word.LEMMA_ID", Word.lemmaId),
    ("word.TAG_COUNT", Word.tagCount),
    ("word.ADJECTIVE_POSITION", Word.adjectivePosition),
    ("word.NOTIONS", Word.notions.field),
    ("word.GROUPS", Word.groups.field),
    ("word.SYNONYMS", Word.synonyms.field),
    ("word.ANTONYMS", Word.antonyms.field),
    ("word.PERTAINYMS", Word.pertainyms.field),
    ("word.ANTI_PERTAINYMS", Word.antiPertainyms.field),
    ("group.ID", Group.id),
    ("group.DATA", Group.data),
    ("group.WORDS", Group.words.field),
    ("group.FRAMES", Group.frames.field),
    ("frame.ID", Frame.id),
    ("frame.DATA", Frame.data),
    ("frame.GROUPS", Frame.groups.field),
    ("frame.PARTS", Frame.parts.field),
    ("part.ID", Part.id),
    ("part.INDEX", Part.index),
    ("part.TYPE", Part.type),
    ("part.ROLE", Part.role),
    ("part.VALUE", Part.value),
    ("part.FRAMES", Part.frames.field),
    ("form.ID", Form.id),
    ("form.TEXT", Form.text),
    ("form.COMPLEXITY", Form.complexity),
    ("form.PROPER", Form.proper),
    ("form.LENGTH", Form.length),
    ("form.PRONUNCIATIONS", Form.pronunciations.field),
    ("pronunciation.ID", Pronunciation.id),
    ("pronunciation.PHONEMES", Pronunciation.phonemes),
    ("pronunciation.PRERHYME", Pronunciation.prerhyme),
    ("pronunciation.RHYME", Pronunciation.rhyme),
    ("pronunciation.NUM_OF_SYLLABLES", Pronunciation.numOfSyllables),
    ("pronunciation.STRESS", Pronunciation.stress),
    ("pronunciation.FORMS", Pronunciation.forms.field)]

/-- The fields of the schema: those of the catalogue and the three families. -/
inductive Declares : Field → Prop
  | constant {name : String} {f : Field} : (name, f) ∈ catalogue → Declares f
  | forms (i : Inflection) : Declares (Word.forms i).field
  | words (i : Inflection) : Declares (Form.words i).field
  | partAt (index : Int64) : Declares (Frame.partAt index).field

end Lexiquery.Schema
