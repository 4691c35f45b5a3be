/-! The seven kinds of record of a lexical database, each stored in a table of its own. -/

namespace Lexiquery

inductive Kind
  | notion
  | word
  | group
  | frame
  | part
  | form
  | pronunciation
  deriving DecidableEq, Ord

namespace Kind

def all : List Kind :=
  [.notion, .word, .group, .frame, .part, .form, .pronunciation]

theorem mem_all (k : Kind) : k ∈ all := by
  cases k <;> simp [all]

def name : Kind → String
  | notion => "notion"
  | word => "word"
  | group => "group"
  | frame => "frame"
  | part => "part"
  | form => "form"
  | pronunciation => "pronunciation"

def ofName? (s : String) : Option Kind :=
  all.find? (·.name == s)

def table : Kind → String
  | notion => "notions"
  | word => "words"
  | group => "groups"
  | frame => "frames"
  | part => "parts"
  | form => "forms"
  | pronunciation => "pronunciations"

def primaryKey : Kind → String
  | notion => "notion_id"
  | word => "word_id"
  | group => "group_id"
  | frame => "frame_id"
  | part => "part_id"
  | form => "form_id"
  | pronunciation => "pronunciation_id"

def columns : Kind → List String
  | notion => ["notion_id", "part_of_speech", "wnid", "images"]
  | word => ["word_id", "notion_id", "lemma_id", "tag_count", "position", "group_id"]
  | group => ["group_id", "data"]
  | frame => ["frame_id", "group_id", "data"]
  | part => ["part_id", "frame_id", "part_index", "part_type", "role", "value"]
  | form => ["form_id", "form", "complexity", "proper", "length"]
  | pronunciation =>
    ["pronunciation_id", "phonemes", "prerhyme", "rhyme", "syllables", "stress"]

theorem columns_head? (k : Kind) : k.columns.head? = some k.primaryKey := by
  cases k <;> rfl

theorem name_injective {k l : Kind} (h : k.name = l.name) : k = l := by
  revert h; cases k <;> cases l <;> decide

end Kind

end Lexiquery
