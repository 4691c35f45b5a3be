import Lexiquery.Kind
import Lexiquery.Store.Value

/-! Tables of rows, and the tables of a lexical database. -/

namespace Lexiquery

/-- Whether two names are the same: of the letters of ASCII the case does not count. -/
def sameName (s t : String) : Bool := s == t || s.toLower == t.toLower

/-- A row by column; a column it does not list is null. -/
abbrev Row := List (String × Value)

def Row.get (r : Row) (column : String) : Value :=
  ((r.find? fun (name, _) => sameName name column).map (·.2)).getD .null

structure Column where
  name : String
  affinity : Affinity
  deriving DecidableEq

structure Table where
  columns : List Column
  rows : List Row
  deriving DecidableEq

namespace Table

def column? (t : Table) (name : String) : Option Column :=
  t.columns.find? (sameName ·.name name)

def affinity? (t : Table) (column : String) : Option Affinity :=
  (t.column? column).map (·.affinity)

def insert (t : Table) (values : List Value) : Table :=
  { t with rows := t.rows ++ [t.columns.zipWith (fun c v => (c.name, c.affinity.apply v)) values] }

def erase (t : Table) (column : String) (v : Value) : Table :=
  let v := ((t.affinity? column).getD .integer).apply v
  { t with rows := t.rows.filter fun r => v.isNull || (r.get column).order v != .eq }

end Table

structure Store where
  tables : List (String × Table)
  /-- Whether it is a store at all. Any file can be opened; statements fail on what is none. -/
  isValid : Bool := true
  deriving DecidableEq

namespace Store

def table? (s : Store) (name : String) : Option Table :=
  (s.tables.find? fun (n, _) => sameName n name).map (·.2)

def modify (s : Store) (name : String) (f : Table → Table) : Store :=
  { s with tables := s.tables.map fun (n, t) => (n, if sameName n name then f t else t) }

def insert (s : Store) (name : String) (values : List Value) : Store :=
  s.modify name (·.insert values)

def insertAll (s : Store) (name : String) (rows : List (List Value)) : Store :=
  rows.foldl (·.insert name ·) s

def erase (s : Store) (name column : String) (v : Value) : Store :=
  s.modify name (·.erase column v)

def size (s : Store) (name : String) : Nat :=
  ((s.table? name).map (·.rows.length)).getD 0

def drop (s : Store) (name : String) : Store :=
  { s with tables := s.tables.filter (!sameName ·.1 name) }

def integerColumns (names : List String) : List Column :=
  names.map (⟨·, .integer⟩)

def schema : List (String × List Column) :=
  [("notions", integerColumns Kind.notion.columns),
    ("words", integerColumns Kind.word.columns),
    ("groups", [⟨"group_id", .integer⟩, ⟨"data", .text⟩]),
    ("frames", [⟨"frame_id", .integer⟩, ⟨"group_id", .integer⟩, ⟨"data", .text⟩]),
    ("parts", integerColumns ["part_id", "frame_id", "part_index", "part_type"] ++
      [⟨"role", .text⟩, ⟨"value", .text⟩]),
    ("forms", [⟨"form_id", .integer⟩, ⟨"form", .text⟩, ⟨"complexity", .integer⟩,
      ⟨"proper", .integer⟩, ⟨"length", .integer⟩]),
    ("pronunciations", [⟨"pronunciation_id", .integer⟩, ⟨"phonemes", .text⟩, ⟨"prerhyme", .text⟩,
      ⟨"rhyme", .text⟩, ⟨"syllables", .integer⟩, ⟨"stress", .text⟩]),
    ("lemmas_forms", integerColumns ["lemma_id", "form_id", "category"]),
    ("forms_pronunciations", integerColumns ["form_id", "pronunciation_id"]),
    ("synonymy", integerColumns ["word_1_id", "word_2_id"]),
    ("antonymy", integerColumns ["antonym_1_id", "antonym_2_id"]),
    ("pertainymy", integerColumns ["noun_id", "pertainym_id"]),
    ("hypernymy", integerColumns ["hyponym_id", "hypernym_id"]),
    ("instantiation", integerColumns ["class_id", "instance_id"]),
    ("member_meronymy", integerColumns ["holonym_id", "meronym_id"]),
    ("part_meronymy", integerColumns ["holonym_id", "meronym_id"]),
    ("substance_meronymy", integerColumns ["holonym_id", "meronym_id"]),
    ("entailment", integerColumns ["given_id", "entailment_id"]),
    ("causality", integerColumns ["effect_id", "cause_id"]),
    ("similarity", integerColumns ["adjective_1_id", "adjective_2_id"])]

def empty : Store where
  tables := schema.map fun (name, columns) => (name, ⟨columns, []⟩)

end Store

end Lexiquery
