import Lexiquery.Entity.Basic

/-! Filters for the records that stand in a relation to a given one. -/

namespace Lexiquery

def Relationship.withRelated (r : Relationship) (id : Int64) : Filter :=
  .link r .hasSome (.idEquals r.far id)

namespace Notion

open Schema.Notion

def hypernymsFilter (n : Notion) : Filter := hyponyms.withRelated n.id

def hyponymsFilter (n : Notion) : Filter := hypernyms.withRelated n.id

def fullHypernymsFilter (n : Notion) : Filter :=
  .link fullHyponyms .reachesSome (.idEquals .notion n.id)

def fullHyponymsFilter (n : Notion) : Filter :=
  .link fullHypernyms .reachesSome (.idEquals .notion n.id)

def memberHolonymsFilter (n : Notion) : Filter := memberMeronyms.withRelated n.id

def partHolonymsFilter (n : Notion) : Filter := partMeronyms.withRelated n.id

def instancesFilter (n : Notion) : Filter := classes.withRelated n.id

end Notion

namespace Word

open Schema.Word

def synonymsFilter (w : Word) : Filter := synonyms.withRelated w.id

def antonymsFilter (w : Word) : Filter := antonyms.withRelated w.id

/-- The adjectives that pertain to this noun. -/
def pertainymsFilter (w : Word) : Filter := antiPertainyms.withRelated w.id

/-- The nouns that this adjective pertains to. -/
def antiPertainymsFilter (w : Word) : Filter := pertainyms.withRelated w.id

def hypernymsFilter (w : Word) : Filter := Schema.Notion.hyponyms.withRelated w.notionId

def hyponymsFilter (w : Word) : Filter := Schema.Notion.hypernyms.withRelated w.notionId

def notionMatesFilter (w : Word) : Filter :=
  Filter.idEquals .notion w.notionId &&& .test Schema.Word.id (.integer .differs w.id)

end Word

namespace Pronunciation

/-- Other pronunciations with this rhyme and, if this one has one, another prerhyme; nothing if
there is no rhyme to go by. -/
def rhymesFilter (p : Pronunciation) : Option Filter :=
  p.rhyme.map fun rhyme =>
    let others : Filter :=
      Filter.test Schema.Pronunciation.rhyme (.string .equals rhyme) &&&
        Filter.test Schema.Pronunciation.id (.integer .differs p.id)
    match p.prerhyme with
    | some onset => others.push (.test Schema.Pronunciation.prerhyme (.string .differs onset))
    | none => others

end Pronunciation

end Lexiquery
