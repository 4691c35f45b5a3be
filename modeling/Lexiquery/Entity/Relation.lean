import Lexiquery.Entity.Filters
import Lexiquery.Query.Basic

/-! The relations that lead from a record to other records. -/

namespace Lexiquery

inductive Relation
  | words
  | notion
  | group
  | inflections (category : Inflection)
  | frames
  | parts
  | frame
  | pronunciations
  | forms
  deriving DecidableEq

def Relation.isList : Relation → Bool
  | words | inflections _ | frames | parts | pronunciations | forms => true
  | notion | group | frame => false

/-- What has to be loaded for a relation: the records of a kind that satisfy a filter, in an order,
or the one with a primary key, or nothing. -/
inductive Load
  | many (kind : Kind) (filter : Filter) (order : Field)
  | one (kind : Kind) (id : Int64)
  | nothing

namespace Entity

open Schema

def related (k : Kind) (f : Filter) : Option Load :=
  some (.many k f (idField k))

def load? (e : Entity) : Relation → Option Load
  | .words =>
    match e with
    | notion _ | group _ => related .word e.identityFilter
    | _ => none
  | .notion =>
    match e with
    | word w => some (.one .notion w.notionId)
    | _ => none
  | .group =>
    match e with
    | word w => some (w.groupId.elim .nothing (.one .group))
    | frame f => some (.one .group f.groupId)
    | _ => none
  | .inflections category =>
    match e with
    | word _ => related .form (.link (Form.words category) .hasSome e.identityFilter)
    | _ => none
  | .frames =>
    match e with
    | group _ => related .frame e.identityFilter
    | _ => none
  | .parts =>
    match e with
    | frame _ => some (.many .part e.identityFilter Schema.Part.index)
    | _ => none
  | .frame =>
    match e with
    | part p => some (.one .frame p.frameId)
    | _ => none
  | .pronunciations =>
    match e with
    | form _ => related .pronunciation e.identityFilter
    | _ => none
  | .forms =>
    match e with
    | pronunciation _ => related .form e.identityFilter
    | _ => none

end Entity

def Load.run (store : Store) : Load → Logged (List Entity)
  | many k f order => do
    (← Query.prepare store k f (.ascending order) none).all store
  | one k id => do
    let q ← Query.prepare store k (.idEquals k id) (.ascending (Schema.idField k)) (some 1)
    return [← q.first store]
  | nothing => return []

end Lexiquery
