import Lexiquery.Entity.Relation

/-! Records that keep what was loaded along their relations. A relation is loaded when it is first
asked for; if that fails it stays unloaded, otherwise it is never loaded again. -/

namespace Lexiquery

inductive Record
  | mk (entity : Entity) (loaded : List (Relation × List Record))

namespace Record

def entity : Record → Entity
  | mk e _ => e

def loaded : Record → List (Relation × List Record)
  | mk _ loaded => loaded

def ofEntity (e : Entity) : Record := mk e []

def loaded? (r : Record) (relation : Relation) : Option (List Record) :=
  r.loaded.lookup relation

def keep (r : Record) (relation : Relation) (rs : List Record) : Record :=
  mk r.entity ((relation, rs) :: r.loaded.filter (·.1 ≠ relation))

/-- The records along a relation that starts here, and this record as it is afterwards. -/
def related? (r : Record) (store : Store) (relation : Relation) :
    Option (Logged (List Record) × Record) :=
  match r.loaded? relation with
  | some rs => some (.ok rs, r)
  | none => (r.entity.load? relation).map fun load =>
    let found : Logged (List Record) := do
      .report [.hydration r.entity.kind]
      return (← load.run store).map ofEntity
    (found, match found.result with
      | .ok rs => r.keep relation rs
      | .error _ => r)

end Record

inductive Step
  | index (position : Nat)
  | relation (relation : Relation)
  | baseForm

inductive Found
  | list (records : List Record)
  | single (record : Record)
  | absent

/-- Where a path ended, unless one of its steps is impossible there, and what was passed on the way
as it is afterwards. -/
structure Walk (α : Type) where
  found : Option (Logged Found)
  after : α

def Walk.map (f : α → β) (w : Walk α) : Walk β :=
  ⟨w.found, f w.after⟩

def Walk.precede (events : List Event) (w : Walk α) : Walk α :=
  ⟨w.found.map fun found => do .report events; found, w.after⟩

namespace Record

def walkHead (k : Record → Walk Record) (empty : Logged Found) : List Record → Walk (List Record)
  | [] => ⟨some empty, []⟩
  | r :: rs => (k r).map (· :: rs)

def walkRelation (r : Record) (store : Store) (relation : Relation)
    (k : List Record → Walk (List Record)) : Walk Record :=
  match r.related? store relation with
  | none => ⟨none, r⟩
  | some (found, r) =>
    match found.result with
    | .error e => ⟨some ⟨.error e, found.events⟩, r⟩
    | .ok rs => ((k rs).map (r.keep relation ·)).precede found.events

mutual

def walk (store : Store) : List Step → Record → Walk Record
  | [], r => ⟨some (.ok (.single r)), r⟩
  | .relation relation :: path, r =>
    r.walkRelation store relation fun rs =>
      if relation.isList then walkList store path rs
      else walkHead (walk store path) (.ok .absent) rs
  | .baseForm :: path, r =>
    r.walkRelation store (.inflections .base)
      (walkHead (walk store path) (.fail (.response (.notFound .form))))
  | .index _ :: _, r => ⟨none, r⟩

def walkList (store : Store) : List Step → List Record → Walk (List Record)
  | [], rs => ⟨some (.ok (.list rs)), rs⟩
  | .index i :: path, rs =>
    match rs[i]? with
    | some r => (walk store path r).map (rs.set i ·)
    | none => ⟨none, rs⟩
  | _ :: _, rs => ⟨none, rs⟩

end

end Record

end Lexiquery
