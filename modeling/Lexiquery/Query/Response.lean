import Lexiquery.Error

/-! What a query found, and checks of how many records that is. -/

namespace Lexiquery

structure Response where
  kind : Kind
  entities : List Entity

namespace Response

def count (r : Response) : Nat := r.entities.length

def isEmpty (r : Response) : Bool := r.entities.isEmpty

def requireOne (r : Response) : Except ResponseError Unit :=
  match r.count with
  | 1 => .ok ()
  | 0 => .error (.notFound r.kind)
  | n => .error (.notUnique r.kind n)

def requireSome (r : Response) : Except ResponseError Unit :=
  if r.isEmpty then .error (.notFound r.kind) else .ok ()

def entity? (r : Response) : Except ResponseError (Option Entity) :=
  match r.entities with
  | [] => .ok none
  | [e] => .ok (some e)
  | es => .error (.notUnique r.kind es.length)

def entity (r : Response) : Except ResponseError Entity := do
  match ← r.entity? with
  | some e => return e
  | none => throw (.notFound r.kind)

def first? (r : Response) : Option Entity := r.entities.head?

def ids (r : Response) : List Int64 := r.entities.map (·.id)

def containsId (r : Response) (id : Int64) : Bool := r.ids.contains id

end Response

end Lexiquery
