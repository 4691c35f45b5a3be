import Lexiquery.Entity.Basic
import Lexiquery.Statement.Scope

/-! All that can go wrong with a query, and its classification. -/

namespace Lexiquery

inductive ResponseError
  | notFound (kind : Kind)
  | notUnique (kind : Kind) (count : Nat)
  deriving DecidableEq

def ResponseError.message : ResponseError → String
  | notFound k => s!"expected at least one row, found 0 (kind {k.name})"
  | notUnique k n => s!"expected exactly one row, found {n} (kind {k.name})"

inductive OpenFault
  | noFile
  | directory
  | nulByte (position : Nat)
  | foreignAuthority (authority : String)
  | unknownAccess (mode : String)
  | forbiddenAccess (mode : String)
  | unknownCache (mode : String)
  | unknownDriver (name : String)
  deriving DecidableEq

def OpenFault.message (path : String) : OpenFault → String
  | noFile => s!"unable to open database file: {path}"
  | directory => "disk I/O error"
  | nulByte position => s!"nul byte found in provided data at position: {position}"
  | foreignAuthority authority => s!"invalid uri authority: {authority}"
  | unknownAccess mode => s!"no such access mode: {mode}"
  | forbiddenAccess mode => s!"access mode not allowed: {mode}"
  | unknownCache mode => s!"no such cache mode: {mode}"
  | unknownDriver name => s!"no such vfs: {name}"

inductive Error
  | field (error : FieldError)
  | filter (error : FilterError)
  | binding (error : BindingError)
  | compile (error : CompileError)
  | response (error : ResponseError)
  | engine (error : EngineError) (sql : String)
  | cannotOpen (path : String) (fault : OpenFault)
  | decode (error : DecodeError)
  | config (message : String)

inductive ErrorClass
  | schemaMisuse
  | database
  | notFound
  | conflict
  | config
  deriving DecidableEq

inductive ErrorOrigin
  | field
  | filter
  | statement
  | response
  | database
  | entity
  | config
  deriving DecidableEq

def ErrorClass.name : ErrorClass → String
  | schemaMisuse => "schema_misuse"
  | database => "database"
  | notFound => "not_found"
  | conflict => "conflict"
  | config => "config"

def ErrorOrigin.name : ErrorOrigin → String
  | field => "field"
  | filter => "filter"
  | statement => "statement"
  | response => "response"
  | database => "database"
  | entity => "entity"
  | config => "config"

namespace Error

def origin : Error → ErrorOrigin
  | field _ => .field
  | filter _ => .filter
  | binding _ | compile _ => .statement
  | response _ => .response
  | engine .. | cannotOpen .. => .database
  | decode _ => .entity
  | config _ => .config

def errorClass : Error → ErrorClass
  | field _ | filter _ | binding _ | compile _ => .schemaMisuse
  | response (.notFound _) => .notFound
  | response (.notUnique ..) => .conflict
  | engine .. | cannotOpen .. | decode _ => .database
  | config _ => .config

def message : Error → String
  | field e => e.message
  | filter e => e.message
  | binding e => e.message
  | compile e => e.message
  | response e => e.message
  | engine e sql => s!"database error: {e.message sql} (sql: {sql})"
  | cannotOpen path fault => s!"cannot open {path}: " ++ fault.message path
  | decode e => e.message
  | config m => m

def isNotFound (e : Error) : Bool := e.errorClass = .notFound

def isSchemaMisuse (e : Error) : Bool := e.errorClass = .schemaMisuse

def label (e : Error) : String :=
  s!"{e.origin.name}:{e.errorClass.name}"

def display (e : Error) : String :=
  s!"{e.label}: {e.message}"

end Error

end Lexiquery
