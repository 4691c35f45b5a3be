import Lexiquery.Files
import Lexiquery.Store.Location

/-! Opening stores. A path is resolved by its parts alone: two dots take back the part before them,
whatever that is, though each part is looked at when it is reached. -/

namespace Lexiquery

/-- A path as the parts that are left of it, the last first. -/
structure Route where
  isAbsolute : Bool
  parts : List String

namespace Route

def text (r : Route) : String :=
  let path := String.intercalate "/" r.parts.reverse
  if r.isAbsolute then "/" ++ path else if r.parts.isEmpty then "." else path

def up (r : Route) : Route :=
  match r.parts with
  | [] => if r.isAbsolute then r else { r with parts := [".."] }
  | part :: parts => { r with parts := if part = ".." then ".." :: r.parts else parts }

def down (r : Route) (part : String) : Route := { r with parts := part :: r.parts }

def step (r : Route) (part : String) : Route :=
  if part = "" ∨ part = "." then r else if part = ".." then r.up else r.down part

def stations (r : Route) : List String → List Route
  | [] => []
  | part :: parts =>
    let next := r.step part
    if part = "" ∨ part = "." ∨ part = ".." then next.stations parts
    else next :: next.stations parts

def start (path : String) : Route := ⟨Path.isAbsolute path, []⟩

def partsOf (path : String) : List String := path.splitOn "/"

def ofPath (path : String) : Route := (partsOf path).foldl step (start path)

end Route

namespace Location

def route (l : Location) : Route := .ofPath l.path

def probes (l : Location) : List String :=
  if l.isTransient then []
  else
    let r := l.route
    (Route.start l.path).stations (Route.partsOf l.path) |>.map (·.text) |>.append
      [r.text, r.up.text]

def isResolved (files : Files) (l : Location) : Bool :=
  ((Route.start l.path).stations (Route.partsOf l.path)).all fun r =>
    match files r.text with
    | .ok _ | .error .missing => true
    | .error _ => false

def blank : Store where
  tables := []

def openStore (files : Files) (l : Location) : Except OpenFault Store :=
  if l.isTransient then .ok blank
  else
    let r := l.route
    if !l.isResolved files || (r.isAbsolute && r.parts.isEmpty) then .error .noFile
    else
      match files r.text with
      | .ok (.store store) => .ok store
      | .ok (.text "") => .ok blank
      | .ok (.text _) | .ok .other => .ok { blank with isValid := false }
      | .ok .directory => .error (if l.access = .read then .directory else .noFile)
      | .error .missing =>
        match l.access, files r.up.text with
        | .create, .ok .directory => .ok blank
        | _, _ => .error .noFile
      | .error _ => .error .noFile

end Location

namespace Files

def storeProbes (path : String) : List String :=
  match Location.parse path with
  | .ok l => l.probes
  | .error _ => []

def openStore (files : Files) (path : String) : Except Error Store :=
  (Location.parse path >>= Location.openStore files).mapError (.cannotOpen path)

end Files

end Lexiquery
