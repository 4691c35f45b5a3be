import Lexiquery.Store.Open
import Lexiquery.Toml.Document

/-! The configuration file: where the database is, whether statements are logged, and how many rows
a query of the shell returns at most. A path in the file is as seen from the directory of the file.
-/

namespace Lexiquery

structure Config where
  path : String := "verbly.sqlite3"
  debug : Bool := false
  defaultLimit : Option UInt32 := none
  deriving DecidableEq

inductive ConfigError
  | unreadable (path : String) (fault : ReadFault)
  | notToml
  | unknownKey (key : String) (known : List String)
  | invalidType (found expected : String)
  | invalidValue (found expected : String)
  | zeroLimit
  deriving DecidableEq

namespace ConfigError

def codeSpan (s : String) : String := s!"\x60{s}\x60"

def fault? : ConfigError → Option String
  | unknownKey key known =>
    let choices := String.intercalate " or " (known.map codeSpan)
    some s!"unknown field {codeSpan key}, expected {choices}"
  | invalidType found expected => some s!"invalid type: {found}, expected {expected}"
  | invalidValue found expected => some s!"invalid value: {found}, expected {expected}"
  | unreadable .. | notToml | zeroLimit => none

def message : ConfigError → String
  | unreadable path fault => s!"cannot read config {path}: " ++ fault.message
  | zeroLimit => "query.default_limit must be positive"
  | e => "invalid config: " ++ e.fault?.getD "not TOML"

def toError (e : ConfigError) : Error := .config e.message

end ConfigError

namespace Config

/-- Reads the parts of a section by key from a table, or by position from an array. -/
def readSection (name : String) (parts : List (String × (Toml.Value → α → Except ConfigError α)))
    (v : Toml.Value) (start : α) : Except ConfigError α :=
  let unknown (key : String) := ConfigError.unknownKey key (parts.map (·.1))
  match v with
  | .table entries =>
    entries.foldlM (fun a (key, v) =>
      match parts.lookup key with
      | some read => read v a
      | none => throw (unknown key)) start
  | .array items =>
    (parts.zip items).foldlM (fun a ((_, read), v) => read v a) start
  | .dateTime => throw (unknown "$__toml_private_datetime")
  | v => throw (.invalidType v.describe s!"struct {name}")

def readPath : Toml.Value → Except ConfigError String
  | .string s => .ok s
  | v => .error (.invalidType v.describe "path string")

def readBool : Toml.Value → Except ConfigError Bool
  | .boolean b => .ok b
  | v => .error (.invalidType v.describe "a boolean")

def readLimit : Toml.Value → Except ConfigError UInt32
  | .integer n =>
    if 0 ≤ n.toInt ∧ n.toInt.toNat < UInt32.size then .ok (.ofNat n.toInt.toNat)
    else .error (.invalidValue (Toml.Value.integer n).describe "u32")
  | v => .error (.invalidType v.describe "u32")

def readDatabase : Toml.Value → Config → Except ConfigError Config :=
  readSection "DatabaseConfig" [
    ("path", fun v c => return { c with path := ← readPath v }),
    ("debug", fun v c => return { c with debug := ← readBool v })]

def readQuery : Toml.Value → Config → Except ConfigError Config :=
  readSection "QueryConfig" [
    ("default_limit", fun v c => return { c with defaultLimit := some (← readLimit v) })]

def ofToml (source : String) : Except ConfigError Config := do
  match Toml.parse? source with
  | none => throw .notToml
  | some entries =>
    let config ← readSection "Config" [("database", readDatabase), ("query", readQuery)]
      (.table entries) {}
    if config.defaultLimit = some 0 then throw .zeroLimit
    return config

end Config

namespace Config

/-- Reads a file; the path of the database is as seen from the directory of that file. -/
def load (files : Files) (path : String) : Except ConfigError Config := do
  let source ← (files.readText path).mapError (.unreadable path)
  let config ← ofToml source
  return { config with path := Path.join (Path.parent path) config.path }

end Config

structure Database where
  store : Store
  debug : Bool

def Config.openDatabase (config : Config) (files : Files) : Except Error Database :=
  return ⟨← files.openStore config.path, config.debug⟩

end Lexiquery
