import Lexiquery.Config
import Lexiquery.Entity.Record
import Lexiquery.Metrics.Report
import Lexiquery.Metrics.Sinks
import Lexiquery.Query.Explain
import Lexiquery.Shell.Command
import Lexiquery.Shell.Input

/-! What the shell answers to a command. -/

namespace Lexiquery

inductive Reply
  | silence
  | goodbye
  | help
  | texts (texts : List String)
  | nothing
  | report (json : Json)
  | unknown (line : String)
  | failure (error : Error)

namespace Reply

def helpLines : List String :=
  ["Commands:",
    "  synonyms WORD          words listed as synonyms of WORD",
    "  antonyms WORD          words listed as antonyms of WORD",
    "  hypernyms WORD         words for the direct hypernyms of WORD",
    "  rhymes WORD            forms rhyming with WORD",
    "  explain <command>      show the compiled SQL instead of running it",
    "  metrics                print query metrics as JSON",
    "  help                   show this help",
    "  quit                   exit"]

def lines : Reply → List String
  | silence | goodbye | report _ => []
  | help => helpLines
  | texts [] => ["  (no results)"]
  | texts ts => ts.map fun t => "  " ++ t
  | nothing => ["  (nothing to look up)"]
  | unknown line => [s!"unknown command: {line} (try \x60help\x60)"]
  | failure e => [e.display]

def isComplaint : Reply → Bool
  | unknown _ | failure _ => true
  | _ => false

end Reply

namespace Lookup

/-- The pronunciations of a spelling, or rather filters for what rhymes with each that has a rhyme.
-/
def rhymeFilters (store : Store) (spelling : String) : Logged (List Filter) := do
  let order := Order.ascending Schema.Pronunciation.id
  let q ← Query.prepare store .pronunciation (.formText spelling) order none
  return (← q.all store).filterMap fun
    | .pronunciation p => p.rhymesFilter
    | _ => none

def filter? (store : Store) (l : Lookup) : Logged (Option (Kind × Filter)) :=
  let spelled : Filter := .formText l.spelling
  match l.relative with
  | .synonyms => return some (.word, .link Schema.Word.synonyms .hasSome spelled)
  | .antonyms => return some (.word, .link Schema.Word.antonyms .hasSome spelled)
  | .hypernyms =>
    return some (.word,
      .link Schema.Notion.hyponyms .hasSome (.link Schema.Notion.words .hasSome spelled))
  | .rhymes => do
    match ← rhymeFilters store l.spelling with
    | [] => return none
    | fs => return some (.form, .group .or fs)

end Lookup

/-- The spelling of a form, or of the base form of a word. -/
def Entity.spelling (store : Store) (e : Entity) : Logged String :=
  let spellingOf : Entity → String
    | .form f => f.text
    | _ => ""
  match (Record.walk store [.baseForm] (.ofEntity e)).found with
  | none => return spellingOf e
  | some found => do
    match ← found with
    | .single r => return spellingOf r.entity
    | _ => return ""

structure Shell where
  database : Database
  limit : Option UInt32
  sinks : Sinks := {}

namespace Shell

def query? (store : Store) (limit : Option UInt32) (l : Lookup) : Logged (Option Query) := do
  match ← l.filter? store with
  | some (k, f) => return some (← Query.prepare store k f .random limit)
  | none => return none

def spellings (store : Store) : List Entity → Logged (List String)
  | [] => return []
  | e :: es => return (← e.spelling store) :: (← spellings store es)

def answer (shell : Shell) : Command → Logged Reply
  | .empty => return .silence
  | .quit => return .goodbye
  | .help => return .help
  | .metrics => return .report shell.sinks.counters.report
  | .unknown line => return .unknown line
  | .explain l => do
    match ← query? shell.database.store shell.limit l with
    | some q => return .report q.explain
    | none => return .nothing
  | .lookup l => do
    let store := shell.database.store
    match ← query? store shell.limit l with
    | some q => return .texts (← spellings store (← q.all store))
    | none => return .texts []

def respond (shell : Shell) (line : String) : Reply × Shell :=
  let answered := shell.answer (.parse (typed line))
  let reply := match answered.result with
    | .ok reply => reply
    | .error e => .failure e
  (reply, { shell with sinks := shell.sinks.recordAll answered.events })

def defaultConfig : String := "verbly.toml"

/-- The configuration in the file that is named, in the default file if that is there, or none. -/
def configure (files : Files) (argument : Option String) : Except Error Config :=
  let load (path : String) := (Config.load files path).mapError (·.toError)
  match argument with
  | some path => load path
  | none => if (files defaultConfig).isOk then load defaultConfig else .ok {}

def version : String := "0.4.0"

def banner (config : Config) : String := s!"verbly v{version} - {config.path}"

def instructions : String := "Type \x60help\x60 for help, \x60quit\x60 to exit"

def ofConfig (files : Files) (config : Config) : Except Error Shell :=
  return ⟨← config.openDatabase files, config.defaultLimit, {}⟩

end Shell

end Lexiquery
