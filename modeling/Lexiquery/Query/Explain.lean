import Lexiquery.Json
import Lexiquery.Query.Basic

/-! A query described without running it. -/

namespace Lexiquery

def Binding.json : Binding → Json
  | integer n => .object [("integer", .integer n.toInt)]
  | string s => .object [("string", .string s)]

def Alias.json (a : Alias) : Json :=
  .object [("alias", .string a.text), ("table", .string a.source.text)]

def Query.explain (q : Query) : Json :=
  .object [("kind", .string q.kind.name),
    ("fingerprint", .string q.fingerprint.hex),
    ("sql", .string q.statement.sql),
    ("bindings", .array (q.statement.bindings.map (·.json))),
    ("tables", .array (q.statement.tables.map (·.json))),
    ("joins", .integer q.statement.joinCount),
    ("ctes", .integer q.statement.cteCount)]

end Lexiquery
