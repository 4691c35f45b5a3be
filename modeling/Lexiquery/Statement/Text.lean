import Lexiquery.Statement.Basic

/-! The text of a statement and the bindings of its placeholders, in the order of the text. -/

namespace Lexiquery

def CteName.text (n : CteName) : String :=
  s!"{n.table}_tree_{n.number}"

def Source.text : Source → String
  | table name => name
  | cte name => name.text

def Alias.text (a : Alias) : String :=
  s!"{a.source.text}_{a.number}"

def ColumnRef.text (r : ColumnRef) : String :=
  s!"{r.table.text}.{r.column}"

def Operator.text : Operator → String
  | equals => "="
  | differs => "!="
  | atLeast => ">="
  | greaterThan => ">"
  | atMost => "<="
  | lessThan => "<"
  | like => "LIKE"
  | notLike => "NOT LIKE"

def NullTest.text : NullTest → String
  | isNull => "IS NULL"
  | isNotNull => "IS NOT NULL"

namespace Condition

mutual

def text : Condition → String
  | always => "1"
  | compare r op _ => s!"{r.text} {op.text} ?"
  | literal r n => s!"{r.text} = {n}"
  | null r t => s!"{r.text} {t.text}"
  | group c children => String.intercalate s!" {c.keyword} " (childTexts children)

def childTexts : List Condition → List String
  | [] => []
  | group c children :: rest => s!"({(group c children).text})" :: childTexts rest
  | child :: rest => child.text :: childTexts rest

end

mutual

def bindings : Condition → List Binding
  | compare _ _ b => [b]
  | group _ children => bindingsAll children
  | always | literal .. | null .. => []

def bindingsAll : List Condition → List Binding
  | [] => []
  | c :: cs => c.bindings ++ bindingsAll cs

end

def whereText (c : Condition) : String :=
  if c.isAlways then "" else s!" WHERE {c.text}"

end Condition

def JoinOn.text : JoinOn → String
  | columns l r => s!"{l.text} = {r.text}"
  | literal r n => s!"{r.text} = {n}"

def JoinType.keyword : JoinType → String
  | inner => "INNER JOIN"
  | left => "LEFT JOIN"

def Join.text (j : Join) : String :=
  let on := String.intercalate " AND " (j.on.map (·.text))
  s!" {j.type.keyword} {j.table.source.text} AS {j.table.text} ON {on}"

def Alias.fromText (a : Alias) : String :=
  s!" FROM {a.source.text} AS {a.text}"

namespace Select

def head (s : Select) : String :=
  s!"SELECT {s.column.text}" ++ s.column.table.fromText ++ String.join (s.joins.map (·.text))

def text (s : Select) : String := s.head ++ s.condition.whereText

def bindings (s : Select) : List Binding := s.condition.bindings

end Select

namespace Cte

def unionText : String := " UNION "

def stepText (c : Cte) (step : ClosureStep) : String :=
  let r := step.relation
  s!"SELECT {r.text}.{step.joinColumn}{r.fromText}" ++
    s!" INNER JOIN {c.name.text} ON {r.text}.{step.foreignJoinColumn} = {c.name.text}.{c.column}"

def bodyText (c : Cte) : String :=
  match c.body with
  | .select s => s.text
  | .closure base step => base.text ++ unionText ++ c.stepText step

def head (c : Cte) : String := s!"{c.name.text}({c.column}) AS ("

def text (c : Cte) : String := c.head ++ c.bodyText ++ ")"

def bindings (c : Cte) : List Binding :=
  match c.body with
  | .select s => s.bindings
  | .closure base _ => base.bindings

end Cte

def Order.text (main : Alias) : Order → String
  | random => " ORDER BY RANDOM()"
  | .by f d => s!" ORDER BY {main.text}.{f.column} {d.keyword}"

namespace Statement

def withKeyword : String := "WITH RECURSIVE "

def withText (s : Statement) : String :=
  if s.ctes.isEmpty then ""
  else withKeyword ++ String.intercalate ", " (s.ctes.map (·.text)) ++ " "

def limitText (s : Statement) : String :=
  match s.limit with
  | some n => s!" LIMIT {n}"
  | none => ""

def columnRefs (s : Statement) : List ColumnRef := s.columns.map (⟨s.main, ·⟩)

def head (s : Statement) : String :=
  "SELECT " ++ String.intercalate ", " (s.columnRefs.map (·.text)) ++ s.main.fromText ++
    String.join (s.joins.map (·.text))

def groupText (s : Statement) : String := s!" GROUP BY {s.main.text}.{s.groupColumn}"

def sql (s : Statement) : String :=
  s.withText ++ s.head ++ s.condition.whereText ++ s.groupText ++ s.order.text s.main ++ s.limitText

def bindings (s : Statement) : List Binding :=
  s.ctes.flatMap (·.bindings) ++ s.condition.bindings

end Statement

end Lexiquery
