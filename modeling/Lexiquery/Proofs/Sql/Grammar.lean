import Lexiquery.Order
import Lexiquery.Proofs.Sql.Lexing

/-! The statements that are written here, by the grammar of SQL: what parentheses hold is read
first, a comparison before AND, and AND before OR; sources are joined from left to right, and
expressions are set apart by commas. -/

namespace Lexiquery.Sql

structure Column where
  table : String
  name : String
  deriving DecidableEq

inductive Atom
  | one
  | compare (column : Column) (operator : Operator) (value : Binding)
  | literal (column : Column) (value : Int)
  | equal (left right : Column)
  | null (column : Column) (test : NullTest)

inductive Expr
  | atom (atom : Atom)
  | group (connective : Connective) (children : List Expr)

structure Source where
  name : String
  other : Option String

structure Join where
  type : JoinType
  source : Source
  on : Expr

structure Select where
  columns : List Column
  source : Source
  joins : List Join
  condition : Option Expr

inductive Body
  | select (select : Select)
  | union (first second : Select)

structure Cte where
  name : String
  column : String
  body : Body

inductive Arrangement
  | random
  | by (column : Column) (direction : Direction)

structure Statement where
  ctes : List Cte
  select : Select
  group : Column
  order : Arrangement
  limit : Option Nat

def Expr.row (c : Connective) : List Expr → Expr
  | [e] => e
  | es => group c es

inductive Item
  | token (token : Token)
  | parens (items : List Item)

/-- What stands behind a lexeme, level by level: as far as the next parenthesis that was opened
before it, from there to the next one, and so on. -/
def Lexeme.before? : Lexeme → List (List Item) → Option (List (List Item))
  | .closing, levels => some ([] :: levels)
  | .opening, inner :: outer :: levels => some ((.parens inner :: outer) :: levels)
  | .token t, items :: levels => some ((.token t :: items) :: levels)
  | _, _ => none

def levels? : List Lexeme → Option (List (List Item))
  | [] => some [[]]
  | l :: ls => levels? ls >>= l.before?

def nest? (ls : List Lexeme) : Option (List Item) :=
  match levels? ls with
  | some [items] => some items
  | _ => none

def Atom.ofTest? (c : Column) : List Token → Option Atom
  | [.operator op, .value v] => some (.compare c op v)
  | [.keyword .like, .value v] => some (.compare c .like v)
  | [.keyword .not, .keyword .like, .value v] => some (.compare c .notLike v)
  | [.operator .equals, .number n] => some (.literal c n)
  | [.operator .equals, .minus, .number n] => some (.literal c (-n))
  | [.operator .equals, .name t, .dot, .name n] => some (.equal c ⟨t, n⟩)
  | [.keyword .is, .keyword .null] => some (.null c .isNull)
  | [.keyword .is, .keyword .not, .keyword .null] => some (.null c .isNotNull)
  | _ => none

def Atom.ofTokens? : List Token → Option Atom
  | [.number 1] => some .one
  | .name t :: .dot :: .name n :: test => ofTest? ⟨t, n⟩ test
  | _ => none

inductive Piece
  | token (token : Token)
  | expr (expr : Expr)

namespace Piece

def token? : Piece → Option Token
  | token t => some t
  | expr _ => none

def connective? : Piece → Option Connective
  | token (.keyword .and) => some .and
  | token (.keyword .or) => some .or
  | _ => none

def split (c : Connective) (ps : List Piece) : List (List Piece) :=
  ps.splitOnP (·.connective? == some c)

end Piece

namespace Expr

def ofTerm? : List Piece → Option Expr
  | [.expr e] => some e
  | ps => do return atom (← Atom.ofTokens? (← ps.mapM Piece.token?))

def ofConjunction? (ps : List Piece) : Option Expr := do
  return row .and (← (Piece.split .and ps).mapM ofTerm?)

def ofPieces? (ps : List Piece) : Option Expr := do
  return row .or (← (Piece.split .or ps).mapM ofConjunction?)

mutual

def ofItem? : Item → Option Piece
  | .token t => some (.token t)
  | .parens items => do return .expr (← ofPieces? (← pieces? items))

def pieces? : List Item → Option (List Piece)
  | [] => some []
  | i :: is => do return (← ofItem? i) :: (← pieces? is)

end

def ofItems? (is : List Item) : Option Expr := pieces? is >>= ofPieces?

end Expr

def Keyword.leads : Keyword → Bool
  | select | .from | inner | left | .where | group | order | limit | union | .with => true
  | _ => false

structure Clause where
  keyword : Keyword
  items : List Item

def Item.leading? : Item → Option Keyword
  | token (.keyword k) => if k.leads then some k else none
  | _ => none

def Item.isComma : Item → Bool
  | token .comma => true
  | _ => false

namespace Clause

def cut : List Item → List Item × List Clause
  | [] => ([], [])
  | i :: is =>
    match i.leading? with
    | some k => ([], ⟨k, (cut is).1⟩ :: (cut is).2)
    | none => (i :: (cut is).1, (cut is).2)

def ofItems? (is : List Item) : Option (List Clause) :=
  match cut is with
  | ([], cs) => some cs
  | _ => none

end Clause

def Column.ofItems? : List Item → Option Column
  | [.token (.name t), .token .dot, .token (.name n)] => some ⟨t, n⟩
  | _ => none

def Source.ofItems? : List Item → Option Source
  | [.token (.name n)] => some ⟨n, none⟩
  | [.token (.name n), .token (.keyword .as), .token (.name a)] => some ⟨n, some a⟩
  | _ => none

namespace Join

def type? : Keyword → Option JoinType
  | .inner => some .inner
  | .left => some .left
  | _ => none

def ofItems? (type : JoinType) : List Item → Option Join
  | .token (.keyword .join) :: .token (.name n) :: .token (.keyword .on) :: on => do
    return ⟨type, ⟨n, none⟩, ← Expr.ofItems? on⟩
  | .token (.keyword .join) :: .token (.name n) :: .token (.keyword .as) :: .token (.name a) ::
      .token (.keyword .on) :: on => do
    return ⟨type, ⟨n, some a⟩, ← Expr.ofItems? on⟩
  | _ => none

def ofClauses? : List Clause → Option (List Join × List Clause)
  | [] => some ([], [])
  | c :: cs =>
    match type? c.keyword with
    | some type => do
      let j ← ofItems? type c.items
      let (js, cs) ← ofClauses? cs
      return (j :: js, cs)
    | none => some ([], c :: cs)

end Join

def Expr.ofClauses? : List Clause → Option (Option Expr × List Clause)
  | ⟨.where, is⟩ :: cs => do return (some (← ofItems? is), cs)
  | cs => some (none, cs)

def Select.ofClauses? : List Clause → Option (Select × List Clause)
  | ⟨.select, columns⟩ :: ⟨.from, source⟩ :: cs => do
    let columns ← (columns.splitOnP Item.isComma).mapM Column.ofItems?
    let source ← Source.ofItems? source
    let (joins, cs) ← Join.ofClauses? cs
    let (condition, cs) ← Expr.ofClauses? cs
    return (⟨columns, source, joins, condition⟩, cs)
  | _ => none

def Body.ofClauses? (cs : List Clause) : Option Body := do
  match ← Select.ofClauses? cs with
  | (s, []) => some (.select s)
  | (s, ⟨.union, []⟩ :: cs) =>
    match ← Select.ofClauses? cs with
    | (t, []) => some (.union s t)
    | _ => none
  | _ => none

def Cte.ofItems? : List Item → Option Cte
  | [.token (.name n), .parens [.token (.name c)], .token (.keyword .as), .parens body] => do
    return ⟨n, c, ← Body.ofClauses? (← Clause.ofItems? body)⟩
  | _ => none

def Cte.ofClauses? : List Clause → Option (List Cte × List Clause)
  | ⟨.with, .token (.keyword .recursive) :: ctes⟩ :: cs => do
    return (← (ctes.splitOnP Item.isComma).mapM ofItems?, cs)
  | cs => some ([], cs)

def Arrangement.ofItems? : List Item → Option Arrangement
  | [.token (.name f), .parens []] => if f.toUpper = "RANDOM" then some random else none
  | [.token (.name t), .token .dot, .token (.name n), .token (.keyword .asc)] =>
    some (.by ⟨t, n⟩ .ascending)
  | [.token (.name t), .token .dot, .token (.name n), .token (.keyword .desc)] =>
    some (.by ⟨t, n⟩ .descending)
  | _ => none

def Statement.limit? : List Clause → Option (Option Nat)
  | [] => some none
  | [⟨.limit, [.token (.number n)]⟩] => some (some n)
  | _ => none

def Statement.ofClauses? (cs : List Clause) : Option Statement := do
  let (ctes, cs) ← Cte.ofClauses? cs
  match ← Select.ofClauses? cs with
  | (select, ⟨.group, .token (.keyword .by) :: group⟩ ::
      ⟨.order, .token (.keyword .by) :: order⟩ :: cs) => do
    return ⟨ctes, select, ← Column.ofItems? group, ← Arrangement.ofItems? order, ← limit? cs⟩
  | _ => none

/-- The statement that a text is, its placeholders bound to some values. -/
def read? (text : String) (bs : List Binding) : Option Statement := do
  Statement.ofClauses? (← Clause.ofItems? (← nest? (← lex text bs)))

end Lexiquery.Sql
