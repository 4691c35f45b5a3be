import Lexiquery.Proofs.Statement.Clauses

/-! What is read where a statement is written: its own parts, under their names. A group of one
condition reads as that condition. -/

namespace Lexiquery

open Sql (Item Piece Token)

/-! ## What is read -/

def ColumnRef.toSql (r : ColumnRef) : Sql.Column := ⟨r.table.text, r.column⟩

def Alias.toSql (a : Alias) : Sql.Source := ⟨a.source.text, some a.text⟩

namespace Condition

mutual

def toSql : Condition → Sql.Expr
  | always => .atom .one
  | compare r op b => .atom (.compare r.toSql op b)
  | literal r n => .atom (.literal r.toSql n.toInt)
  | null r t => .atom (.null r.toSql t)
  | group c children => .row c (toSqlAll children)

def toSqlAll : List Condition → List Sql.Expr
  | [] => []
  | c :: cs => c.toSql :: toSqlAll cs

end

theorem toSqlAll_eq (cs : List Condition) : toSqlAll cs = cs.map toSql := by
  induction cs <;> simp [toSqlAll, *]

def whereSql (c : Condition) : Option Sql.Expr := if c.isAlways then none else some c.toSql

end Condition

def JoinOn.toSql : JoinOn → Sql.Expr
  | columns l r => .atom (.equal l.toSql r.toSql)
  | literal r n => (Condition.literal r n).toSql

def Join.toSql (j : Join) : Sql.Join := ⟨j.type, j.table.toSql, .row .and (j.on.map (·.toSql))⟩

def selectSql (columns : List ColumnRef) (main : Alias) (joins : List Join) (c : Condition) :
    Sql.Select :=
  ⟨columns.map (·.toSql), main.toSql, joins.map (·.toSql), c.whereSql⟩

def Select.toSql (s : Select) : Sql.Select :=
  selectSql [s.column] s.column.table s.joins s.condition

namespace Cte

def stepSql (c : Cte) (step : ClosureStep) : Sql.Select where
  columns := [ColumnRef.toSql ⟨step.relation, step.joinColumn⟩]
  source := step.relation.toSql
  joins := [⟨.inner, ⟨c.name.text, none⟩, .atom (.equal
    (ColumnRef.toSql ⟨step.relation, step.foreignJoinColumn⟩) ⟨c.name.text, c.column⟩)⟩]
  condition := none

def toSql (c : Cte) : Sql.Cte where
  name := c.name.text
  column := c.column
  body := match c.body with
    | .select s => .select s.toSql
    | .closure base step => .union base.toSql (c.stepSql step)

end Cte

def Order.toSql (main : Alias) : Order → Sql.Arrangement
  | random => .random
  | .by f d => .by (ColumnRef.toSql ⟨main, f.column⟩) d

def Statement.toSql (s : Statement) : Sql.Statement where
  ctes := s.ctes.map (·.toSql)
  select := selectSql s.columnRefs s.main s.joins s.condition
  group := ColumnRef.toSql ⟨s.main, s.groupColumn⟩
  order := s.order.toSql s.main
  limit := s.limit.map (·.toNat)

/-! ## Conditions -/

namespace Condition

inductive Branching : Condition → Prop
  | always : Branching always
  | compare {r : ColumnRef} {op : Operator} {b : Binding} : Branching (compare r op b)
  | literal {r : ColumnRef} {n : Int64} : Branching (literal r n)
  | null {r : ColumnRef} {t : NullTest} : Branching (null r t)
  | group {c : Connective} {cs : List Condition} :
    cs ≠ [] → (∀ c ∈ cs, Branching c) → Branching (group c cs)

def childPieces : Condition → List Piece
  | group c cs => [.expr (group c cs).toSql]
  | c => c.tokens.map .token

theorem ofTerm?_childPieces (c : Condition) : Sql.Expr.ofTerm? c.childPieces = some c.toSql := by
  cases c with
  | always => rfl
  | compare r op b => cases op <;> rfl
  | literal r n =>
    change Sql.Expr.ofTerm? ((literal r n).tokens.map .token) = some (.atom (.literal _ n.toInt))
    rw [tokens]
    cases n.toInt <;> rfl
  | null r t => cases t <;> rfl
  | group => rfl

theorem connective?_childPieces (c : Condition) : ∀ p ∈ c.childPieces, p.connective? = none := by
  cases c with
  | compare r op b =>
    cases op <;> simp [childPieces, tokens, ColumnRef.tokens, Operator.tokens, Piece.connective?]
  | literal r n =>
    cases h : n.toInt <;>
      simp [childPieces, tokens, ColumnRef.tokens, Sql.integerTokens, h, Piece.connective?]
  | null r t =>
    cases t <;> simp [childPieces, tokens, ColumnRef.tokens, NullTest.tokens, Piece.connective?]
  | always | group => simp [childPieces, tokens, Piece.connective?]

theorem ofItems?_atom {c : Condition} (hi : c.items = c.tokens.map .token)
    (hp : c.childPieces = c.tokens.map .token) : Sql.Expr.ofItems? c.items = some c.toSql := by
  have single := Sql.Expr.ofPieces?_row (c := .or) (l := [c]) (f := childPieces) (g := toSql)
    (by simp) (by simpa using connective?_childPieces c) (by simpa using ofTerm?_childPieces c)
  rw [hi, Sql.Expr.ofItems?_of_pieces (Sql.Expr.pieces?_tokens _), ← hp]
  simpa using single

theorem pieces?_childItem {c : Condition} (h : Sql.Expr.ofItems? c.items = some c.toSql) :
    Sql.Expr.pieces? c.childItem = some c.childPieces := by
  cases c with
  | group k cs => exact Sql.Expr.pieces?_parens h
  | _ => exact Sql.Expr.pieces?_tokens _

theorem ofItems?_items {c : Condition} (h : c.Branching) :
    Sql.Expr.ofItems? c.items = some c.toSql := by
  induction c using Condition.induction with
  | group k cs ih =>
    obtain ⟨hn, hcs⟩ : cs ≠ [] ∧ ∀ c ∈ cs, c.Branching := by
      cases h with
      | group hn hcs => exact ⟨hn, hcs⟩
    have pieces := Sql.Expr.pieces?_intercalate (h := childItem) (f := childPieces)
      (.ofConnective k) fun c hc => pieces?_childItem (ih c hc (hcs c hc))
    rw [items, childItems_eq, Sql.Expr.ofItems?_of_pieces pieces, toSql, toSqlAll_eq]
    exact Sql.Expr.ofPieces?_row hn (fun c _ => connective?_childPieces c)
      fun c _ => ofTerm?_childPieces c
  | _ => exact ofItems?_atom rfl rfl

theorem leading?_items (c : Condition) : ∀ i ∈ c.items, i.leading? = none := by
  induction c using Condition.induction with
  | always => simp [items, tokens, Item.leading?]
  | compare r op b =>
    cases op <;> simp [items, tokens, ColumnRef.tokens, Operator.tokens, Item.leading?,
      Sql.Keyword.leads]
  | literal r n =>
    cases h : n.toInt <;>
      simp [items, tokens, ColumnRef.tokens, Sql.integerTokens, h, Item.leading?]
  | null r t =>
    cases t <;> simp [items, tokens, ColumnRef.tokens, NullTest.tokens, Item.leading?,
      Sql.Keyword.leads]
  | group k cs ih =>
    rw [items, childItems_eq]
    refine List.forall_mem_intercalate (by cases k <;> rfl) (List.forall_mem_map.2 fun c hc => ?_)
    cases c with
    | group => simp [childItem, Item.leading?]
    | _ => exact ih _ hc

end Condition

/-! ## Selects -/

theorem Column.ofItems?_tokens (r : ColumnRef) :
    Sql.Column.ofItems? (r.tokens.map .token) = some r.toSql := rfl

theorem JoinOn.ofTerm?_tokens (o : JoinOn) :
    Sql.Expr.ofTerm? (o.tokens.map .token) = some o.toSql := by
  cases o with
  | columns l r => rfl
  | literal r n => exact (Condition.literal r n).ofTerm?_childPieces

theorem JoinOn.connective?_tokens (o : JoinOn) :
    ∀ p ∈ o.tokens.map Piece.token, p.connective? = none := by
  cases o with
  | columns l r => simp [tokens, ColumnRef.tokens, Piece.connective?]
  | literal r n => exact (Condition.literal r n).connective?_childPieces

namespace Join

variable {j : Join}

theorem ofItems?_onItems (h : j.on ≠ []) :
    Sql.Expr.ofItems? j.onItems = some (.row .and (j.on.map (·.toSql))) := by
  have pieces := Sql.Expr.pieces?_intercalate (h := fun o => o.tokens.map .token)
    (f := fun o => o.tokens.map .token) (l := j.on) (.ofConnective .and)
    fun o _ => Sql.Expr.pieces?_tokens o.tokens
  rw [onItems, Sql.Expr.ofItems?_of_pieces pieces]
  exact Sql.Expr.ofPieces?_row h (fun o _ => o.connective?_tokens) fun o _ => o.ofTerm?_tokens

theorem ofItems?_clause (h : j.on ≠ []) :
    Sql.Join.ofItems? j.type j.clause.items = some j.toSql := by
  simp [clause, Alias.items, Sql.Join.ofItems?, ofItems?_onItems h, toSql, Alias.toSql]

theorem ofClauses?_append {js : List Join} (h : ∀ j ∈ js, j.on ≠ []) {cs : List Sql.Clause}
    (hcs : ∀ c ∈ cs.head?, Sql.Join.type? c.keyword = none) :
    Sql.Join.ofClauses? (js.map clause ++ cs) = some (js.map (·.toSql), cs) := by
  induction js with
  | nil =>
    cases cs with
    | nil => rfl
    | cons c cs =>
      have hc : Sql.Join.type? c.keyword = none := hcs c rfl
      simp [Sql.Join.ofClauses?, hc]
  | cons j js ih =>
    obtain ⟨hj, hjs⟩ := List.forall_mem_cons.1 h
    have type : Sql.Join.type? j.clause.keyword = some j.type := by
      rw [clause]
      cases j.type <;> rfl
    simp [Sql.Join.ofClauses?, type, ofItems?_clause hj, ih hjs]

end Join

theorem Condition.ofClauses?_append {c : Condition} (h : c.Branching) {cs : List Sql.Clause}
    (hcs : ∀ d ∈ cs.head?, d.keyword ≠ .where) :
    Sql.Expr.ofClauses? (c.clauses ++ cs) = some (c.whereSql, cs) := by
  rw [clauses, whereSql]
  split
  · cases cs with
    | nil => rfl
    | cons d cs =>
      obtain ⟨k, is⟩ := d
      have hk : k ≠ .where := hcs _ rfl
      cases k <;> first | rfl | exact absurd rfl hk
  · simp [Sql.Expr.ofClauses?, ofItems?_items h]

theorem ofClauses?_selectClauses {rs : List ColumnRef} {main : Alias} {js : List Join}
    {c : Condition} (hr : rs ≠ []) (hj : ∀ j ∈ js, j.on ≠ []) (hc : c.Branching)
    {cs : List Sql.Clause} (hcs : ∀ d ∈ cs.head?, d.keyword = .group ∨ d.keyword = .union) :
    Sql.Select.ofClauses? (selectClauses rs main js c ++ cs) =
      some (selectSql rs main js c, cs) := by
  have columns : (([Item.token .comma].intercalate (rs.map (·.tokens.map .token))).splitOnP
      Item.isComma).mapM Sql.Column.ofItems? = some (rs.map (·.toSql)) := by
    rw [List.splitOnP_intercalate rfl (by simpa using hr)]
    · exact Option.mapM_map_eq_some fun r _ => Column.ofItems?_tokens r
    · simp [ColumnRef.tokens, Item.isComma]
  have behind : ∀ d ∈ (c.clauses ++ cs).head?, Sql.Join.type? d.keyword = none := by
    rw [Condition.clauses]
    intro d hd
    split at hd
    · obtain h | h := hcs d hd <;> rw [h] <;> rfl
    · obtain rfl := Option.some.inj hd
      rfl
  have joins := Join.ofClauses?_append hj behind
  have condition := Condition.ofClauses?_append hc fun d hd => by
    obtain h | h := hcs d hd <;> simp [h]
  simp [selectClauses, Sql.Select.ofClauses?, columns, joins, condition, selectSql, Alias.items,
    Sql.Source.ofItems?, Alias.toSql]

/-! ## Expressions and statements -/

structure Select.Branching (s : Select) : Prop where
  joins : ∀ j ∈ s.joins, j.on ≠ []
  condition : s.condition.Branching

def CteBody.Branching : CteBody → Prop
  | select s => s.Branching
  | closure base _ => base.Branching

theorem Select.ofClauses?_clauses {s : Select} (h : s.Branching) {cs : List Sql.Clause}
    (hcs : ∀ d ∈ cs.head?, d.keyword = .group ∨ d.keyword = .union) :
    Sql.Select.ofClauses? (s.clauses ++ cs) = some (s.toSql, cs) :=
  ofClauses?_selectClauses (List.cons_ne_nil _ _) h.joins h.condition hcs

theorem ColumnRef.leading?_tokens (r : ColumnRef) :
    ∀ i ∈ r.tokens.map Item.token, i.leading? = none := by
  simp [tokens, Item.leading?]

theorem Alias.leading?_items (a : Alias) : ∀ i ∈ a.items, i.leading? = none := by
  simp [items, Item.leading?, Sql.Keyword.leads]

theorem Join.proper_clause (j : Join) : j.clause.Proper where
  leads := by
    rw [clause]
    cases j.type <;> rfl
  items := by
    have row : ∀ i ∈ j.onItems, i.leading? = none := by
      refine List.forall_mem_intercalate (P := (Item.leading? · = none)) rfl
        (List.forall_mem_map.2 fun o _ => ?_)
      cases o with
      | columns l r => simp [JoinOn.tokens, ColumnRef.tokens, Item.leading?]
      | literal r n => exact (Condition.literal r n).leading?_items
    simpa [clause, Alias.items, Item.leading?, Sql.Keyword.leads] using row

theorem proper_selectClauses (rs : List ColumnRef) (main : Alias) (js : List Join) (c : Condition) :
    ∀ d ∈ selectClauses rs main js c, d.Proper := by
  have columns : ∀ i ∈ [Item.token .comma].intercalate (rs.map (·.tokens.map .token)),
      i.leading? = none :=
    List.forall_mem_intercalate (P := (Item.leading? · = none)) rfl
      (List.forall_mem_map.2 fun r _ => r.leading?_tokens)
  have condition : ∀ d ∈ c.clauses, d.Proper := by
    rw [Condition.clauses]
    split
    · exact List.forall_mem_nil _
    · exact List.forall_mem_singleton.2 ⟨rfl, c.leading?_items⟩
  exact List.forall_mem_cons.2 ⟨⟨rfl, columns⟩, List.forall_mem_cons.2 ⟨⟨rfl, main.leading?_items⟩,
    List.forall_mem_append.2 ⟨List.forall_mem_map.2 fun j _ => j.proper_clause, condition⟩⟩⟩

namespace Cte

theorem ofClauses?_stepClauses (c : Cte) (step : ClosureStep) :
    Sql.Select.ofClauses? (c.stepClauses step) = some (c.stepSql step, []) := rfl

theorem proper_stepClauses (c : Cte) (step : ClosureStep) : ∀ d ∈ c.stepClauses step, d.Proper := by
  simp only [stepClauses, List.forall_mem_cons]
  refine ⟨⟨rfl, ColumnRef.leading?_tokens _⟩, ⟨rfl, Alias.leading?_items _⟩, ⟨rfl, ?_⟩,
    List.forall_mem_nil _⟩
  simp [ColumnRef.tokens, Item.leading?, Sql.Keyword.leads]

theorem proper_bodyClauses (c : Cte) : ∀ d ∈ c.bodyClauses, d.Proper := by
  obtain ⟨name, column, body⟩ := c
  cases body with
  | select s => exact proper_selectClauses _ _ _ _
  | closure base step =>
    exact List.forall_mem_append.2 ⟨proper_selectClauses _ _ _ _,
      List.forall_mem_cons.2 ⟨⟨rfl, List.forall_mem_nil _⟩, proper_stepClauses _ _⟩⟩

theorem ofClauses?_bodyClauses {c : Cte} (h : c.body.Branching) :
    Sql.Body.ofClauses? c.bodyClauses = some c.toSql.body := by
  obtain ⟨name, column, body⟩ := c
  cases body with
  | select s =>
    have behind : ∀ d ∈ ([] : List Sql.Clause).head?, d.keyword = .group ∨ d.keyword = .union := by
      simp
    have select := Select.ofClauses?_clauses h behind
    rw [List.append_nil] at select
    simp [bodyClauses, Sql.Body.ofClauses?, select, toSql]
  | closure base step =>
    have union (cs : List Sql.Clause) :
        Sql.Select.ofClauses? (base.clauses ++ ⟨.union, []⟩ :: cs) =
          some (base.toSql, ⟨.union, []⟩ :: cs) :=
      Select.ofClauses?_clauses h (by simp)
    simp [bodyClauses, Sql.Body.ofClauses?, union, ofClauses?_stepClauses, toSql]

theorem ofItems?_items {c : Cte} (h : c.body.Branching) :
    Sql.Cte.ofItems? c.items = some c.toSql := by
  rw [items, Sql.Cte.ofItems?, Sql.Clause.ofItems?_flatMap c.proper_bodyClauses]
  simp [ofClauses?_bodyClauses h, toSql]

end Cte

namespace Statement

structure Branching (s : Statement) : Prop where
  columns : s.columns ≠ []
  joins : ∀ j ∈ s.joins, j.on ≠ []
  condition : s.condition.Branching
  ctes : ∀ c ∈ s.ctes, c.body.Branching

theorem proper_clauses (s : Statement) : ∀ d ∈ s.clauses, d.Proper := by
  have expressions : ∀ d ∈ s.cteClauses, d.Proper := by
    rw [cteClauses]
    split
    · exact List.forall_mem_nil _
    · refine List.forall_mem_singleton.2 ⟨rfl, List.forall_mem_cons.2 ⟨rfl, ?_⟩⟩
      refine List.forall_mem_intercalate (P := (Item.leading? · = none)) rfl
        (List.forall_mem_map.2 fun c _ => ?_)
      simp [Cte.items, Item.leading?, Sql.Keyword.leads]
  have order : ∀ i ∈ s.order.items s.main, i.leading? = none := by
    cases s.order with
    | random => simp [Order.items, Item.leading?]
    | «by» f d => cases d <;> simp [Order.items, ColumnRef.tokens, Item.leading?,
        Direction.sqlKeyword, Sql.Keyword.leads]
  have limit : ∀ d ∈ s.limitClauses, d.Proper := by
    rw [limitClauses]
    cases s.limit with
    | none => exact List.forall_mem_nil _
    | some n => exact List.forall_mem_singleton.2 ⟨rfl, by simp [Item.leading?]⟩
  rw [clauses, lastClauses]
  refine List.forall_mem_append.2 ⟨List.forall_mem_append.2
    ⟨expressions, proper_selectClauses _ _ _ _⟩, ?_⟩
  exact List.forall_mem_cons.2 ⟨⟨rfl, List.forall_mem_cons.2 ⟨rfl, ColumnRef.leading?_tokens _⟩⟩,
    List.forall_mem_cons.2 ⟨⟨rfl, List.forall_mem_cons.2 ⟨rfl, order⟩⟩, limit⟩⟩

theorem ofClauses?_cteClauses {s : Statement} (h : ∀ c ∈ s.ctes, c.body.Branching)
    {cs : List Sql.Clause} (hcs : ∀ d ∈ cs.head?, d.keyword = .select) :
    Sql.Cte.ofClauses? (s.cteClauses ++ cs) = some (s.ctes.map (·.toSql), cs) := by
  rw [cteClauses]
  split
  · rename_i he
    rw [List.isEmpty_iff.1 he]
    cases cs with
    | nil => rfl
    | cons d cs =>
      obtain ⟨k, is⟩ := d
      obtain rfl : k = .select := hcs _ rfl
      rfl
  · rename_i he
    have ctes : (([Item.token .comma].intercalate (s.ctes.map (·.items))).splitOnP
        Item.isComma).mapM Sql.Cte.ofItems? = some (s.ctes.map (·.toSql)) := by
      rw [List.splitOnP_intercalate rfl (by simpa using he)]
      · exact Option.mapM_map_eq_some fun c hc => Cte.ofItems?_items (h c hc)
      · simp [Cte.items, Item.isComma]
    simp [Sql.Cte.ofClauses?, ctes]

theorem ofItems?_order (s : Statement) :
    Sql.Arrangement.ofItems? (s.order.items s.main) = some (s.order.toSql s.main) := by
  cases s.order with
  | random => exact if_pos (by decide +kernel)
  | «by» f d => cases d <;> rfl

theorem limit?_limitClauses (s : Statement) :
    Sql.Statement.limit? s.limitClauses = some (s.limit.map (·.toNat)) := by
  rw [limitClauses]
  cases s.limit <;> rfl

theorem ofClauses?_clauses {s : Statement} (h : s.Branching) :
    Sql.Statement.ofClauses? s.clauses = some s.toSql := by
  have select : Sql.Select.ofClauses?
      (selectClauses s.columnRefs s.main s.joins s.condition ++ s.lastClauses) =
        some (selectSql s.columnRefs s.main s.joins s.condition, s.lastClauses) :=
    ofClauses?_selectClauses (by simpa [columnRefs] using h.columns) h.joins h.condition
      (by simp [lastClauses])
  rw [clauses, List.append_assoc, Sql.Statement.ofClauses?,
    ofClauses?_cteClauses h.ctes (by simp [selectClauses])]
  simp only [Option.bind_eq_bind, Option.bind_some, select]
  simp [lastClauses, Column.ofItems?_tokens, ofItems?_order, limit?_limitClauses, toSql]

/-- The text of a statement is read as the statement. -/
theorem read?_sql {s : Statement} (hi : s.Identified) (hb : s.Branching) :
    Sql.read? s.sql s.bindings = some s.toSql := by
  have lexed : Sql.lex s.sql s.bindings = _ := hi.lexes_sql
  simp [Sql.read?, lexed, Sql.nest?_writeAll, Sql.Clause.ofItems?_flatMap s.proper_clauses,
    ofClauses?_clauses hb]

end Statement

end Lexiquery
