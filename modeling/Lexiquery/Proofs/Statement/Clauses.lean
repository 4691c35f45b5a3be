import Lexiquery.Proofs.Sql.Writing
import Lexiquery.Proofs.Statement.Wording

/-! What a statement is made of as a text of SQL: clauses of words and signs, with parentheses
around the groups inside of groups and around the bodies of expressions. -/

namespace Lexiquery

open Sql (Item Lexes Separates Token writeAll isIdentifier)

structure ColumnRef.Identified (r : ColumnRef) : Prop where
  source : isIdentifier r.table.source.text = true
  column : isIdentifier r.column = true

def ColumnRef.tokens (r : ColumnRef) : List Token := [.name r.table.text, .dot, .name r.column]

def Operator.tokens : Operator → List Token
  | like => [.keyword .like]
  | notLike => [.keyword .not, .keyword .like]
  | op => [.operator op]

def NullTest.tokens : NullTest → List Token
  | isNull => [.keyword .is, .keyword .null]
  | isNotNull => [.keyword .is, .keyword .not, .keyword .null]

namespace Condition

def tokens : Condition → List Token
  | always => [.number 1]
  | compare r op b => r.tokens ++ op.tokens ++ [.value b]
  | literal r n => r.tokens ++ [.operator .equals] ++ Sql.integerTokens n.toInt
  | null r t => r.tokens ++ t.tokens
  | group .. => []

mutual

def items : Condition → List Item
  | group c children => [.token (.ofConnective c)].intercalate (childItems children)
  | c => c.tokens.map .token

def childItems : List Condition → List (List Item)
  | [] => []
  | group c children :: rest => [.parens (group c children).items] :: childItems rest
  | child :: rest => child.items :: childItems rest

end

def childItem : Condition → List Item
  | group c children => [.parens (group c children).items]
  | c => c.items

theorem childItems_eq (cs : List Condition) : childItems cs = cs.map childItem := by
  induction cs with
  | nil => rfl
  | cons c cs ih => cases c <;> simp [childItems, childItem, ih]

def clauses (c : Condition) : List Sql.Clause :=
  if c.isAlways then [] else [⟨.where, c.items⟩]

end Condition

def Alias.items (a : Alias) : List Item :=
  [.token (.name a.source.text), .token (.keyword .as), .token (.name a.text)]

def JoinOn.tokens : JoinOn → List Token
  | columns l r => l.tokens ++ [.operator .equals] ++ r.tokens
  | literal r n => (Condition.literal r n).tokens

def JoinType.sqlKeyword : JoinType → Sql.Keyword
  | inner => .inner
  | left => .left

namespace Join

def onItems (j : Join) : List Item :=
  [.token (.ofConnective .and)].intercalate (j.on.map (·.tokens.map .token))

def clause (j : Join) : Sql.Clause where
  keyword := j.type.sqlKeyword
  items := .token (.keyword .join) :: j.table.items ++ .token (.keyword .on) :: j.onItems

end Join

def selectClauses (columns : List ColumnRef) (main : Alias) (joins : List Join) (c : Condition) :
    List Sql.Clause :=
  ⟨.select, [.token .comma].intercalate (columns.map (·.tokens.map .token))⟩ ::
    ⟨.from, main.items⟩ :: joins.map Join.clause ++ c.clauses

def Select.clauses (s : Select) : List Sql.Clause :=
  selectClauses [s.column] s.column.table s.joins s.condition

namespace Cte

def stepClauses (c : Cte) (step : ClosureStep) : List Sql.Clause :=
  [⟨.select, (ColumnRef.tokens ⟨step.relation, step.joinColumn⟩).map .token⟩,
    ⟨.from, step.relation.items⟩,
    ⟨.inner, [.token (.keyword .join), .token (.name c.name.text), .token (.keyword .on)] ++
      List.map Item.token (ColumnRef.tokens ⟨step.relation, step.foreignJoinColumn⟩ ++
        [.operator .equals, .name c.name.text, .dot, .name c.column])⟩]

def bodyClauses (c : Cte) : List Sql.Clause :=
  match c.body with
  | .select s => s.clauses
  | .closure base step => base.clauses ++ ⟨.union, []⟩ :: c.stepClauses step

def items (c : Cte) : List Item :=
  [.token (.name c.name.text), .parens [.token (.name c.column)], .token (.keyword .as),
    .parens (c.bodyClauses.flatMap Sql.Clause.whole)]

end Cte

def Direction.sqlKeyword : Direction → Sql.Keyword
  | ascending => .asc
  | descending => .desc

def Order.items (main : Alias) : Order → List Item
  | random => [.token (.name "RANDOM"), .parens []]
  | .by f d => List.map Item.token (ColumnRef.tokens ⟨main, f.column⟩ ++ [.keyword d.sqlKeyword])

namespace Statement

def cteClauses (s : Statement) : List Sql.Clause :=
  if s.ctes.isEmpty then []
  else [⟨.with, .token (.keyword .recursive) ::
    [.token .comma].intercalate (s.ctes.map (·.items))⟩]

def limitClauses (s : Statement) : List Sql.Clause :=
  (s.limit.map fun n => ⟨.limit, [.token (.number n.toNat)]⟩).toList

def lastClauses (s : Statement) : List Sql.Clause :=
  ⟨.group, .token (.keyword .by) :: (ColumnRef.tokens ⟨s.main, s.groupColumn⟩).map .token⟩ ::
    ⟨.order, .token (.keyword .by) :: s.order.items s.main⟩ :: s.limitClauses

def clauses (s : Statement) : List Sql.Clause :=
  s.cteClauses ++ selectClauses s.columnRefs s.main s.joins s.condition ++ s.lastClauses

end Statement

theorem Sql.Lexes.intercalate {α : Type} {f : α → String} {g : α → List Binding}
    {h : α → List Item} {sep : String} {t : Token} (hs : Separates sep [.token t]) {l : List α}
    (hl : ∀ x ∈ l, Lexes (f x) (g x) (writeAll (h x))) :
    Lexes (sep.intercalate (l.map f)) (l.flatMap g)
      (writeAll ([.token t].intercalate (l.map h))) := by
  induction l with
  | nil => exact (by decide : Lexes "" [] [])
  | cons x l ih =>
    obtain ⟨hx, hl⟩ := List.forall_mem_cons.1 hl
    cases l with
    | nil => simpa using hx
    | cons y l =>
      rw [List.map_cons, List.map_cons, String.intercalate_cons_cons, List.flatMap_cons,
        List.map_cons, List.map_cons, List.intercalate_cons_cons]
      simpa using hs.between hx (ih hl)

theorem Sql.Lexes.row {α : Type} {f : α → String} {h : α → List Token} {sep : String} {t : Token}
    (hs : Separates sep [.token t]) {l : List α}
    (hl : ∀ x ∈ l, Lexes (f x) [] ((h x).map .token)) :
    Lexes (sep.intercalate (l.map f)) []
      (writeAll ([.token t].intercalate (l.map fun x => (h x).map .token))) := by
  have none : l.flatMap (fun _ => ([] : List Binding)) = [] := by simp [List.flatMap_eq_nil_iff]
  rw [← none]
  exact intercalate hs fun x hx => by simpa using hl x hx

theorem Alias.lexes_text {a : Alias} (h : isIdentifier a.source.text = true) :
    Lexes a.text [] [.token (.name a.text)] :=
  Sql.lexes_identifier (Sql.isIdentifier_numbered h _)

theorem ColumnRef.lexes_text {r : ColumnRef} (h : r.Identified) :
    Lexes r.text [] (r.tokens.map .token) :=
  Separates.dot.between (Alias.lexes_text h.source) (Sql.lexes_identifier h.column)

namespace Condition

section

variable {P : ColumnRef → Prop} {r : ColumnRef}

theorem names_compare_iff {op : Operator} {b : Binding} : (compare r op b).Names P ↔ P r := by
  simp [Names, mentions]

theorem names_literal_iff {n : Int64} : (literal r n).Names P ↔ P r := by
  simp [Names, mentions]

theorem names_null_iff {t : NullTest} : (null r t).Names P ↔ P r := by
  simp [Names, mentions]

theorem bindingsAll_eq (cs : List Condition) : bindingsAll cs = cs.flatMap bindings := by
  induction cs <;> simp [bindingsAll, *]

end

theorem lexes_literal {r : ColumnRef} (h : r.Identified) (n : Int64) :
    Lexes (literal r n).text [] ((literal r n).tokens.map .token) := by
  rw [tokens, List.map_append, List.map_append]
  exact Separates.equals.between (ColumnRef.lexes_text h) (Sql.lexes_int n.toInt)

theorem lexes_text {c : Condition} (h : c.Names ColumnRef.Identified) :
    Lexes c.text c.bindings (writeAll c.items) := by
  induction c using Condition.induction with
  | always => exact (by decide : Lexes "1" [] [.token (.number 1)])
  | compare r op b =>
    have column := ColumnRef.lexes_text (names_compare_iff.1 h)
    have operator : Lexes op.text [] (op.tokens.map .token) := by cases op <;> decide
    have mark : Lexes " ?" [b] [.token (.value b)] := rfl
    have h : Lexes (compare r op b).text [b] _ :=
      (Separates.blank.between column operator).append mark (Sql.Leads.apart (by decide) _)
    simpa [items, tokens, bindings] using h
  | literal r n =>
    have h := lexes_literal (names_literal_iff.1 h) n
    simpa [items, bindings] using h
  | null r t =>
    have column := ColumnRef.lexes_text (names_null_iff.1 h)
    have test : Lexes t.text [] (t.tokens.map .token) := by cases t <;> decide
    have h : Lexes (null r t).text [] _ := Separates.blank.between column test
    simpa [items, tokens, bindings] using h
  | group k cs ih =>
    have connective : Separates s!" {k.keyword} " [.token (.ofConnective k)] := by
      cases k <;> decide
    rw [Condition.text, Condition.bindings, Condition.items, childTexts_eq, childItems_eq,
      bindingsAll_eq]
    refine Lexes.intercalate connective fun c hm => ?_
    have hc := ih c hm (h.of_group c hm)
    cases c with
    | group k cs =>
      have h : Lexes (childText (group k cs)) _ _ :=
        Separates.closing.behind (Separates.opening.before hc)
      simpa [childItem] using h
    | _ => exact hc

theorem lexes_whereText {c : Condition} (h : c.Names ColumnRef.Identified) :
    Lexes c.whereText c.bindings (writeAll (c.clauses.flatMap Sql.Clause.whole)) := by
  have keyword : Separates " WHERE " [.token (.keyword .where)] := by decide
  rw [whereText, clauses]
  split
  · rename_i ha
    cases c with
    | always => exact (by decide : Lexes "" [] [])
    | _ => cases ha
  · have h : Lexes s!" WHERE {c.text}" c.bindings _ := keyword.before (lexes_text h)
    simpa [Sql.Clause.whole] using h

theorem apart_whereText (s : String) (c : Condition) : Sql.Apart s c.whereText := by
  rw [whereText]
  split
  · exact Sql.apart_empty s
  · exact (Sql.Leads.append (by decide : Sql.Leads " WHERE ") _).apart s

end Condition

theorem Alias.lexes_fromText {a : Alias} (h : isIdentifier a.source.text = true) :
    Lexes a.fromText [] (writeAll (Sql.Clause.whole ⟨.from, a.items⟩)) := by
  have keyword : Separates " FROM " [.token (.keyword .from)] := by decide
  exact Separates.as.between (keyword.before (Sql.lexes_identifier h)) (lexes_text h)

theorem Alias.leads_fromText (a : Alias) : Sql.Leads a.fromText :=
  ((Sql.Leads.append (by decide : Sql.Leads " FROM ") _).append _).append _

theorem JoinOn.lexes_text {o : JoinOn} (h : ∀ r ∈ o.refs, r.Identified) :
    Lexes o.text [] (o.tokens.map .token) := by
  cases o with
  | columns l r =>
    obtain ⟨hl, hr⟩ : l.Identified ∧ r.Identified := by simpa [refs] using h
    have h : Lexes (columns l r).text [] _ :=
      Separates.equals.between (ColumnRef.lexes_text hl) (ColumnRef.lexes_text hr)
    simpa [tokens] using h
  | literal r n => exact Condition.lexes_literal (by simpa [refs] using h) n

namespace Join

theorem lexes_onText {j : Join} (h : j.Names ColumnRef.Identified) :
    Lexes (" AND ".intercalate (j.on.map (·.text))) [] (writeAll j.onItems) := by
  have and : Separates " AND " [.token (.ofConnective .and)] := by decide
  exact .row and fun o ho => JoinOn.lexes_text (h.2 o ho)

theorem lexes_text {j : Join} (h : j.Names ColumnRef.Identified) :
    Lexes j.text [] (writeAll j.clause.whole) := by
  obtain ⟨column, hc⟩ := h.1
  have type : Lexes j.type.keyword []
      [.token (.keyword j.type.sqlKeyword), .token (.keyword .join)] := by
    cases j.type <;> decide
  have source :=
    Separates.blank.between (Separates.blank.before type) (Sql.lexes_identifier hc.source)
  have aliased := Separates.as.between source (Alias.lexes_text hc.source)
  have h : Lexes j.text [] _ := Separates.on.between aliased (lexes_onText h)
  simpa [Sql.Clause.whole, clause, Alias.items] using h

theorem leads_text (j : Join) : Sql.Leads j.text :=
  (((((((by decide : Sql.Leads " ").append _).append _).append _).append _).append _).append
    _).append _

theorem lexes_texts {js : List Join} (h : ∀ j ∈ js, j.Names ColumnRef.Identified) :
    Lexes (String.join (js.map (·.text))) []
      (writeAll ((js.map clause).flatMap Sql.Clause.whole)) := by
  induction js with
  | nil => exact (by decide : Lexes "" [] [])
  | cons j js ih =>
    obtain ⟨hj, hjs⟩ := List.forall_mem_cons.1 h
    rw [List.map_cons, String.join_cons]
    simpa using (lexes_text hj).append (ih hjs) (Sql.apart_join (by simp [leads_text]) _)

end Join

theorem lexes_columns {rs : List ColumnRef} (h : ∀ r ∈ rs, r.Identified) :
    Lexes (", ".intercalate (rs.map (·.text))) []
      (writeAll ([.token .comma].intercalate (rs.map (·.tokens.map .token)))) := by
  exact .row Separates.comma fun r hr => ColumnRef.lexes_text (h r hr)

theorem lexes_select {rs : List ColumnRef} {main : Alias} {js : List Join} {c : Condition}
    (hr : ∀ r ∈ rs, r.Identified) (hm : isIdentifier main.source.text = true)
    (hj : ∀ j ∈ js, j.Names ColumnRef.Identified) (hc : c.Names ColumnRef.Identified) :
    Lexes ("SELECT " ++ ", ".intercalate (rs.map (·.text)) ++ main.fromText ++
        String.join (js.map (·.text)) ++ c.whereText) c.bindings
      (writeAll ((selectClauses rs main js c).flatMap Sql.Clause.whole)) := by
  have keyword : Lexes "SELECT " [] [.token (.keyword .select)] := by decide
  have columns := keyword.append (lexes_columns hr) (Sql.Ends.apart (by decide) _)
  have source := columns.append (Alias.lexes_fromText hm) (main.leads_fromText.apart _)
  have joins := source.append (Join.lexes_texts hj) (Sql.apart_join (by simp [Join.leads_text]) _)
  have h := joins.append (Condition.lexes_whereText hc) (Condition.apart_whereText _ _)
  simpa [selectClauses, Sql.Clause.whole] using h

theorem Select.lexes_text {s : Select} (h : s.Names ColumnRef.Identified) :
    Lexes s.text s.bindings (writeAll (s.clauses.flatMap Sql.Clause.whole)) := by
  have column : ∀ r ∈ [s.column], r.Identified := List.forall_mem_singleton.2 h.column
  have h := lexes_select column h.column.source h.joins h.condition
  rw [List.map_singleton, String.intercalate_singleton] at h
  exact h

namespace Cte

variable {c : Cte}

theorem lexes_stepText {step : ClosureStep} (hn : isIdentifier c.name.text = true)
    (hc : isIdentifier c.column = true)
    (hj : ColumnRef.Identified ⟨step.relation, step.joinColumn⟩)
    (hf : ColumnRef.Identified ⟨step.relation, step.foreignJoinColumn⟩) :
    Lexes (c.stepText step) [] (writeAll ((c.stepClauses step).flatMap Sql.Clause.whole)) := by
  have select : Lexes "SELECT " [] [.token (.keyword .select)] := by decide
  have join : Separates " INNER JOIN " [.token (.keyword .inner), .token (.keyword .join)] := by
    decide
  have name := Sql.lexes_identifier hn
  have relation := Alias.lexes_text hj.source
  have column := Separates.dot.between (select.append relation (Sql.Ends.apart (by decide) _))
    (Sql.lexes_identifier hj.column)
  have source := column.append (Alias.lexes_fromText hj.source)
    ((Alias.leads_fromText _).apart _)
  have partner := Separates.dot.between (Separates.on.between (join.between source name) relation)
    (Sql.lexes_identifier hf.column)
  have joined :=
    Separates.dot.between (Separates.equals.between partner name) (Sql.lexes_identifier hc)
  simpa [stepText, stepClauses, Sql.Clause.whole, ColumnRef.tokens, Alias.items, toString,
    String.append_assoc] using joined

theorem lexes_bodyText (hb : c.body.Names ColumnRef.Identified)
    (hn : isIdentifier c.name.text = true) (hc : isIdentifier c.column = true) :
    Lexes c.bodyText c.bindings (writeAll (c.bodyClauses.flatMap Sql.Clause.whole)) := by
  obtain ⟨name, column, body⟩ := c
  cases body with
  | select s => exact Select.lexes_text hb
  | closure base step =>
    obtain ⟨hb, hj, hf⟩ := hb
    have union : Separates unionText [.token (.keyword .union)] := by decide
    have h : Lexes (bodyText ⟨name, column, .closure base step⟩) _ _ :=
      union.between (Select.lexes_text hb) (lexes_stepText hn hc hj hf)
    simpa [bodyClauses, bindings, Sql.Clause.whole] using h

theorem lexes_text (hb : c.body.Names ColumnRef.Identified)
    (hn : isIdentifier c.name.text = true) (hc : isIdentifier c.column = true) :
    Lexes c.text c.bindings (writeAll c.items) := by
  have as : Separates ") AS (" [.closing, .token (.keyword .as), .opening] := by decide
  have head := Separates.opening.between (Sql.lexes_identifier hn) (Sql.lexes_identifier hc)
  have h : Lexes c.text c.bindings _ :=
    Separates.closing.behind (as.between head (lexes_bodyText hb hn hc))
  simpa [items] using h

end Cte

namespace Statement

theorem lexes_limitText (s : Statement) :
    Lexes s.limitText [] (writeAll (s.limitClauses.flatMap Sql.Clause.whole)) := by
  rw [limitText, limitClauses]
  cases s.limit with
  | none => exact (by decide : Lexes "" [] [])
  | some n =>
    have keyword : Separates " LIMIT " [.token (.keyword .limit)] := by decide
    have h : Lexes s!" LIMIT {n}" [] _ := keyword.before (Sql.lexes_nat n.toNat)
    simpa [Sql.Clause.whole] using h

theorem apart_withText (s : Statement) (t : String) : Sql.Apart s.withText t := by
  rw [withText]
  split
  · exact nofun
  · exact (Sql.Ends.append (by decide : Sql.Ends " ") _).apart t

theorem leads_groupText (s : Statement) : Sql.Leads s.groupText :=
  ((Sql.Leads.append (by decide : Sql.Leads " GROUP BY ") _).append _).append _

theorem leads_orderText (s : Statement) : Sql.Leads (s.order.text s.main) := by
  cases s.order with
  | random => exact (by decide : Sql.Leads " ORDER BY RANDOM()")
  | «by» f d =>
    exact ((((Sql.Leads.append (by decide : Sql.Leads " ORDER BY ") _).append _).append _).append
      _).append _

theorem apart_limitText (s : Statement) (t : String) : Sql.Apart t s.limitText := by
  rw [limitText]
  cases s.limit with
  | none => exact Sql.apart_empty t
  | some n => exact (Sql.Leads.append (by decide : Sql.Leads " LIMIT ") _).apart t

structure Identified (s : Statement) : Prop extends s.Names ColumnRef.Identified where
  cteNames : ∀ c ∈ s.ctes, isIdentifier c.name.text = true ∧ isIdentifier c.column = true

variable {s : Statement} (h : s.Identified)
include h

theorem Identified.lexes_withText :
    Lexes s.withText (s.ctes.flatMap (·.bindings))
      (writeAll (s.cteClauses.flatMap Sql.Clause.whole)) := by
  rw [withText, cteClauses]
  split
  · rename_i he
    rw [List.isEmpty_iff.1 he]
    exact (by decide : Lexes "" [] [])
  · have lead : Lexes withKeyword [] [.token (.keyword .with), .token (.keyword .recursive)] := by
      decide +kernel
    have row := Lexes.intercalate Separates.comma fun c hc =>
      Cte.lexes_text (h.ctes c hc) (h.cteNames c hc).1 (h.cteNames c hc).2
    have h := Separates.blank.behind (lead.append row (Sql.Ends.apart (by decide) _))
    simpa [Sql.Clause.whole] using h

theorem Identified.lexes_groupText :
    Lexes s.groupText [] (writeAll (Sql.Clause.whole
      ⟨.group, .token (.keyword .by) ::
        (ColumnRef.tokens ⟨s.main, s.groupColumn⟩).map .token⟩)) := by
  have keyword : Separates " GROUP BY " [.token (.keyword .group), .token (.keyword .by)] := by
    decide
  have column := Sql.lexes_identifier h.group.column
  have h : Lexes s.groupText [] _ :=
    Separates.dot.between (keyword.before (Alias.lexes_text h.group.source)) column
  simpa [Sql.Clause.whole, ColumnRef.tokens] using h

theorem Identified.lexes_orderText :
    Lexes (s.order.text s.main) [] (writeAll (Sql.Clause.whole
      ⟨.order, .token (.keyword .by) :: s.order.items s.main⟩)) := by
  cases ho : s.order with
  | random =>
    exact (by decide +kernel : Lexes " ORDER BY RANDOM()" [] [.token (.keyword .order),
      .token (.keyword .by), .token (.name "RANDOM"), .opening, .closing])
  | «by» f d =>
    have keyword : Separates " ORDER BY " [.token (.keyword .order), .token (.keyword .by)] := by
      decide
    have direction : Lexes d.keyword [] [.token (.keyword d.sqlKeyword)] := by cases d <;> decide
    have main := Alias.lexes_text (h.order f d ho).source
    have column := Sql.lexes_identifier (h.order f d ho).column
    have h : Lexes ((Order.by f d).text s.main) [] _ :=
      Separates.blank.between (Separates.dot.between (keyword.before main) column) direction
    simpa [Sql.Clause.whole, Order.items, ColumnRef.tokens] using h

theorem Identified.lexes_sql :
    Lexes s.sql s.bindings (writeAll (s.clauses.flatMap Sql.Clause.whole)) := by
  have select := lexes_select h.columns h.group.source h.joins h.condition
  have expressions := h.lexes_withText.append select (s.apart_withText _)
  have group := expressions.append h.lexes_groupText (s.leads_groupText.apart _)
  have order := group.append h.lexes_orderText (s.leads_orderText.apart _)
  have h := order.append (lexes_limitText s) (s.apart_limitText _)
  simpa [sql, head, clauses, lastClauses, bindings, String.append_assoc] using h

end Statement

end Lexiquery
