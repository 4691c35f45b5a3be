import Lexiquery.Proofs.Statement.Running

/-! How the text of a statement is put together. Names, numbers and keywords bring no placeholder;
comparisons bring one each, behind their column and operator. So a relation between texts and the
comparisons in them holds of the whole text once it holds of these pieces. -/

namespace Lexiquery

def Placeholder.text (q : Placeholder) : String := s!"{q.column.text} {q.op.text} ?"

namespace Condition

def childText : Condition → String
  | group c children => s!"({(group c children).text})"
  | c => c.text

theorem childTexts_eq (cs : List Condition) : childTexts cs = cs.map childText := by
  induction cs with
  | nil => rfl
  | cons c cs ih => cases c <;> simp [childTexts, childText, ih]

end Condition

/-! ## Characters -/

variable {P : Char → Prop}

def Spelled (P : Char → Prop) (s : String) : Prop := ∀ c ∈ s.toList, P c

@[simp] theorem spelled_append {s t : String} :
    Spelled P (s ++ t) ↔ Spelled P s ∧ Spelled P t := by
  simp [Spelled, or_imp, forall_and]

theorem spelled_join {ss : List String} (h : ∀ s ∈ ss, Spelled P s) :
    Spelled P (String.join ss) := by
  simpa [Spelled] using fun c s hs => h s hs c

theorem spelled_intercalate {sep : String} (hs : Spelled P sep) {ss : List String}
    (h : ∀ s ∈ ss, Spelled P s) : Spelled P (sep.intercalate ss) := by
  induction ss with
  | nil => simp [Spelled]
  | cons s ss ih =>
    obtain ⟨h₁, h₂⟩ := List.forall_mem_cons.1 h
    cases ss with
    | nil => rwa [String.intercalate_singleton]
    | cons => simpa [String.intercalate_cons_cons, hs, h₁] using ih h₂

/-- A property of the characters that names and numbers are made of, and of the dot between the name
of a table and that of a column. -/
def Naming (P : Char → Prop) : Prop :=
  ∀ c, (c.isLower || c.isDigit || c == '_' || c == '.' || c == '-') = true → P c

@[simp]
def isName (s : String) : Bool := s.toList.all fun c => c.isLower || c.isDigit || c == '_'

namespace Naming

variable (hP : Naming P)
include hP

theorem spelled {s : String} (h : isName s = true) : Spelled P s := by
  intro c hc
  have name := List.all_eq_true.1 h c hc
  exact hP c (by simp_all)

theorem spelled_nat (n : Nat) : Spelled P n.repr := by
  intro c hc
  have hd : c.isDigit = true := by
    refine Nat.isDigit_of_mem_toDigits (n := n) (b := 10) (by decide) (by decide) ?_
    simpa using hc
  exact hP c (by simp [hd])

theorem spelled_int (n : Int) : Spelled P n.repr := by
  cases n with
  | ofNat n => exact hP.spelled_nat n
  | negSucc n =>
    change Spelled P ("-" ++ (n + 1).repr)
    exact spelled_append.2 ⟨by simp [Spelled, hP '-' (by decide)], hP.spelled_nat _⟩

theorem spelled_alias {a : Alias} : Spelled P a.text ↔ Spelled P a.source.text := by
  have underscore : Spelled P "_" := hP.spelled (by decide)
  simp [Alias.text, toString, hP.spelled_nat, underscore]

theorem spelled_cteName {n : CteName} : Spelled P n.text ↔ Spelled P n.table := by
  have tree : Spelled P "_tree_" := hP.spelled (by decide)
  simp [CteName.text, toString, hP.spelled_nat, tree]

theorem spelled_columnRef {r : ColumnRef} :
    Spelled P r.text ↔ Spelled P r.table.source.text ∧ Spelled P r.column := by
  have dot : Spelled P "." := by simp [Spelled, hP '.' (by decide)]
  simp [ColumnRef.text, toString, hP.spelled_alias, dot]

end Naming

/-- A property of all characters, save for the mark of placeholders and for the first letter of the
keywords that lead in expressions and conditions. -/
def Ordinary (P : Char → Prop) : Prop := ∀ c, c ≠ 'W' → c ≠ '?' → P c

@[simp]
def isPlain (s : String) : Bool := s.toList.all fun c => c != 'W' && c != '?'

namespace Ordinary

variable (hP : Ordinary P)
include hP

theorem naming : Naming P := fun c hc =>
  hP c (by rintro rfl; simp at hc) (by rintro rfl; simp at hc)

theorem spelled {s : String} (h : isPlain s = true) : Spelled P s := by
  intro c hc
  have := List.all_eq_true.1 h c hc
  simp only [Bool.and_eq_true, bne_iff_ne] at this
  exact hP c this.1 this.2

theorem spelled_nat (n : Nat) : Spelled P n.repr := hP.naming.spelled_nat n

theorem spelled_int (n : Int) : Spelled P n.repr := hP.naming.spelled_int n

theorem spelled_alias {a : Alias} : Spelled P a.text ↔ Spelled P a.source.text :=
  hP.naming.spelled_alias

theorem spelled_columnRef {r : ColumnRef} :
    Spelled P r.text ↔ Spelled P r.table.source.text ∧ Spelled P r.column :=
  hP.naming.spelled_columnRef

theorem spelled_joinOn {o : JoinOn} (h : ∀ r ∈ o.refs, Spelled P r.text) : Spelled P o.text := by
  cases o with
  | columns l r =>
    obtain ⟨hl, hr⟩ : Spelled P l.text ∧ Spelled P r.text := by simpa [JoinOn.refs] using h
    simp [JoinOn.text, toString, hP.spelled, hl, hr]
  | literal r n =>
    have hr : Spelled P r.text := by simpa [JoinOn.refs] using h
    have hn : Spelled P n.toInt.repr := hP.spelled_int _
    simpa [JoinOn.text, toString, hP.spelled, hr] using hn

theorem spelled_join {j : Join} (h : j.Names (Spelled P ·.text)) : Spelled P j.text := by
  obtain ⟨⟨column, hj⟩, hon⟩ := h
  have on : Spelled P (" AND ".intercalate (j.on.map (·.text))) :=
    spelled_intercalate (hP.spelled (by decide))
      (List.forall_mem_map.2 fun o ho => hP.spelled_joinOn (hon o ho))
  have type : Spelled P j.type.keyword := by cases j.type <;> simp [JoinType.keyword, hP.spelled]
  simp [Join.text, toString, hP.spelled, hP.spelled_alias, type, on,
    (hP.spelled_columnRef.1 hj).1]

theorem spelled_joins {js : List Join} (h : ∀ j ∈ js, j.Names (Spelled P ·.text)) :
    Spelled P (String.join (js.map (·.text))) :=
  Lexiquery.spelled_join (List.forall_mem_map.2 fun j hj => hP.spelled_join (h j hj))

theorem spelled_fromText {a : Alias} (h : Spelled P a.source.text) : Spelled P a.fromText := by
  simp [Alias.fromText, toString, hP.spelled, hP.spelled_alias, h]

end Ordinary

/-! ## Pieces -/

/-- A relation between texts and the comparisons in them that is found piece by piece. -/
structure Reads (P : Char → Prop) (R : String → List Placeholder → Prop) : Prop where
  ordinary : Ordinary P
  plain {s : String} : Spelled P s → R s []
  whereKeyword : R " WHERE " []
  placeholder {q : Placeholder} : Spelled P q.column.text → R q.text [q]
  append {s t : String} {qs qs' : List Placeholder} : R s qs → R t qs' → R (s ++ t) (qs ++ qs')

namespace Reads

variable {R : String → List Placeholder → Prop} (h : Reads P R)
include h

theorem before {s t : String} {qs : List Placeholder} (hs : Spelled P s) (ht : R t qs) :
    R (s ++ t) qs :=
  h.append (h.plain hs) ht

theorem behind {s t : String} {qs : List Placeholder} (hs : R s qs) (ht : Spelled P t) :
    R (s ++ t) qs := by
  simpa using h.append hs (h.plain ht)

theorem intercalate {α : Type} {f : α → String} {g : α → List Placeholder} {sep : String}
    (hs : Spelled P sep) {l : List α} (hl : ∀ x ∈ l, R (f x) (g x)) :
    R (sep.intercalate (l.map f)) (l.flatMap g) := by
  induction l with
  | nil => exact h.plain (by simp [Spelled])
  | cons x l ih =>
    obtain ⟨hx, hl⟩ := List.forall_mem_cons.1 hl
    cases l with
    | nil => simpa using hx
    | cons y l =>
      rw [List.map_cons, List.map_cons, String.intercalate_cons_cons, List.flatMap_cons]
      exact h.append (h.behind hx hs) (ih hl)

theorem condition {c : Condition} (hc : c.Names (Spelled P ·.text)) : R c.text c.placeholders := by
  -- each condition but a group is about one column, which it mentions
  have own {r : ColumnRef} {c : Condition} (hm : ∃ place, c.mentions 0 = [⟨r, place⟩])
      (hc : c.Names (Spelled P ·.text)) : Spelled P r.text := by
    obtain ⟨place, hm⟩ := hm
    exact hc 0 ⟨r, place⟩ (by simp [hm])
  induction c using Condition.induction with
  | always => exact h.plain (h.ordinary.spelled (by decide))
  | compare r op b => exact h.placeholder (q := ⟨r, op, b⟩) (own ⟨_, rfl⟩ hc)
  | literal r n =>
    have hr := own ⟨_, rfl⟩ hc
    exact h.plain (h.ordinary.spelled_joinOn (o := .literal r n) (by simpa [JoinOn.refs] using hr))
  | null r t =>
    refine h.plain ?_
    have ht : Spelled P t.text := by cases t <;> simp [NullTest.text, h.ordinary.spelled]
    simp [Condition.text, toString, h.ordinary.spelled, own ⟨_, rfl⟩ hc, ht]
  | group k cs ih =>
    rw [Condition.text, Condition.placeholders, Condition.childTexts_eq,
      Condition.placeholdersAll_eq]
    refine h.intercalate ?_ fun c hm => ?_
    · cases k <;> simp [toString, Connective.keyword, h.ordinary.spelled]
    · have hc := ih c hm (hc.of_group c hm)
      cases c with
      | group =>
        exact h.behind (h.before (s := "(") (h.ordinary.spelled (by decide)) hc)
          (h.ordinary.spelled (s := ")") (by decide))
      | _ => exact hc

theorem whereText {c : Condition} (hc : c.Names (Spelled P ·.text)) :
    R c.whereText c.placeholders := by
  rw [Condition.whereText]
  split
  · rename_i ha
    rw [Condition.placeholders_of_isAlways ha]
    exact h.plain (by simp [Spelled])
  · exact h.append h.whereKeyword (h.condition hc)

theorem select {s : Select} (hs : s.Names (Spelled P ·.text)) :
    R s.text s.condition.placeholders := by
  have hc := (h.ordinary.spelled_columnRef.1 hs.column).1
  refine h.before ?_ (h.whereText hs.condition)
  simp [Select.head, toString, h.ordinary.spelled, hs.column, h.ordinary.spelled_fromText hc,
    h.ordinary.spelled_joins hs.joins]

theorem cte {c : Cte} (hb : c.body.Names (Spelled P ·.text)) (hn : Spelled P c.name.text)
    (hc : Spelled P c.column) : R c.text c.placeholders := by
  have head : Spelled P c.head := by
    simp [Cte.head, toString, h.ordinary.spelled, hn, hc]
  refine h.behind (h.before head ?_) (h.ordinary.spelled (by decide))
  rw [Cte.bodyText, Cte.placeholders]
  cases hbody : c.body with
  | select s =>
    rw [hbody] at hb
    exact h.select hb
  | closure base step =>
    rw [hbody] at hb
    obtain ⟨hb, hj, hf⟩ := hb
    have hs := (h.ordinary.spelled_columnRef.1 hj).1
    refine h.behind (h.behind (h.select hb) (h.ordinary.spelled (by decide))) ?_
    simp [Cte.stepText, toString, h.ordinary.spelled, h.ordinary.spelled_fromText hs,
      h.ordinary.spelled_alias, hs, (h.ordinary.spelled_columnRef.1 hj).2,
      (h.ordinary.spelled_columnRef.1 hf).2, hn, hc]

end Reads

/-! ## Statements -/

namespace Statement

def selectText (s : Statement) : String :=
  s.head ++ s.condition.whereText ++ s.groupText ++ s.order.text s.main ++ s.limitText

theorem sql_eq (s : Statement) : s.sql = s.withText ++ s.selectText := by
  simp only [sql, selectText, String.append_assoc]

structure Worded (P : Char → Prop) (s : Statement) : Prop extends s.Names (Spelled P ·.text) where
  cteNames : ∀ c ∈ s.ctes, Spelled P c.name.text ∧ Spelled P c.column

end Statement

namespace Reads

variable {R : String → List Placeholder → Prop} (h : Reads P R) {s : Statement}
include h

theorem ctes (hs : s.Worded P) :
    R (", ".intercalate (s.ctes.map (·.text))) (s.ctes.flatMap (·.placeholders)) :=
  h.intercalate (h.ordinary.spelled (by decide)) fun c hc =>
    h.cte (hs.ctes c hc) (hs.cteNames c hc).1 (hs.cteNames c hc).2

theorem selectText (hs : s.Worded P) : R s.selectText s.condition.placeholders := by
  have main := (h.ordinary.spelled_columnRef.1 hs.group).1
  have columns : Spelled P (", ".intercalate (s.columnRefs.map (·.text))) :=
    spelled_intercalate (h.ordinary.spelled (by decide)) (List.forall_mem_map.2 hs.columns)
  have head : Spelled P s.head := by
    simp [Statement.head, h.ordinary.spelled, columns, h.ordinary.spelled_fromText main,
      h.ordinary.spelled_joins hs.joins]
  have group : Spelled P s.groupText := by
    simpa [Statement.groupText, ColumnRef.text, toString, h.ordinary.spelled] using hs.group
  have order : Spelled P (s.order.text s.main) := by
    cases ho : s.order with
    | random => exact h.ordinary.spelled (s := " ORDER BY RANDOM()") (by decide)
    | «by» f d =>
      have hd : Spelled P d.keyword := by cases d <;> simp [Direction.keyword, h.ordinary.spelled]
      change Spelled P s!" ORDER BY {s.main.text}.{f.column} {d.keyword}"
      simpa [ColumnRef.text, toString, h.ordinary.spelled, hd] using hs.order f d ho
  have limit : Spelled P s.limitText := by
    rw [Statement.limitText]
    cases s.limit with
    | none => simp [Spelled]
    | some n =>
      have hn : Spelled P n.toNat.repr := h.ordinary.spelled_nat _
      simpa [toString, h.ordinary.spelled] using hn
  exact h.behind (h.behind (h.behind (h.before head (h.whereText hs.condition)) group) order) limit

end Reads

namespace Filter

def Worded (P : Char → Prop) (f : Filter) : Prop :=
  f.Every (fun g _ => Spelled P g.column) fun r _ =>
    ∀ q ∈ r.columns, Spelled P q.1 ∧ Spelled P q.2

theorem forall_ctes_lower {Q : String → Prop} {f : Filter}
    (hf : f.Every (fun _ _ => True) fun r _ => Q r.column) {a : Alias} {n : Numbering} :
    ∀ c ∈ (f.lower a n).ctes, (∃ k : Kind, c.name.table = k.table) ∧ Q c.column := by
  induction f using induction generalizing a n with
  | empty => exact nofun
  | test => exact nofun
  | link r t condition ih =>
    obtain ⟨hq, hc⟩ := every_link.1 hf
    have hoist {positive : Bool} {body : CteBody} {ctes : List Cte} {tables : List Alias}
        (h : ∀ c ∈ ctes, (∃ k : Kind, c.name.table = k.table) ∧ Q c.column) :
        ∀ c ∈ (Fragment.hoist ⟨a, r.column⟩ r.far positive body ctes tables n).ctes,
          (∃ k : Kind, c.name.table = k.table) ∧ Q c.column :=
      List.forall_mem_append.2 ⟨h, List.forall_mem_singleton.2 ⟨⟨r.far, rfl⟩, hq⟩⟩
    rw [lower]
    cases r.passage t with
    | key =>
      simp only [Fragment.alongKey]
      split
      · exact ih hc
      · exact hoist (ih hc)
    | association =>
      simp only [Fragment.alongAssociation]
      split
      · exact ih hc
      · exact hoist (ih hc)
    | closure => exact hoist (ih hc)
  | group k fs ih =>
    intro c hc
    obtain ⟨p, hp, hc⟩ := List.mem_flatMap.1 hc
    obtain ⟨f, hm, n', rfl⟩ := mem_lowerAll hp
    exact ih f hm (every_group.1 hf f hm) c hc

end Filter

/-! ## Names of the schema -/

namespace Schema

theorem isName_column_of_mem_catalogue : ∀ p ∈ catalogue, isName p.2.column = true := by
  decide +kernel

theorem isName_columns_of_mem_catalogue : ∀ p ∈ catalogue, ∀ r ∈ p.2.relationship?,
    ∀ q ∈ r.columns, isName q.1 = true ∧ isName q.2 = true := by
  decide +kernel

theorem Declares.isName_column {f : Field} (h : Declares f) : isName f.column = true := by
  cases h with
  | constant h => exact isName_column_of_mem_catalogue _ h
  | forms => exact (by decide : isName "lemma_id" = true)
  | words => exact (by decide : isName "form_id" = true)
  | partAt => exact (by decide : isName "frame_id" = true)

theorem Declares.isName_columns {r : Relationship} (h : Declares r.field) :
    ∀ q ∈ r.columns, isName q.1 = true ∧ isName q.2 = true := by
  generalize hf : r.field = f at h
  cases h with
  | constant h => exact isName_columns_of_mem_catalogue _ h r (by simp [← hf])
  | forms i =>
    obtain rfl := Relationship.field_injective hf
    -- the tables and columns do not depend on the code
    have : (Word.forms i).columns = (Word.forms .base).columns := rfl
    rw [this]
    decide +kernel
  | words i =>
    obtain rfl := Relationship.field_injective hf
    have : (Form.words i).columns = (Form.words .base).columns := rfl
    rw [this]
    decide +kernel
  | partAt index =>
    obtain rfl := Relationship.field_injective hf
    have : (Frame.partAt index).columns = (Frame.partAt 0).columns := rfl
    rw [this]
    decide +kernel

end Schema

section

variable (hP : Naming P)
include hP

theorem Naming.spelled_kind (k : Kind) : Spelled P k.table ∧ Spelled P k.primaryKey := by
  cases k <;> exact ⟨hP.spelled (by decide), hP.spelled (by decide)⟩

theorem Naming.spelled_table {table column : String} {m : Nat} (ht : Spelled P table)
    (hc : Spelled P column) : Spelled P (ColumnRef.text ⟨⟨.table table, m⟩, column⟩) :=
  hP.spelled_columnRef.2 ⟨ht, hc⟩

theorem Naming.worded_resolve {f : Filter} (hf : f.Worded P) (k : Kind) : (f.resolve k).Worded P :=
  Filter.every_compact (Filter.every_normalize (fun _ _ _ hr q hq =>
    ((Schema.declares_of_route hr).isName_columns q hq).imp hP.spelled hP.spelled) hf k)

theorem Naming.worded {f : Filter} (hf : f.OverSchema) : f.Worded P :=
  hf.mono (fun _ _ hg => hP.spelled hg.isName_column)
    fun _ _ hr q hq => (hr.isName_columns q hq).imp hP.spelled hP.spelled

theorem Filter.Worded.ctes_lower {f : Filter} (hf : f.Worded P) {a : Alias} {n : Numbering} :
    ∀ c ∈ (f.lower a n).ctes, Spelled P c.name.text ∧ Spelled P c.column := by
  intro c hm
  obtain ⟨⟨l, hl⟩, hc⟩ := forall_ctes_lower (Q := Spelled P)
    (hf.mono (fun _ _ _ => trivial) fun r _ h => (h _ r.near_mem_columns).2) c hm
  exact ⟨hP.spelled_cteName.2 (hl ▸ (hP.spelled_kind l).1), hc⟩

theorem Filter.Worded.names_lower {f : Filter} {k : Kind} (hf : f.Worded P) (hk : f.Belongs k)
    {m : Nat} {n : Numbering} : (f.lower ⟨.table k.table, m⟩ n).Names (Spelled P ·.text) := by
  refine names_lower_of_every hk (hf.mono (fun g _ hg m => ?_) fun r _ hr q hq m => ?_)
    fun c hc b hb => ?_
  · exact hP.spelled_table (hP.spelled_kind g.kind).1 hg
  · exact hP.spelled_table (hr q hq).1 (hr q hq).2
  · obtain ⟨hn, hc⟩ := hf.ctes_lower hP c hc
    exact hP.spelled_columnRef.2 ⟨hb ▸ hn, hc⟩

theorem Naming.worded_ofFilter {f : Filter} {k : Kind} (hk : f.Belongs k) (hf : f.Worded P)
    {columns : List String} (hc : ∀ c ∈ columns, Spelled P c) {order : Order}
    (ho : ∀ g d, order = .by g d → Spelled P g.column) {limit : Option UInt32} :
    (Statement.ofFilter k columns f order limit).Worded P := by
  have hp := hf.names_lower hP hk (m := 1) (n := ⟨1, 0⟩)
  have kind := (hP.spelled_kind k).1
  have group : Spelled P (columns.head?.getD k.primaryKey) := by
    cases columns with
    | nil => exact (hP.spelled_kind k).2
    | cons c cs => exact hc c (by simp)
  exact {
    columns := List.forall_mem_map.2 fun c hm => hP.spelled_table kind (hc c hm)
    joins := hp.joins
    condition := hp.condition
    ctes := hp.ctes
    group := hP.spelled_table kind group
    order := fun g d hg => hP.spelled_table kind (ho g d hg)
    cteNames := hf.ctes_lower hP }

end

section

variable (hP : Ordinary P)
include hP

theorem Filter.Worded.resolve {f : Filter} (hf : f.Worded P) (k : Kind) : (f.resolve k).Worded P :=
  hP.naming.worded_resolve hf k

theorem Filter.OverSchema.worded {f : Filter} (hf : f.OverSchema) : f.Worded P :=
  hP.naming.worded hf

theorem Statement.worded_ofFilter {f : Filter} {k : Kind} (hk : f.Belongs k) (hf : f.Worded P)
    {columns : List String} (hc : ∀ c ∈ columns, Spelled P c) {order : Order}
    (ho : ∀ g d, order = .by g d → Spelled P g.column) {limit : Option UInt32} :
    (ofFilter k columns f order limit).Worded P :=
  hP.naming.worded_ofFilter hk hf hc ho

end

end Lexiquery
