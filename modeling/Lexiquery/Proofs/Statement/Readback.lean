import Mathlib.Data.List.Dedup
import Lexiquery.Proofs.Statement.Parsing
import Lexiquery.Proofs.Statement.WellScoped

/-! A compiled statement is read back from its text, whatever its filter asks: the same expressions,
joins and conditions. So the text holds of the rows of which the condition holds. -/

namespace Lexiquery

open Sql (isIdentifier)

/-- What columns hold and prefer, by the names they are called. -/
structure Sql.Valuation where
  value : Sql.Column → Value
  affinity : Sql.Column → Affinity

def Sql.Atom.holds (m : Sql.Valuation) : Sql.Atom → Bool
  | one => true
  | compare c op b => op.holds (m.value c) (op.operand (m.affinity c) b.value)
  | literal c n => Operator.equals.holds (m.value c) ((m.affinity c).apply (.integer (.ofInt n)))
  | equal c c' =>
    if m.affinity c = m.affinity c' then Operator.equals.holds (m.value c) (m.value c')
    else Operator.equals.holds (Affinity.integer.apply (m.value c))
      (Affinity.integer.apply (m.value c'))
  | null c t => t.holds (m.value c)

mutual

/-- Whether an expression holds. One that is unknown does not; as none is negated, that is all that
matters. -/
def Sql.Expr.holds (m : Sql.Valuation) : Sql.Expr → Bool
  | .atom a => a.holds m
  | .group .and es => Sql.Expr.holdsAll m es
  | .group .or es => Sql.Expr.holdsAny m es

def Sql.Expr.holdsAll (m : Sql.Valuation) : List Sql.Expr → Bool
  | [] => true
  | e :: es => e.holds m && Sql.Expr.holdsAll m es

def Sql.Expr.holdsAny (m : Sql.Valuation) : List Sql.Expr → Bool
  | [] => false
  | e :: es => e.holds m || Sql.Expr.holdsAny m es

end

theorem Sql.Expr.holds_row (m : Sql.Valuation) (c : Connective) (es : List Sql.Expr) :
    (row c es).holds m = (group c es).holds m := by
  match es with
  | [] | _ :: _ :: _ => rfl
  | [e] => cases c <;> simp [row, holds, holdsAll, holdsAny]

def Sql.Valuation.ofRows (d : Reading) (e : Env) : Sql.Valuation where
  value c := ((e.find? (·.1.text == c.table)).map (·.2.get c.name)).getD .null
  affinity c := ((e.find? (·.1.text == c.table)).map (d.affinity ⟨·.1, c.name⟩)).getD .integer

structure Sql.Valuation.Agrees (m : Sql.Valuation) (d : Reading) (e : Env) (r : ColumnRef) :
    Prop where
  value : m.value r.toSql = e.get r
  affinity : m.affinity r.toSql = d.affinity r

theorem Env.find?_text {e : Env} (h : (e.map (·.1.number)).Nodup) {a : Alias}
    (ha : a ∈ e.map (·.1)) : ∃ row, e.find? (·.1.text == a.text) = some (a, row) ∧
      e.lookup a = some row := by
  induction e with
  | nil => cases ha
  | cons p e ih =>
    obtain ⟨b, row⟩ := p
    obtain ⟨hb, he⟩ := List.nodup_cons.1 h
    by_cases hab : a = b
    · subst hab
      exact ⟨row, by simp, by simp⟩
    · have ha : a ∈ e.map (·.1) := (List.mem_cons.1 ha).resolve_left hab
      have apart : b.text ≠ a.text := fun ht => by
        obtain ⟨q, hq, rfl⟩ := List.mem_map.1 ha
        exact hb (List.mem_map.2 ⟨q, hq, (Alias.text_inj.1 ht).2.symm⟩)
      obtain ⟨row', hf, hl⟩ := ih he ha
      refine ⟨row', ?_, ?_⟩
      · rw [List.find?_cons_of_neg (by simpa using apart), hf]
      · rw [List.lookup_cons, beq_false_of_ne hab, hl]

theorem Sql.Valuation.agrees_ofRows {d : Reading} {e : Env} (h : (e.map (·.1.number)).Nodup)
    {r : ColumnRef} (hr : r.table ∈ e.map (·.1)) : (ofRows d e).Agrees d e r := by
  obtain ⟨row, hf, hl⟩ := Env.find?_text h hr
  constructor
  · simp [ofRows, ColumnRef.toSql, hf, Env.get, hl]
  · simp [ofRows, ColumnRef.toSql, hf]

namespace Condition

variable {m : Sql.Valuation} {d : Reading} {e : Env}

theorem holds_toSqlAll {cs : List Condition} (h : ∀ c ∈ cs, c.toSql.holds m = c.holds d e) :
    Sql.Expr.holdsAll m (toSqlAll cs) = holdsAll d e cs ∧
      Sql.Expr.holdsAny m (toSqlAll cs) = holdsAny d e cs := by
  induction cs with
  | nil => exact ⟨rfl, rfl⟩
  | cons c cs ih =>
    obtain ⟨hc, hcs⟩ := List.forall_mem_cons.1 h
    obtain ⟨all, any⟩ := ih hcs
    rw [toSqlAll, Sql.Expr.holdsAll, Sql.Expr.holdsAny, holdsAll, holdsAny, hc, all, any]
    exact ⟨rfl, rfl⟩

theorem holds_toSql {c : Condition} (h : c.Names (m.Agrees d e)) :
    c.toSql.holds m = c.holds d e := by
  induction c using Condition.induction with
  | always => rfl
  | compare r op b =>
    obtain ⟨hv, ha⟩ := names_compare_iff.1 h
    simp [toSql, Sql.Expr.holds, Sql.Atom.holds, holds, hv, ha]
  | literal r n =>
    obtain ⟨hv, ha⟩ := names_literal_iff.1 h
    simp [toSql, Sql.Expr.holds, Sql.Atom.holds, holds, hv, ha]
  | null r t =>
    obtain ⟨hv, -⟩ := names_null_iff.1 h
    simp [toSql, Sql.Expr.holds, Sql.Atom.holds, holds, hv]
  | group k cs ih =>
    obtain ⟨all, any⟩ := holds_toSqlAll fun c hc => ih c hc (h.of_group c hc)
    rw [toSql, Sql.Expr.holds_row]
    cases k with
    | and => rw [Sql.Expr.holds, holds, all]
    | or => rw [Sql.Expr.holds, holds, any]

theorem holds_whereSql {c : Condition} (h : c.Names (m.Agrees d e)) :
    c.whereSql.all (·.holds m) = c.holds d e := by
  rw [whereSql]
  split
  · rename_i ha
    cases c with
    | always => rfl
    | _ => cases ha
  · exact holds_toSql h

end Condition

def Schema.routeColumns : List (String × String) :=
  Kind.all.flatMap fun k => Kind.all.flatMap fun l => (route k l).toList.flatMap (·.columns)

theorem Schema.isIdentifier_columns_of_route {k l : Kind} {r : Relationship}
    (hr : route k l = some r) :
    ∀ q ∈ r.columns, isIdentifier q.1 = true ∧ isIdentifier q.2 = true := by
  -- the same names come up again and again
  have names : ∀ n ∈ (routeColumns.flatMap fun q => [q.1, q.2]).dedup, isIdentifier n = true := by
    decide +kernel
  intro q hq
  have hc : q ∈ routeColumns := List.mem_flatMap.2 ⟨k, k.mem_all,
    List.mem_flatMap.2 ⟨l, l.mem_all, List.mem_flatMap.2 ⟨r, by simp [hr], hq⟩⟩⟩
  have both : ∀ n ∈ [q.1, q.2], isIdentifier n = true := fun n hn =>
    names n (List.mem_dedup.2 (List.mem_flatMap.2 ⟨q, hc, hn⟩))
  simpa using both

namespace Condition

theorem branching_all {k : Connective} {cs : List Condition} (h : ∀ c ∈ cs, c.Branching) :
    (all k cs).Branching := by
  rw [all.eq_def]
  split
  · exact .always
  · rename_i hn
    cases k with
    | and =>
      refine .group ?_ fun c hc => h c (List.mem_filter.1 hc).1
      simpa [List.filter_eq_nil_iff] using hn
    | or =>
      refine .group ?_ h
      rintro rfl
      exact hn rfl

end Condition

structure Fragment.Branching (p : Fragment) : Prop where
  joins : ∀ j ∈ p.joins, j.on ≠ []
  condition : p.condition.Branching
  ctes : ∀ c ∈ p.ctes, c.body.Branching

namespace Fragment

variable {p : Fragment} {r : Relationship} {t : LinkTest} {owner : ColumnRef}
  {relation far : Alias} {n : Numbering}

theorem branching_all {c : Connective} {ps : List Fragment} (h : ∀ p ∈ ps, p.Branching) :
    (all c ps).Branching where
  joins j hj := by
    obtain ⟨p, hp, hj⟩ := List.mem_flatMap.1 hj
    exact (h p hp).joins j hj
  condition := Condition.branching_all (List.forall_mem_map.2 fun p hp => (h p hp).condition)
  ctes c hc := by
    obtain ⟨p, hp, hc⟩ := List.mem_flatMap.1 hc
    exact (h p hp).ctes c hc

theorem branching_withFixed {a : Alias} {c : Condition} (h : c.Branching) :
    (r.withFixed a c).Branching := by
  rw [Relationship.withFixed]
  split
  · exact h
  · exact Condition.branching_all (by simpa using ⟨h, .literal⟩)

theorem branching_hoist {k : Kind} {positive : Bool} {body : CteBody} {ctes : List Cte}
    {tables : List Alias} (hb : body.Branching) (hc : ∀ c ∈ ctes, c.body.Branching) :
    (hoist owner k positive body ctes tables n).Branching where
  joins := List.forall_mem_singleton.2 (List.cons_ne_nil _ _)
  condition := by cases positive <;> constructor
  ctes := List.forall_mem_append.2 ⟨hc, List.forall_mem_singleton.2 hb⟩

theorem Branching.alongKey (h : p.Branching) : (p.alongKey r t owner far n).Branching := by
  rw [Fragment.alongKey]
  split
  · exact ⟨List.forall_mem_cons.2 ⟨List.cons_ne_nil _ _, h.joins⟩, h.condition, h.ctes⟩
  · have body : Select.Branching ⟨⟨far, r.column⟩, p.joins, r.withFixed far p.condition⟩ :=
      ⟨h.joins, branching_withFixed h.condition⟩
    exact branching_hoist body h.ctes

theorem Branching.alongAssociation {assoc : Association} (h : p.Branching) :
    (p.alongAssociation r assoc t owner relation far n).Branching := by
  rw [Fragment.alongAssociation]
  split
  · exact ⟨List.forall_mem_cons.2 ⟨List.cons_ne_nil _ _, List.forall_mem_cons.2
      ⟨List.cons_ne_nil _ _, h.joins⟩⟩, h.condition, h.ctes⟩
  · have body (near : ColumnRef) (farJoin : Join) (hf : farJoin.on ≠ []) :
        Select.Branching ⟨near, farJoin :: p.joins, r.withFixed relation p.condition⟩ :=
      ⟨List.forall_mem_cons.2 ⟨hf, h.joins⟩, branching_withFixed h.condition⟩
    exact branching_hoist (body _ _ (List.cons_ne_nil _ _)) h.ctes

theorem Branching.alongClosure {step : ClosureStep} (h : p.Branching) :
    (p.alongClosure r t owner far step n).Branching := by
  have base : Select.Branching ⟨⟨far, r.column⟩, p.joins, p.condition⟩ := ⟨h.joins, h.condition⟩
  exact branching_hoist base h.ctes

end Fragment

namespace Filter

theorem branching_lower (f : Filter) (a : Alias) (n : Numbering) : (f.lower a n).Branching := by
  induction f using induction generalizing a n with
  | empty => exact ⟨nofun, .always, nofun⟩
  | test g t =>
    refine ⟨nofun, ?_, nofun⟩
    cases t <;> constructor
  | link r t condition ih =>
    rw [lower]
    cases r.passage t with
    | key => exact (ih _ _).alongKey
    | association => exact (ih _ _).alongAssociation
    | closure => exact (ih _ _).alongClosure
  | group c fs ih =>
    refine Fragment.branching_all fun p hp => ?_
    obtain ⟨f, hf, n', rfl⟩ := mem_lowerAll hp
    exact ih f hf a n'

def Identified (f : Filter) : Prop :=
  f.Every (fun g _ => isIdentifier g.column = true) fun r _ =>
    ∀ q ∈ r.columns, isIdentifier q.1 = true ∧ isIdentifier q.2 = true

theorem Identified.resolveConditions {f : Filter} (h : f.Identified) :
    f.resolveConditions.Identified :=
  every_resolveConditions (fun _ _ _ hr => Schema.isIdentifier_columns_of_route hr) h

end Filter

theorem isIdentifier_table (k : Kind) : isIdentifier k.table = true := by
  cases k <;> decide

theorem CteName.isIdentifier_text {n : CteName} (h : isIdentifier n.table = true) :
    isIdentifier n.text = true := by
  have stem : n.stem = n.table ++ "_" ++ "tree" := by rw [stem, String.append_assoc]; rfl
  rw [n.text_eq, stem]
  exact Sql.isIdentifier_numbered (Sql.isIdentifier_append h (by simp [Sql.isWordChar])) _

namespace Statement

theorem branching_ofFilter (k : Kind) {columns : List String} (hn : columns ≠ []) (f : Filter)
    (order : Order) (limit : Option UInt32) : (ofFilter k columns f order limit).Branching :=
  have h := f.branching_lower ⟨.table k.table, 1⟩ ⟨1, 0⟩
  ⟨hn, h.joins, h.condition, h.ctes⟩

theorem identified_ofFilter {k : Kind} {f : Filter} (hk : f.Belongs k) (hf : f.Identified)
    {columns : List String} (hn : columns ≠ []) (hc : ∀ c ∈ columns, isIdentifier c = true)
    {order : Order} (ho : ∀ g d, order = .by g d → isIdentifier g.column = true)
    {limit : Option UInt32} : (ofFilter k columns f order limit).Identified := by
  have kind := isIdentifier_table k
  have ctes : ∀ c ∈ (f.lower ⟨.table k.table, 1⟩ ⟨1, 0⟩).ctes,
      isIdentifier c.name.text = true ∧ isIdentifier c.column = true := by
    intro c hm
    obtain ⟨⟨l, hl⟩, hc⟩ := Filter.forall_ctes_lower (Q := (isIdentifier · = true))
      (hf.mono (fun _ _ _ => trivial) fun r _ h => (h _ r.near_mem_columns).2) c hm
    exact ⟨CteName.isIdentifier_text (hl ▸ isIdentifier_table l), hc⟩
  have names : (f.lower ⟨.table k.table, 1⟩ ⟨1, 0⟩).Names ColumnRef.Identified := by
    refine Filter.names_lower_of_every hk (hf.mono (fun g _ hg m => ?_) fun r _ hr q hq m => ?_)
      fun c hc b hb => ?_
    · exact ⟨isIdentifier_table g.kind, hg⟩
    · exact ⟨(hr q hq).1, (hr q hq).2⟩
    · exact ⟨by rw [hb]; exact (ctes c hc).1, (ctes c hc).2⟩
  obtain ⟨c₀, cs, rfl⟩ := List.exists_cons_of_ne_nil hn
  exact {
    columns := List.forall_mem_map.2 fun c hm => ⟨kind, hc c hm⟩
    joins := names.joins
    condition := names.condition
    ctes := names.ctes
    group := ⟨kind, hc c₀ List.mem_cons_self⟩
    order := fun g d hg => ⟨kind, ho g d hg⟩
    cteNames := ctes }

def conditions (s : Statement) : List Condition :=
  (s.ctes.map fun c => match c.body with
    | .select t => t.condition
    | .closure base _ => base.condition) ++ [s.condition]

/-- If no name needs quotes, the text of a compiled statement is read as the statement, and what
stands behind WHERE holds of rows, found by the names of their aliases, of which the condition
holds. -/
theorem read_of_compile {f : Filter} (hf : f.Identified) {k : Kind} {columns : List String}
    (hn : columns ≠ []) (hc : ∀ c ∈ columns, isIdentifier c = true) {order : Order}
    (ho : ∀ g d, order = .by g d → isIdentifier g.column = true) {limit : Option UInt32}
    {s : Statement} (h : compile k columns f order limit = .ok s) :
    Sql.read? s.sql s.bindings = some s.toSql ∧
    ∀ c ∈ s.conditions, ∀ d e, (e.map (·.1.number)).Nodup →
      c.Names (fun r => r.table ∈ e.map (·.1)) →
        c.whereSql.all (·.holds (.ofRows d e)) = c.holds d e := by
  obtain ⟨-, hk, rfl⟩ := compile_eq_ok_iff.1 h
  refine ⟨read?_sql (identified_ofFilter (Filter.belongs_resolveConditions hk)
    hf.resolveConditions hn hc ho) (branching_ofFilter k hn _ _ _), ?_⟩
  intro c _ d e he hr
  exact Condition.holds_whereSql (hr.mono fun r hr => Sql.Valuation.agrees_ofRows he hr)

/-- Words, by a condition with both connectives under each other, and the rows of one expression. -/
theorem sample_read_of_compile : ∃ s,
    compile .word Kind.word.columns (.group .or [
      .group .and [.test Schema.Word.lemmaId (.integer .differs (-1)),
        .group .or [.test Schema.Word.tagCount (.null .isNull),
          .test Schema.Word.tagCount (.integer .atLeast 2)]],
      .link Schema.Word.synonyms .hasNone (.group .or [
        .test Schema.Word.id (.integer .equals 1),
        .group .and [.test Schema.Word.id (.integer .lessThan 3)]])])
      (.descending Schema.Word.id) (some 5) = .ok s ∧
    s.ctes.length = 1 ∧ Sql.read? s.sql s.bindings = some s.toSql ∧
    ∀ d row, s.condition.whereSql.all (·.holds (.ofRows d (s.tables.map (·, row)))) =
      s.condition.holds d (s.tables.map (·, row)) := by
  let f : Filter := .group .or [
    .group .and [.test Schema.Word.lemmaId (.integer .differs (-1)),
      .group .or [.test Schema.Word.tagCount (.null .isNull),
        .test Schema.Word.tagCount (.integer .atLeast 2)]],
    .link Schema.Word.synonyms .hasNone (.group .or [
      .test Schema.Word.id (.integer .equals 1),
      .group .and [.test Schema.Word.id (.integer .lessThan 3)]])]
  have hf : f.Identified := by
    simp only [f, Filter.Identified, Filter.every_group, Filter.every_test, Filter.every_link,
      List.forall_mem_cons, List.not_mem_nil, false_imp_iff, implies_true, and_true]
    decide
  let s := ofFilter .word Kind.word.columns f.resolveConditions (.descending Schema.Word.id)
    (some 5)
  have h : compile .word Kind.word.columns f (.descending Schema.Word.id) (some 5) = .ok s :=
    compile_eq_ok_iff.2 ⟨rfl, rfl, rfl⟩
  obtain ⟨read, means⟩ := read_of_compile hf (by decide) (by decide)
    (fun g d hg => by cases hg; decide) h
  refine ⟨s, h, rfl, read, fun d row => means _ (by simp [conditions]) d _ ?_ fun start m hm => ?_⟩
  · rw [List.map_map]
    change (s.tables.map Alias.number).Nodup
    decide +kernel
  · have columns : ∀ r ∈ (s.condition.mentions 0).map (·.column), r.table ∈ s.tables := by
      decide +kernel
    rw [← Condition.map_mentions _ start] at columns
    simpa using columns _ (List.mem_map_of_mem hm)

end Statement

end Lexiquery
