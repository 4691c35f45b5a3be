import Mathlib.Data.List.Induction
import Lexiquery.Proofs.Statement.Lowering

/-! What a compiled statement selects: one row for each record that its filter yields, whatever
order and however many rows the joins make of it. -/

namespace Lexiquery

def Kind.project (k : Kind) (x : Row) : Row := k.columns.map fun c => (c, x.get c)

/-- The rows are those of the records of a kind of which `P` holds, one for each. -/
def Store.Selects (store : Store) (k : Kind) (P : Row → Prop) (rows : List Row) : Prop :=
  ∃ xs : List Row, xs.Nodup ∧ (∀ x, x ∈ xs ↔ x ∈ store.records k ∧ P x) ∧ rows = xs.map k.project

theorem Store.Selects.congr {store : Store} {k : Kind} {P Q : Row → Prop} {rows : List Row}
    (h : store.Selects k P rows) (hpq : ∀ x ∈ store.records k, P x ↔ Q x) :
    store.Selects k Q rows := by
  obtain ⟨xs, hn, hm, hr⟩ := h
  refine ⟨xs, hn, fun x => (hm x).trans ?_, hr⟩
  exact and_congr_right fun hx => hpq x hx

theorem Store.Selects.mem_iff {store : Store} {k : Kind} {P : Row → Prop} {rows : List Row}
    (h : store.Selects k P rows) {row : Row} :
    row ∈ rows ↔ ∃ x ∈ store.records k, P x ∧ row = k.project x := by
  obtain ⟨xs, -, hm, rfl⟩ := h
  simp only [List.mem_map, hm, and_assoc, eq_comm]

namespace Statement

section

variable {r : ColumnRef} {e : Env} {es : List Env}

theorem isAmong_map_iff {v : Value} :
    v.isAmong (es.map (·.get r)) = true ↔ ∃ e ∈ es, (e.get r).key = v.key := by
  simp [Value.isAmong_iff]

theorem distinctBy_concat : distinctBy r (es ++ [e]) =
    if (e.get r).isAmong ((distinctBy r es).map (·.get r)) then distinctBy r es
    else distinctBy r es ++ [e] := by
  have isAmong_reverse (v : Value) (vs : List Value) : v.isAmong vs.reverse = v.isAmong vs :=
    List.any_reverse
  simp only [distinctBy, List.foldl_append, List.foldl_cons, List.foldl_nil, List.map_reverse,
    isAmong_reverse]
  split <;> simp

theorem mem_of_mem_distinctBy (h : e ∈ distinctBy r es) : e ∈ es := by
  induction es using List.reverseRecOn with
  | nil => exact h
  | append_singleton es e' ih =>
    rw [distinctBy_concat] at h
    split at h
    · exact List.mem_append_left _ (ih h)
    · exact List.mem_append.2 ((List.mem_append.1 h).imp_left ih)

theorem exists_mem_distinctBy (h : e ∈ es) :
    ∃ e' ∈ distinctBy r es, (e'.get r).key = (e.get r).key := by
  induction es using List.reverseRecOn with
  | nil => cases h
  | append_singleton es e' ih =>
    rw [distinctBy_concat]
    split
    · rename_i hk
      obtain h | h := List.mem_append.1 h
      · apply ih h
      · obtain rfl := List.mem_singleton.1 h
        exact isAmong_map_iff.1 hk
    · obtain h | h := List.mem_append.1 h
      · obtain ⟨e₁, h₁, hk⟩ := ih h
        exact ⟨e₁, List.mem_append_left _ h₁, hk⟩
      · obtain rfl := List.mem_singleton.1 h
        exact ⟨e, by simp, rfl⟩

theorem pairwise_distinctBy :
    (distinctBy r es).Pairwise fun e e' => (e.get r).key ≠ (e'.get r).key := by
  induction es using List.reverseRecOn with
  | nil => exact .nil
  | append_singleton es e ih =>
    rw [distinctBy_concat]
    split
    · apply ih
    · rename_i hk
      simp only [isAmong_map_iff, not_exists, not_and] at hk
      exact List.pairwise_append.2 ⟨ih, List.pairwise_singleton _ _, by simpa using hk⟩

end

theorem arrange_perm (s : Statement) (es : List Env) : (s.arrange es).Perm es := by
  have byKey (r : ColumnRef) (es : List Env) : (sortBy r es).Perm es := List.mergeSort_perm _ _
  rw [arrange]
  split
  · exact byKey _ _
  · exact (byKey _ _).trans (byKey _ _)
  · exact (List.mergeSort_perm _ _).trans (byKey _ _)

theorem mem_rows {store : Store} {s : Statement} (hl : s.limit = none) {row : Row} :
    row ∈ s.rows store ↔
      row ∈ (s.selected store).map fun e => s.columns.map fun c => (c, e.get ⟨s.main, c⟩) := by
  simp only [rows, hl, List.mem_map, (s.arrange_perm _).mem_iff]

theorem rows_limit (store : Store) (s : Statement) : s.rows store =
    s.limit.elim (rows store { s with limit := none })
      ((rows store { s with limit := none }).take ·.toNat) := by
  cases h : s.limit with
  | none => simp [rows, h]; rfl
  | some n => simp [rows, h]; rfl

def record (s : Statement) (e : Env) : Row := (e.lookup s.main).getD []

theorem get_main (s : Statement) (e : Env) (c : String) :
    e.get ⟨s.main, c⟩ = (s.record e).get c := by
  rw [Env.get, record]
  cases e.lookup s.main <;> rfl

/-- Whether the joins and the condition leave a row of the main table. -/
def Picks (store : Store) (s : Statement) (x : Row) : Prop :=
  ∃ e ∈ (s.reading store).joined s.joins [(s.main, x)], s.condition.holds (s.reading store) e = true

def found (store : Store) (s : Statement) : List Row :=
  (s.arrange (s.selected store)).map s.record

section

variable {store : Store} {s : Statement}

theorem nodup_found : (s.found store).Nodup := by
  rw [found, ((s.arrange_perm _).map _).nodup_iff, List.Nodup, List.pairwise_map]
  refine pairwise_distinctBy.imp fun hk hr => hk ?_
  rw [get_main, get_main, hr]

theorem rows_eq_found (hl : s.limit = none) :
    s.rows store = (s.found store).map fun x => s.columns.map fun c => (c, x.get c) := by
  simp only [rows, hl, found, List.map_map, Function.comp_def, get_main]

variable (hj : ∀ j ∈ s.joins, s.main.number < j.table.number)
include hj

theorem record_of_joined {d : Reading} {e : Env} {x : Row}
    (he : e ∈ d.joined s.joins [(s.main, x)]) :
    s.record e = x := by
  have hl : e.lookup s.main = some x :=
    (Reading.agrees_joined hj he s.main (Nat.le_refl _)) ▸ Env.lookup_cons_self
  rw [record, hl, Option.getD_some]

theorem mem_found (hm : s.main.source = .table s.kind.table)
    (hg : s.groupColumn = s.kind.primaryKey)
    (hu : ∀ x ∈ store.records s.kind, ∀ y ∈ store.records s.kind,
      (x.get s.kind.primaryKey).key = (y.get s.kind.primaryKey).key → x = y) {x : Row} :
    x ∈ s.found store ↔ x ∈ store.records s.kind ∧ s.Picks store x := by
  have hrows : (s.reading store).rows s.main.source = store.records s.kind := by
    rw [hm]
    rfl
  have picked {e : Env} (he : e ∈ s.selected store) :
      s.record e ∈ store.records s.kind ∧ s.Picks store (s.record e) := by
    obtain ⟨x, hx, he, hc⟩ := Reading.mem_envs.1 (mem_of_mem_distinctBy he)
    rw [record_of_joined hj he]
    exact ⟨hrows ▸ hx, e, he, hc⟩
  rw [found, ((s.arrange_perm _).map _).mem_iff, List.mem_map]
  constructor
  · rintro ⟨e, he, rfl⟩
    exact picked he
  · rintro ⟨hx, e, he, hc⟩
    obtain ⟨e', he', hk⟩ := exists_mem_distinctBy (r := ⟨s.main, s.groupColumn⟩)
      (Reading.mem_envs.2 ⟨x, hrows ▸ hx, he, hc⟩)
    refine ⟨e', he', hu _ (picked he').1 _ hx ?_⟩
    rwa [get_main, get_main, record_of_joined hj he, hg] at hk

theorem selects_rows (hs : store.Lexical) (hm : s.main.source = .table s.kind.table)
    (hc : s.columns = s.kind.columns) (hl : s.limit = none) :
    store.Selects s.kind (fun x => ∃ e ∈ (s.reading store).joined s.joins [(s.main, x)],
      s.condition.holds (s.reading store) e = true) (s.rows store) := by
  have hg : s.groupColumn = s.kind.primaryKey := by simp [groupColumn, hc, s.kind.columns_head?]
  refine ⟨s.found store, nodup_found, fun x => ?_, ?_⟩
  · exact mem_found hj hm hg fun x hx y hy => hs.eq_of_key_eq hx hy
  · rw [rows_eq_found hl, hc]
    rfl

end

def ofFilter (k : Kind) (columns : List String) (f : Filter) (order : Order)
    (limit : Option UInt32) : Statement :=
  let p := f.lower ⟨.table k.table, 1⟩ ⟨1, 0⟩
  { kind := k
    main := ⟨.table k.table, 1⟩
    columns
    ctes := p.ctes
    joins := p.joins
    condition := p.condition
    order
    limit
    tables := ⟨.table k.table, 1⟩ :: p.tables }

theorem compile_resolve {k : Kind} {columns : List String} {order : Order} {limit : Option UInt32}
    (ho : order.validate k = .ok ()) (f : Filter) :
    compile k columns (f.resolve k) order limit =
      .ok (ofFilter k columns (f.resolve k) order limit) := by
  rw [compile, ho, (Filter.normal_resolve f k).foreign?_eq, Filter.resolveConditions_resolve]
  rfl

theorem picks_ofFilter_iff {store : Store} (hs : store.Lexical) {f : Filter} {k : Kind}
    (hn : f.Normal k) (hf : f.Sound) {order : Order} {limit : Option UInt32} {x : Row} :
    (ofFilter k k.columns f order limit).Picks store x ↔ f.Yields store x true := by
  have hp := Filter.realizes_lower hs hn hf (m := 1) (n := ⟨1, 0⟩) (Nat.le_refl _)
  refine hp.outcome ⟨[], [], by simp, ?_⟩ Env.lookup_cons_self true
  rw [List.append_nil]
  rfl

theorem selects_ofFilter {store : Store} (hs : store.Lexical) {f : Filter} {k : Kind}
    (hn : f.Normal k) (hf : f.Sound) (order : Order) :
    store.Selects k (f.Yields store · true)
      ((ofFilter k k.columns f order none).rows store) := by
  have hp := Filter.realizes_lower hs hn hf (m := 1) (n := ⟨1, 0⟩) (Nat.le_refl _)
  exact (selects_rows (s := ofFilter k k.columns f order none) hp.fresh hs rfl rfl rfl).congr
    fun _ _ => picks_ofFilter_iff hs hn hf

end Statement

end Lexiquery
