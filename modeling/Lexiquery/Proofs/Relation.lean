import Lexiquery.Statement.Compile
import Lexiquery.Proofs.Store.Equality
import Lexiquery.Proofs.Store.Lexical

/-! Which rows a relationship relates in a store, and what a link asks of them. -/

namespace Lexiquery

def Fixed.Holds (f : Fixed) (z : Row) : Prop := (z.get f.column).Equals (.integer f.value)

/-- Zero or more rows lead from one value to another, each from its `near` column to its `far`
column. The values on the way need not belong to any record. -/
inductive Chain (rows : List Row) (near far : String) : Value → Value → Prop
  | here {v w : Value} : v.Equals w → Chain rows near far v w
  | step {v w : Value} {z : Row} : z ∈ rows → v.Equals (z.get near) →
    Chain rows near far (z.get far) w → Chain rows near far v w

theorem Chain.ne_null {rows : List Row} {near far : String} {v w : Value}
    (h : Chain rows near far v w) : v ≠ .null := by
  cases h with
  | here h => exact (Value.equals_iff.1 h).1
  | step _ h _ => exact (Value.equals_iff.1 h).1

theorem Chain.trans {rows : List Row} {near far : String} {u v w : Value}
    (h : Chain rows near far u v) (h' : Chain rows near far v w) : Chain rows near far u w := by
  induction h with
  | here h =>
    cases h' with
    | here h' => exact .here (h.trans h')
    | step hz hv hc => exact .step hz (h.trans hv) hc
  | step hz hu _ ih => exact .step hz hu (ih h')

theorem Chain.reverse {rows : List Row} {near far : String} {v w : Value}
    (h : Chain rows near far v w) : Chain rows far near w v := by
  induction h with
  | here h => exact .here h.symm
  | step hz hv hc ih =>
    have back : Chain rows far near _ _ :=
      .step hz (Value.equals_iff.2 ⟨hc.ne_null, rfl⟩) (.here hv.symm)
    exact ih.trans back

namespace Relationship

variable (store : Store) (r : Relationship)

def Relates (x y : Row) : Prop :=
  y ∈ store.records r.far ∧
    match r.link with
    | .key .. => (x.get r.column).Equals (y.get r.column)
    | .keyWhere _ fixed => (x.get r.column).Equals (y.get r.column) ∧ fixed.Holds y
    | .through _ table foreignColumn fixed => ∃ z ∈ store.rowsOf table,
      (x.get r.column).Equals (z.get r.column) ∧ (∀ f ∈ fixed, f.Holds z) ∧
        (z.get foreignColumn).Equals (y.get foreignColumn)
    | .self table joinColumn foreignJoinColumn _ => ∃ z ∈ store.rowsOf table,
      (x.get r.column).Equals (z.get joinColumn) ∧
        (z.get foreignJoinColumn).Equals (y.get r.column)

def Leads (v w : Value) : Prop :=
  match r.link with
  | .self table joinColumn foreignJoinColumn _ =>
    Chain (store.rowsOf table) joinColumn foreignJoinColumn v w
  | _ => False

def Reaches (x y : Row) : Prop :=
  y ∈ store.records r.far ∧ r.Leads store (x.get r.column) (y.get r.column)

/-- What a test asks of a row, `P` being the condition on the rows related to it. -/
def Asks (t : LinkTest) (P : Row → Prop) (x : Row) : Prop :=
  match t with
  | .hasSome => ∃ y, r.Relates store x y ∧ P y
  | .hasNone => ¬ ∃ y, r.Relates store x y ∧ P y
  | .reachesSome => ∃ y, r.Reaches store x y ∧ P y
  | .reachesNone => ¬ ∃ y, r.Reaches store x y ∧ P y

variable {store r}

theorem Relates.mem {x y : Row} (h : r.Relates store x y) : y ∈ store.records r.far := h.1

theorem Asks.mono {t : LinkTest} (ht : t.isPositive = true) {P Q : Row → Prop} {x : Row}
    (h : ∀ y ∈ store.records r.far, P y → Q y) : r.Asks store t P x → r.Asks store t Q x := by
  cases t with
  | hasSome => exact fun ⟨y, hy, hp⟩ => ⟨y, hy, h y hy.1 hp⟩
  | reachesSome => exact fun ⟨y, hy, hp⟩ => ⟨y, hy, h y hy.1 hp⟩
  | hasNone => cases ht
  | reachesNone => cases ht

theorem asks_congr {t : LinkTest} {P Q : Row → Prop} {x : Row}
    (h : ∀ y ∈ store.records r.far, P y ↔ Q y) : r.Asks store t P x ↔ r.Asks store t Q x := by
  have relates : (∃ y, r.Relates store x y ∧ P y) ↔ ∃ y, r.Relates store x y ∧ Q y :=
    exists_congr fun y => and_congr_right fun hy => h y hy.1
  have reaches : (∃ y, r.Reaches store x y ∧ P y) ↔ ∃ y, r.Reaches store x y ∧ Q y :=
    exists_congr fun y => and_congr_right fun hy => h y hy.1
  cases t with
  | hasSome => exact relates
  | hasNone => exact not_congr relates
  | reachesSome => exact reaches
  | reachesNone => exact not_congr reaches

theorem asks_or {t : LinkTest} (ht : t.isPositive = true) {P Q : Row → Prop} {x : Row} :
    r.Asks store t (fun y => P y ∨ Q y) x ↔ r.Asks store t P x ∨ r.Asks store t Q x := by
  cases t with
  | hasSome => simp only [Asks, and_or_left, exists_or]
  | reachesSome => simp only [Asks, and_or_left, exists_or]
  | hasNone => cases ht
  | reachesNone => cases ht

variable {t : LinkTest} {x y : Row}

theorem relates_of_key (h : r.passage t = .key) : r.Relates store x y ↔
    y ∈ store.records r.far ∧ (x.get r.column).Equals (y.get r.column) ∧
      ∀ f ∈ r.fixed?, f.Holds y := by
  obtain ⟨kind, column, link⟩ := r
  cases link with
  | key => simp [Relates, far, fixed?]
  | keyWhere => simp [Relates, far, fixed?]
  | through => cases h
  | self => simp only [passage] at h; split at h <;> cases h

theorem columns_of_key (h : r.passage t = .key) :
    (r.far.table, r.column) ∈ r.columns ∧ ∀ f ∈ r.fixed?, (r.far.table, f.column) ∈ r.columns := by
  obtain ⟨kind, column, link⟩ := r
  cases link with
  | key => simp [columns, far, fixed?]
  | keyWhere => simp [columns, far, fixed?]
  | through => cases h
  | self => simp only [passage] at h; split at h <;> cases h

theorem relates_of_association {assoc : Association} (h : r.passage t = .association assoc) :
    r.Relates store x y ↔ y ∈ store.records r.far ∧ ∃ z ∈ store.rowsOf assoc.table,
      (x.get r.column).Equals (z.get assoc.nearColumn) ∧ (∀ f ∈ r.fixed?, f.Holds z) ∧
        (z.get assoc.farColumn).Equals (y.get assoc.targetColumn) := by
  obtain ⟨kind, column, link⟩ := r
  cases link with
  | key => cases h
  | keyWhere => cases h
  | through =>
    cases h
    rfl
  | self =>
    simp only [passage] at h
    split at h <;> cases h
    simp [Relates, far, fixed?]

theorem columns_of_association {assoc : Association} (h : r.passage t = .association assoc) :
    (assoc.table, assoc.nearColumn) ∈ r.columns ∧ (assoc.table, assoc.farColumn) ∈ r.columns ∧
      (r.far.table, assoc.targetColumn) ∈ r.columns ∧
        ∀ f ∈ r.fixed?, (assoc.table, f.column) ∈ r.columns := by
  obtain ⟨kind, column, link⟩ := r
  cases link with
  | key => cases h
  | keyWhere => cases h
  | through =>
    cases h
    simp +contextual [columns, far, fixed?]
  | self =>
    simp only [passage] at h
    split at h <;> cases h
    simp [columns, far, fixed?]

theorem exists_closure (ht : t.isTransitive = true) (hr : r.isHierarchical = true) :
    ∃ table near far, r.passage t = .closure table near far := by
  obtain ⟨kind, column, link⟩ := r
  cases link with
  | self table near far => exact ⟨table, near, far, by simp_all [passage, isHierarchical]⟩
  | key => cases hr
  | keyWhere => cases hr
  | through => cases hr

theorem isTransitive_of_closure {table near far : String}
    (h : r.passage t = .closure table near far) : t.isTransitive = true := by
  obtain ⟨kind, column, link⟩ := r
  cases link with
  | key => cases h
  | keyWhere => cases h
  | through => cases h
  | self =>
    simp only [passage] at h
    split at h <;> cases h
    rename_i ht
    exact (Bool.and_eq_true_iff.1 ht).2

theorem closure_inv (store : Store) {table near far : String}
    (h : r.passage t = .closure table near far) :
    r.far = r.kind ∧ r.fixed? = none ∧ t.isTransitive = true ∧
      ∀ v w, r.Leads store v w ↔ Chain (store.rowsOf table) near far v w := by
  have ht := isTransitive_of_closure h
  obtain ⟨kind, column, link⟩ := r
  cases link with
  | key => cases h
  | keyWhere => cases h
  | through => cases h
  | self =>
    simp only [passage] at h
    split at h <;> cases h
    exact ⟨rfl, rfl, ht, fun _ _ => Iff.rfl⟩

theorem columns_of_closure {table near far : String} (h : r.passage t = .closure table near far) :
    (r.far.table, r.column) ∈ r.columns ∧ (table, near) ∈ r.columns ∧ (table, far) ∈ r.columns := by
  obtain ⟨kind, column, link⟩ := r
  cases link with
  | key => cases h
  | keyWhere => cases h
  | through => cases h
  | self =>
    simp only [passage] at h
    split at h <;> cases h
    simp [columns, Relationship.far]

theorem far_of_isHierarchical (h : r.isHierarchical = true) : r.far = r.kind := by
  obtain ⟨kind, column, link⟩ := r
  cases link with
  | self => rfl
  | key => cases h
  | keyWhere => cases h
  | through => cases h

section

variable {k : Kind} {column table joinColumn foreignJoinColumn : String} {h h' : Bool}
  (hx : x ∈ store.records k) (hy : y ∈ store.records k)
include hx hy

theorem relates_self_iff :
    Relates store ⟨k, column, .self table joinColumn foreignJoinColumn h⟩ x y ↔
      Relates store ⟨k, column, .self table foreignJoinColumn joinColumn h'⟩ y x := by
  have turn {a b : String} {u v : Row} (h : ∃ z ∈ store.rowsOf table,
      (u.get column).Equals (z.get a) ∧ (z.get b).Equals (v.get column)) :
      ∃ z ∈ store.rowsOf table, (v.get column).Equals (z.get b) ∧
        (z.get a).Equals (u.get column) := by
    obtain ⟨z, hz, hu, hv⟩ := h
    exact ⟨z, hz, hv.symm, hu.symm⟩
  exact ⟨fun h => ⟨hx, turn h.2⟩, fun h => ⟨hy, turn h.2⟩⟩

theorem reaches_self_iff :
    Reaches store ⟨k, column, .self table joinColumn foreignJoinColumn h⟩ x y ↔
      Reaches store ⟨k, column, .self table foreignJoinColumn joinColumn h'⟩ y x :=
  ⟨fun h => ⟨hx, Chain.reverse h.2⟩, fun h => ⟨hy, Chain.reverse h.2⟩⟩

end

theorem Relates.reaches_self {k : Kind} {column table joinColumn foreignJoinColumn : String}
    {h h' : Bool} (hr : Relates store ⟨k, column, .self table joinColumn foreignJoinColumn h⟩ x y) :
    Reaches store ⟨k, column, .self table joinColumn foreignJoinColumn h'⟩ x y := by
  obtain ⟨hy, z, hz, hx, hv⟩ := hr
  exact ⟨hy, Chain.step hz hx (.here hv)⟩

theorem near_mem_columns : (r.kind.table, r.column) ∈ r.columns := by
  simp [columns]

end Relationship

end Lexiquery
