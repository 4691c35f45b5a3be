import Lexiquery.Proofs.Query.Executing
import Lexiquery.Proofs.Statement.Running
import Lexiquery.Proofs.Store.Bytes

/-! All records of a kind. Each row of their table is one of them, unless a column of some row has a
value that is none of its type; then there is no answer at all. -/

namespace Lexiquery

def ColumnType.Admits : ColumnType → Value → Prop
  | integer, v => ∃ n, v = .integer n
  | text, v => ∃ s, v = .text s
  | integerOrNull, v => v = .null ∨ ∃ n, v = .integer n
  | textOrNull, v => v = .null ∨ ∃ s, v = .text s
  | code _ codes, v => ∃ n ∈ codes, v = .integer n

/-- Whether a value is one of a storage class. What is stored as a text is one if its bytes are
those of a text in the encoding of the database. -/
def Value.IsOf : Value → StorageClass → Prop
  | garbled g, c => c = .text ∧ ∃ s, Utf8.encode s = g.bytes
  | v, c => v.storageClass = c

theorem Value.isOf_iff {v : Value} {c : StorageClass} :
    v.IsOf c ↔ v.storageClass = c ∧ ∀ g, v ≠ garbled g := by
  cases v with
  | garbled g => exact iff_of_false (fun ⟨_, s, hs⟩ => g.encode_ne s hs) fun h => h.2 g rfl
  | _ => simp [IsOf]

/-- Null in a column that must have a value, a value of a storage class that is none of the column,
an integer that is no code of its enumeration. -/
inductive ColumnType.Excludes : ColumnType → Value → Prop
  | null {t : ColumnType} : .null ∉ t.classes → Excludes t .null
  | storageClass {t : ColumnType} {v : Value} : v ≠ .null → (∀ c ∈ t.classes, ¬v.IsOf c) →
    Excludes t v
  | code {label : String} {codes : List Int64} {n : Int64} : n ∉ codes →
    Excludes (.code label codes) (.integer n)

theorem ColumnType.fault?_eq_none_iff {t : ColumnType} {c : Cells} {i : Nat} :
    t.fault? c i = none ↔ t.Admits (c.value i) := by
  cases t <;> cases hv : c.value i <;> simp [fault?, classes, Admits, hv, Value.storageClass]

theorem ColumnType.Excludes.not_admits {t : ColumnType} {v : Value} (h : t.Excludes v) :
    ¬t.Admits v := by
  cases h with
  | null h => cases t <;> simp_all [classes, Admits]
  | storageClass hn h =>
    cases t <;> cases v <;> simp_all [classes, Admits, Value.isOf_iff, Value.storageClass]
  | code h => simpa [Admits] using h

theorem ColumnType.not_admits_iff {t : ColumnType} {v : Value} : ¬t.Admits v ↔ t.Excludes v := by
  refine ⟨fun h => ?_, Excludes.not_admits⟩
  by_cases hn : v = .null
  · subst hn
    refine .null ?_
    cases t <;> simp_all [classes, Admits]
  · by_cases hc : ∀ c ∈ t.classes, ¬v.IsOf c
    · exact .storageClass hn hc
    · cases t <;> cases v <;> simp_all [classes, Admits, Value.isOf_iff, Value.storageClass]
      exact .code h

def Kind.Admits (k : Kind) (x : Row) : Prop :=
  ∀ p ∈ k.columns.zip k.columnTypes, p.2.Admits (x.get p.1)

theorem Kind.not_admits_iff {k : Kind} {x : Row} :
    ¬k.Admits x ↔ ∃ p ∈ k.columns.zip k.columnTypes, p.2.Excludes (x.get p.1) := by
  simp only [Admits, not_forall, exists_prop, ColumnType.not_admits_iff]

theorem Cells.value_project {k : Kind} {x : Row} {i : Nat} :
    (Cells.mk k (k.project x)).value i = (k.columns[i]?.map x.get).getD .null := by
  simp only [value, Kind.project, List.getElem?_map, Option.map_map]
  rfl

theorem Kind.fault?_project_eq_none_iff {k : Kind} {x : Row} :
    k.fault? (k.project x) = none ↔ k.Admits x := by
  simp only [fault?, List.findSome?_eq_none_iff, ColumnType.fault?_eq_none_iff,
    Cells.value_project, Admits]
  cases k <;> simp [columns, columnTypes]

theorem Kind.Decodes.forall₂ {k : Kind} {xs : List Row} {es : List Entity} (h : k.Decodes xs es) :
    List.Forall₂ (fun x e => Entity.decode k (k.project x) = .ok e) xs es := by
  rwa [Decodes, ← List.forall₂_eq_eq_eq, List.forall₂_map_left_iff,
    List.forall₂_map_right_iff] at h

theorem Value.integer_atMost_iff {m n : Int64} : (integer m).AtMost (integer n) ↔ m ≤ n :=
  Std.isLE_compare

namespace Store

/-- Whether a store has the table of a kind, whose rows are told apart by their primary keys. -/
structure Keeps (store : Store) (k : Kind) : Prop where
  isValid : store.isValid = true
  columns : ∀ c ∈ k.columns, (store.table? k.table).any (fun t => (t.column? c).isSome) = true
  distinct : (store.records k).Pairwise fun x y =>
    (x.get k.primaryKey).order (y.get k.primaryKey) ≠ .eq

/-- Whether records are those of a kind, one for each row, in the order of their primary keys. -/
structure ListsAll (store : Store) (k : Kind) (es : List Entity) : Prop where
  ascending : es.Pairwise fun d e => d.id < e.id
  rows : ∃ xs, xs.Perm (store.records k) ∧ List.Forall₂ (fun x e => e.kind = k ∧ e.Shows x) xs es

end Store

def Kind.listing (k : Kind) : Statement :=
  .ofFilter k k.columns .empty (.ascending (Schema.idField k)) none

namespace Store

variable {store : Store} {k : Kind}

theorem order_idField (k : Kind) (x y : Row) :
    (Order.ascending (Schema.idField k)).Places x y ↔
      (x.get k.primaryKey).AtMost (y.get k.primaryKey) := by
  rw [Schema.idField_eq]
  rfl

namespace Keeps

variable (h : store.Keeps k)
include h

theorem check_listing : k.listing.check store = .ok () := by
  have column {c : String} (hc : c ∈ k.columns) :
      k.listing.hasColumn store ⟨k.listing.main, c⟩ = true := h.columns c hc
  have key : k.primaryKey ∈ k.columns := List.mem_of_mem_head? k.columns_head?
  have group : k.listing.groupColumn = k.primaryKey := by
    simp [Statement.groupColumn, Kind.listing, Statement.ofFilter, k.columns_head?]
  refine Statement.check_eq_ok h.isValid ?_
    ⟨?_, List.forall_mem_nil _, Condition.names_always, List.forall_mem_nil _, ?_, ?_⟩
  · refine ⟨?_, Nat.zero_le _, List.forall_mem_nil _⟩
    change ∀ e ∈ [Extent.of [] .always], _
    decide
  · exact List.forall_mem_map.2 fun c hc => column hc
  · rw [group]
    exact column key
  · rintro f d ho
    obtain ⟨rfl, -⟩ := Order.by.inj ho
    rw [Schema.idField_eq]
    exact column key

theorem nodup_keys : ((store.records k).map fun x => (x.get k.primaryKey).key).Nodup :=
  List.pairwise_map.2 (h.distinct.imp fun hne he => hne (Value.order_eq_iff.2 he))

theorem found_perm : (k.listing.found store).Perm (store.records k) := by
  rw [List.perm_ext_iff_of_nodup Statement.nodup_found (.of_map _ h.nodup_keys)]
  intro x
  have group : k.listing.groupColumn = k.primaryKey := by
    simp [Statement.groupColumn, Kind.listing, Statement.ofFilter, k.columns_head?]
  rw [Statement.mem_found (s := k.listing) (List.forall_mem_nil _) rfl group
    fun x hx y hy => List.inj_on_of_nodup_map h.nodup_keys hx hy]
  exact and_iff_left ⟨_, List.mem_singleton_self _, rfl⟩

theorem result_all : (store.all k).result =
    (((k.listing.found store).map k.project).mapM (Entity.decode k)).mapError .decode := by
  have prepared : (Query.prepare store k .empty (.ascending (Schema.idField k)) none).result =
      .ok ⟨k, .empty, k.listing⟩ :=
    Query.prepare_eq_ok_iff.2 ⟨by rw [Schema.idField_eq]; cases k <;> rfl, h.check_listing, rfl⟩
  have run : k.listing.run store = .ok ((k.listing.found store).map k.project) := by
    rw [Statement.run_of_check h.check_listing, Statement.rows_eq_found rfl]
    rfl
  rw [← Query.result_all (q := ⟨k, .empty, k.listing⟩) run]
  change ((Query.prepare ..).andThen _).result = _
  rw [Logged.andThen, prepared]

theorem all_eq_ok_iff {es : List Entity} :
    (store.all k).result = .ok es ↔ k.Decodes (k.listing.found store) es := by
  rw [h.result_all, Except.mapError_eq_ok_iff, Except.mapM_eq_ok_iff, List.map_map]
  rfl

theorem lists_of_decodes {es : List Entity} (he : k.Decodes (k.listing.found store) es) :
    store.ListsAll k es := by
  have rows : List.Forall₂ (fun x e => e.kind = k ∧ e.Shows x) (k.listing.found store) es := by
    refine he.forall₂.imp fun x e hx => ?_
    obtain rfl := Entity.kind_of_decode hx
    exact ⟨rfl, Entity.decode_project_iff.1 hx⟩
  have keys : (k.listing.found store).map (·.get k.primaryKey) =
      es.map fun e => Value.integer e.id := by
    rw [← List.forall₂_eq_eq_eq, List.forall₂_map_left_iff, List.forall₂_map_right_iff]
    refine rows.imp fun x e ⟨hk, hx⟩ => ?_
    rw [← hk]
    exact hx.get_primaryKey
  have ordered : ((k.listing.found store).map (·.get k.primaryKey)).Pairwise Value.AtMost :=
    List.pairwise_map.2 ((k.listing.pairwise_found store).imp (order_idField k _ _).1)
  have distinct : ((k.listing.found store).map (·.get k.primaryKey)).Pairwise (·.key ≠ ·.key) := by
    have := (h.found_perm.map fun x => (x.get k.primaryKey).key).nodup_iff.2 h.nodup_keys
    exact List.pairwise_map.2 (List.pairwise_map.1 this)
  rw [keys, List.pairwise_map] at ordered distinct
  refine ⟨ordered.imp₂ (fun d e hle hne => ?_) distinct, _, h.found_perm, rows⟩
  refine Int64.lt_of_le_of_ne (Value.integer_atMost_iff.1 hle) fun hd => hne ?_
  rw [hd]

theorem all_eq_error_iff {e : Error} : (store.all k).result = .error e ↔ ∃ fault,
    ((k.listing.found store).map k.project).findSome? k.fault? = some fault ∧
      e = .decode fault := by
  have fails :=
    Except.FailsWith.mapM (Entity.decode_fails k) ((k.listing.found store).map k.project)
  rw [h.result_all, Except.mapError_eq_error_iff]
  exact exists_congr fun fault => and_congr (fails fault) eq_comm

theorem exists_all_eq_error_iff :
    (∃ e, (store.all k).result = .error e) ↔ ∃ x ∈ store.records k, ¬k.Admits x := by
  have faulty : (∃ e, (store.all k).result = .error e) ↔
      ((k.listing.found store).map k.project).findSome? k.fault? ≠ none := by
    simp only [h.all_eq_error_iff, Option.ne_none_iff_exists']
    rw [exists_comm]
    simp only [exists_and_left, exists_eq, and_true]
  rw [faulty, ne_eq, List.findSome?_eq_none_iff, List.forall_mem_map]
  simp only [Kind.fault?_project_eq_none_iff, h.found_perm.mem_iff, not_forall, exists_prop]

end Keeps

def filed (data : Value) : Store :=
  empty.insertAll "groups" [[.integer 1, .text "run"], [.integer 2, data]]

end Store

end Lexiquery
