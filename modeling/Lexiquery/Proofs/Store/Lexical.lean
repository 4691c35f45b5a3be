import Mathlib.Data.List.Nodup
import Lexiquery.Proofs.Schema.Fields
import Lexiquery.Proofs.Store.Equality

/-! Stores that hold a lexical database: every table is there, and the records of a kind are told
apart by their primary keys. All columns that relationships go by prefer integers. -/

namespace Lexiquery

theorem Value.storageClass_eq_integer {v : Value} :
    v.storageClass = .integer ↔ ∃ n, v = .integer n := by
  cases v <;> simp [storageClass]

namespace Store

def rowsOf (store : Store) (table : String) : List Row :=
  ((store.table? table).map (·.rows)).getD []

def records (store : Store) (k : Kind) : List Row := store.rowsOf k.table

def affinity (store : Store) (table column : String) : Affinity :=
  ((store.table? table).bind (·.affinity? column)).getD .integer

/-- A lexical database. Primary keys are integers and distinct; all else may hold any values, and
nothing is said of the rows that associate records. -/
structure Lexical (store : Store) : Prop where
  isValid : store.isValid = true
  tables : ∀ p ∈ schema, (store.table? p.1).map (·.columns) = some p.2
  keys : ∀ k, ∀ x ∈ store.records k, ∃ n, x.get k.primaryKey = .integer n
  distinct : ∀ k, ((store.records k).map (·.get k.primaryKey)).Nodup

namespace Lexical

variable {store : Store} (h : store.Lexical)
include h

theorem table?_of_column? {table column : String} {c : Column}
    (hc : Store.column? table column = some c) :
    ∃ t, store.table? table = some t ∧ t.column? column = some c := by
  obtain ⟨columns, hl, hc⟩ := Option.bind_eq_some_iff.1 hc
  have hm : (table, columns) ∈ schema := by
    obtain ⟨_, _, hs, -⟩ := List.lookup_eq_some_iff.1 hl
    simp [hs]
  obtain ⟨t, ht, rfl⟩ := Option.map_eq_some_iff.1 (h.tables _ hm)
  exact ⟨t, ht, hc⟩

theorem affinity_eq {table column : String} {c : Column}
    (hc : Store.column? table column = some c) : store.affinity table column = c.affinity := by
  obtain ⟨t, ht, hc⟩ := h.table?_of_column? hc
  simp [affinity, ht, Table.affinity?, hc]

theorem eq_of_key {k : Kind} {x y : Row} (hx : x ∈ store.records k) (hy : y ∈ store.records k)
    (hk : x.get k.primaryKey = y.get k.primaryKey) : x = y :=
  List.inj_on_of_nodup_map (h.distinct k) hx hy hk

theorem eq_of_key_eq {k : Kind} {x y : Row} (hx : x ∈ store.records k) (hy : y ∈ store.records k)
    (hk : (x.get k.primaryKey).key = (y.get k.primaryKey).key) : x = y := by
  obtain ⟨m, hm⟩ := h.keys k x hx
  obtain ⟨n, hn⟩ := h.keys k y hy
  rw [hm, hn, Value.key_integer_inj] at hk
  exact h.eq_of_key hx hy (by rw [hm, hn, hk])

end Lexical

theorem lexical_iff {store : Store} : store.Lexical ↔ store.isValid = true ∧
    (∀ p ∈ schema, (store.table? p.1).map (·.columns) = some p.2) ∧
    ∀ k ∈ Kind.all, (∀ x ∈ store.records k, (x.get k.primaryKey).storageClass = .integer) ∧
      ((store.records k).map (·.get k.primaryKey)).Nodup := by
  simp only [Value.storageClass_eq_integer, Kind.mem_all, forall_const, forall_and]
  constructor
  · exact fun h => ⟨h.isValid, h.tables, h.keys, h.distinct⟩
  · rintro ⟨hv, ht, hk, hd⟩
    exact ⟨hv, ht, hk, hd⟩

instance (store : Store) : Decidable store.Lexical := decidable_of_iff' _ lexical_iff

/-- A small lexical database. The first two notions are above one another and the third is below one
that is not there; the first word is a synonym of the other two. -/
def sample : Store :=
  (((empty.insertAll "notions"
      ([1, 2, 3].map fun n => [.integer n, .integer 0, .null, .null])).insertAll "words"
      ([1, 2, 3].map fun n => [.integer n, .integer 1, .integer n, .null, .null, .null])).insertAll
      "hypernymy" ([(1, 2), (2, 1), (3, 4)].map fun p => [.integer p.1, .integer p.2])).insertAll
      "synonymy" ([(1, 2), (1, 3)].map fun p => [.integer p.1, .integer p.2])

theorem lexical_sample : sample.Lexical := by decide +kernel

end Store

theorem Store.Lexical.affinity_of_isIntegral {store : Store} (h : store.Lexical)
    {q : String × String} (hq : Schema.IsIntegral q) : store.affinity q.1 q.2 = .integer := by
  obtain ⟨c, hc, ha⟩ := Option.map_eq_some_iff.1 hq
  rw [h.affinity_eq hc, ha]

theorem Store.Lexical.affinity_link {store : Store} (h : store.Lexical) {r : Relationship}
    (hr : Schema.Declares r.field) : ∀ q ∈ r.columns, store.affinity q.1 q.2 = .integer :=
  fun q hq => h.affinity_of_isIntegral (hr.isIntegral q hq)

end Lexiquery
