import Lexiquery.Entity.Filters
import Lexiquery.Proofs.Filter.Stability
import Lexiquery.Proofs.Query.Finding

/-! Filters that ask for one record, or for the records that stand in a relation to it. -/

namespace Lexiquery

theorem Value.integer_equals_iff {m n : Int64} : (integer m).Equals (integer n) ↔ m = n := by
  simp [equals_iff, key_integer_inj]

theorem Value.ofOption_equals_iff {o : Option Int64} {n : Int64} :
    (ofOption integer o).Equals (integer n) ↔ o = some n := by
  cases o with
  | none => simp [ofOption, equals_iff]
  | some m => simp [ofOption, integer_equals_iff]

theorem Value.differs_iff {v w : Value} :
    Operator.differs.holds v w = true ↔ v ≠ .null ∧ w ≠ .null ∧ v.key ≠ w.key := by
  simp only [ne_eq, ← isNull_iff, ← order_eq_iff, Operator.holds]
  cases v.isNull <;> cases w.isNull <;> simp

theorem Test.holds_integer_differs_iff {m n : Int64} :
    Test.Holds .integer (.integer m) (.integer .differs n) ↔ m ≠ n := by
  refine Value.differs_iff.trans ?_
  simp [IntegerTest.operator, Operator.operand, Affinity.apply, Value.key_integer_inj]

theorem Test.holds_string_equals_iff {o : Option String} {s : String} :
    Test.Holds .text (.ofOption .text o) (.string .equals s) ↔ o = some s := by
  refine (Value.equals_iff).trans ?_
  cases o <;>
    simp [StringTest.operator, Operator.operand, Affinity.apply, Value.ofOption, Value.key]

theorem Test.holds_string_differs_iff {o : Option String} {s : String} :
    Test.Holds .text (.ofOption .text o) (.string .differs s) ↔ ∃ t ∈ o, t ≠ s := by
  refine Value.differs_iff.trans ?_
  cases o <;>
    simp [StringTest.operator, Operator.operand, Affinity.apply, Value.ofOption, Value.key]

namespace Schema

theorem declares_of_mem {f : Field} (h : f ∈ catalogue.map (·.2)) : Declares f := by
  obtain ⟨⟨name, _⟩, hm, rfl⟩ := List.mem_map.1 h
  exact .constant hm

theorem declares_idField (k : Kind) : Declares (idField k) :=
  declares_of_mem (by cases k <;> simp [catalogue, idField])

theorem isIntegral_primaryKey (k : Kind) : IsIntegral (k.table, k.primaryKey) := by
  cases k <;> decide +kernel

end Schema

theorem Store.Lexical.equals_key_iff {store : Store} (hs : store.Lexical) {k : Kind} {x : Row}
    (hx : x ∈ store.records k) {n : Int64} :
    (Value.integer n).Equals (x.get k.primaryKey) ↔ x.get k.primaryKey = .integer n := by
  obtain ⟨m, hm⟩ := hs.keys k x hx
  rw [hm, Value.integer_equals_iff, Value.integer.injEq, eq_comm]

theorem Store.Lexical.get_key_iff {store : Store} (hs : store.Lexical) {k : Kind} {x y : Row}
    {v : Value} (hx : x ∈ store.records k) (hy : y ∈ store.records k)
    (hv : y.get k.primaryKey = v) : x.get k.primaryKey = v ↔ x = y :=
  ⟨fun h => hs.eq_of_key hx hy (h.trans hv.symm), fun h => h ▸ hv⟩

theorem Order.sorts_primaryKey (k : Kind) : (ascending (Schema.idField k)).Sorts k where
  validate := by cases k <;> rfl
  overSchema := Schema.declares_idField k

theorem Order.sorts_random (k : Kind) : random.Sorts k := ⟨rfl, trivial⟩

namespace Filter

variable {store : Store} (hs : store.Lexical) {r : Relationship} {t : LinkTest} {k l : Kind}
  {id : Int64} {f : Filter} {x y : Row}

section

include hs

theorem holds_test_of_column {f : Field} {test : Test} {a : Affinity} (hk : f.kind = k)
    (hc : (Store.column? k.table f.column).map (·.affinity) = some a) :
    (Filter.test f test).Holds store k x ↔ test.Holds a (x.get f.column) := by
  obtain ⟨c, found, rfl⟩ := Option.map_eq_some_iff.1 hc
  rw [holds_test hk, hs.affinity_eq found]

theorem holds_idEquals (hy : y ∈ store.records k) :
    (idEquals k id).Holds store k y ↔ y.get k.primaryKey = .integer id := by
  obtain ⟨n, hn⟩ := hs.keys k y hy
  rw [idEquals, Schema.idField_eq]
  refine Iff.trans (holds_test_of_column hs rfl (Schema.isIntegral_primaryKey k)) ?_
  change (y.get k.primaryKey).Equals (.integer id) ↔ _
  rw [hn, Value.integer_equals_iff, Value.integer.injEq]

theorem holds_idDiffers {n : Int64} (hn : x.get k.primaryKey = .integer n) :
    (test (Schema.idField k) (.integer .differs id)).Holds store k x ↔ n ≠ id := by
  rw [Schema.idField_eq]
  refine Iff.trans (holds_test_of_column hs rfl (Schema.isIntegral_primaryKey k)) ?_
  change Test.Holds .integer (x.get k.primaryKey) _ ↔ _
  rw [hn, Test.holds_integer_differs_iff]

theorem holds_link_idEquals : (link r t (idEquals r.far id)).Holds store r.kind x ↔
    r.Asks store t (fun y => y.get r.far.primaryKey = .integer id) x :=
  (holds_link rfl).trans (Relationship.asks_congr fun _ hy => holds_idEquals hs hy)

theorem holds_withRelated_iff : (r.withRelated id).Holds store r.kind x ↔
    ∃ y, r.Relates store x y ∧ y.get r.far.primaryKey = .integer id :=
  holds_link_idEquals hs

theorem holds_withRelated (hy : y ∈ store.records r.far)
    (hk : y.get r.far.primaryKey = .integer id) :
    (r.withRelated id).Holds store r.kind x ↔ r.Relates store x y := by
  refine (holds_withRelated_iff hs).trans ⟨?_, fun h => ⟨y, h, hk⟩⟩
  rintro ⟨z, hz, h⟩
  exact (hs.get_key_iff hz.mem hy hk).1 h ▸ hz

end

theorem Guarded.along {hops : List Relationship} (h : f.Guarded) : (along hops f).Guarded := by
  induction hops with
  | nil => exact h
  | cons r hops ih => exact .link ih

theorem askable_of_along {g : Filter} (h : f.resolve k = along (Schema.path k l) g)
    (hw : f.WellFormed) (ho : f.OverSchema) (hg : g.Guarded) (hl : g.nodeCount ≤ 26)
    (hb : f.Brief) : f.Askable k where
  wellFormed := hw
  overSchema := ho
  guarded := h ▸ hg.along
  small := by
    have hp : (Schema.path k l).length ≤ 5 := Schema.length_path_le k l
    rw [h, nodeCount_along]
    omega
  brief := hb

theorem wellFormed_idEquals : (idEquals l id).WellFormed :=
  .test (by rw [Schema.idField_eq]; rfl)

theorem overSchema_idEquals : (idEquals l id).OverSchema :=
  .test (Schema.declares_idField l)

theorem brief_idEquals : (idEquals l id).Brief := .test trivial

theorem resolve_idEquals :
    (idEquals l id).resolve k = along (Schema.path k l) (idEquals l id) := by
  have hl : (Schema.idField l).kind = l := by
    rw [Schema.idField_eq]
    rfl
  rw [idEquals, resolve, normalize, compact_along, hl, compact]

theorem resolve_idEquals_self : (idEquals k id).resolve k = idEquals k id := by
  rw [resolve_idEquals, Schema.path_self]
  rfl

theorem resolve_link_idEquals : (link r t (idEquals r.far id)).resolve k =
    along (Schema.path k r.kind) (link r t (idEquals r.far id)) := by
  have hc : ((idEquals r.far id).normalize r.far).compact = _ := resolve_idEquals_self
  rw [resolve, normalize, compact_along, compact, hc]

theorem askable_idEquals : (idEquals l id).Askable k :=
  askable_of_along resolve_idEquals wellFormed_idEquals overSchema_idEquals .test
    (by simp [idEquals, nodeCount]) brief_idEquals

theorem askable_link_idEquals (hr : Schema.Declares r.field)
    (ht : (Comparison.link t).accepts r = true) : (link r t (idEquals r.far id)).Askable k :=
  askable_of_along resolve_link_idEquals (.link ht wellFormed_idEquals)
    (.link hr overSchema_idEquals) (.link .test) (by simp [idEquals, nodeCount])
    (.link trivial brief_idEquals)

theorem askable_and {fs gs : List Filter} (h : (group .and fs).resolve k = group .and gs)
    (hw : ∀ f ∈ fs, f.WellFormed) (hf : ∀ f ∈ fs, f.OverSchema) (hg : ∀ g ∈ gs, g.Guarded)
    (hl : (group .and gs).nodeCount ≤ 31) (hb : ∀ f ∈ fs, f.Brief) : (group .and fs).Askable k where
  wellFormed := .group hw
  overSchema := .group hf
  guarded := by
    rw [h]
    exact .group hg nofun
  small := h ▸ hl
  brief := .group hb

end Filter

end Lexiquery
