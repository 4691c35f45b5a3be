import Lexiquery.Proofs.Statement.Realization

/-! Hoisted expressions. Joined on the values of their column, they leave the rows that have a
partner or, behind a left join and a test for null, those that have none. -/

namespace Lexiquery

theorem sameName_refl (s : String) : sameName s s = true := by
  simp [sameName]

theorem Row.get_singleton (column : String) (v : Value) : Row.get [(column, v)] column = v := by
  simp [get, sameName_refl]

theorem Table.column?_singleton {c : Column} {rows : List Row} :
    Table.column? ⟨[c], rows⟩ c.name = some c := by
  simp [column?, sameName_refl]

namespace Reading

section

variable {d : Reading} {a : Alias} {column : String} {e : Env} {x : Row} {vs : List Value}
  (partner : Alias) (hx : e.lookup a = some x) (hlt : a.number < partner.number)
  (ha : d.affinity ⟨a, column⟩ = .integer) (ht : d.table? partner.source =
    some ⟨[⟨column, .integer⟩], vs.map fun v => [(column, v)]⟩)
include hx hlt ha ht

theorem mem_extend_values (e' : Env) :
    e' ∈ Join.extend d ⟨.inner, partner, [.columns ⟨a, column⟩ ⟨partner, column⟩]⟩ e ↔
      ∃ w ∈ vs, (x.get column).Equals w ∧ e' = (partner, [(column, w)]) :: e := by
  have hp : d.affinity ⟨partner, column⟩ = .integer := by
    simp [affinity, ht, Table.affinity?, Table.column?_singleton (c := ⟨column, .integer⟩)]
  simp only [mem_extend_inner, rows, ht, Option.map_some, Option.getD_some, List.mem_map,
    List.forall_mem_singleton, JoinOn.holds, equal_iff ha hp, Env.get_cons_self,
    Env.get_cons_of_lt (r := ⟨a, column⟩) hlt, Env.get_of_lookup hx]
  constructor
  · rintro ⟨_, ⟨w, hw, rfl⟩, rfl, he⟩
    exact ⟨w, hw, by rwa [Row.get_singleton] at he, rfl⟩
  · rintro ⟨w, hw, he, rfl⟩
    exact ⟨_, ⟨w, hw, rfl⟩, rfl, by rwa [Row.get_singleton]⟩

/-- After a left join null stands where no value is equal, and only there. -/
theorem exists_extend_left_null {b : Bool} :
    (∃ e' ∈ Join.extend d ⟨.left, partner, [.columns ⟨a, column⟩ ⟨partner, column⟩]⟩ e,
      (e'.get ⟨partner, column⟩).isNull = b) ↔
        (b = true ↔ ¬ ∃ w ∈ vs, (x.get column).Equals w) := by
  have mem := mem_extend_values partner hx hlt ha ht
  rw [extend_left]
  generalize Join.extend d ⟨.inner, partner, [.columns ⟨a, column⟩ ⟨partner, column⟩]⟩ e = es
    at mem
  by_cases h : ∃ w ∈ vs, (x.get column).Equals w
  · obtain ⟨w, hw, he⟩ := h
    have hm : (partner, [(column, w)]) :: e ∈ es := (mem _).2 ⟨w, hw, he, rfl⟩
    have hne : es.isEmpty = false := by cases es <;> simp_all
    simp only [hne, Bool.false_eq_true, if_false]
    constructor
    · rintro ⟨e', h', rfl⟩
      obtain ⟨w', hw', he', rfl⟩ := (mem e').1 h'
      simpa [Row.get_singleton, he'.isNull_right] using ⟨w, hw, he⟩
    · intro hb
      refine ⟨_, hm, ?_⟩
      have : b = false := by
        rw [Bool.eq_false_iff]
        exact fun h => hb.1 h ⟨w, hw, he⟩
      simp [Row.get_singleton, he.isNull_right, this]
  · have hes : es = [] := List.eq_nil_iff_forall_not_mem.2 fun e' he' => by
      obtain ⟨w, hw, he, -⟩ := (mem e').1 he'
      exact h ⟨w, hw, he⟩
    have hnull : (Row.get [] column).isNull = true := rfl
    simp only [hes, h, hnull, List.isEmpty_nil, if_true, List.mem_singleton, exists_eq_left,
      Env.get_cons_self, not_false_eq_true, iff_true, eq_comm]

end

end Reading

namespace Fragment

section

variable {store : Store} {a : Alias} {column : String} {far : Kind} {positive : Bool}
  {body : CteBody} {ctes : List Cte} {tables : List Alias} {n : Numbering} {P : Value → Prop}

theorem ReadIn.table?_hoist {d : Reading}
    (hb : ∀ {d : Reading}, d.store = store → d.affinity body.column = .integer)
    (names : ∀ c ∈ ctes, c.name.number ≤ n.ctes + ctes.length)
    (h : (hoist ⟨a, column⟩ far positive body ctes tables n).ReadIn store n d) :
    ∃ known, (∀ q ∈ known, q.1.number ≤ n.ctes) ∧
      d.table? (.cte ⟨far.table, n.ctes + ctes.length + 1⟩) = some ⟨[⟨column, .integer⟩],
        (body.values ⟨store, store.tabulate known ctes⟩).map fun v => [(column, v)]⟩ := by
  obtain ⟨known, rest, hk, rfl⟩ := h
  refine ⟨known, hk, List.lookup_eq_some_iff.2 ⟨store.tabulate known ctes, rest, ?_, ?_⟩⟩
  · simp [hoist, Store.tabulate_concat, Cte.table, hb]
  · intro q hq
    have : q.1.number < n.ctes + ctes.length + 1 := by
      obtain hq | ⟨c, hc, hq⟩ := Store.mem_tabulate hq
      · exact Nat.lt_succ_of_le (Nat.le_add_right_of_le (hk q hq))
      · exact hq ▸ Nat.lt_succ_of_le (names c hc)
    rw [bne_iff_ne]
    intro hq
    rw [← hq] at this
    exact Nat.lt_irrefl _ this

theorem realizes_hoist (ha : a.number ≤ n.aliases)
    (hl : ∀ {d : Reading}, d.store = store → d.affinity ⟨a, column⟩ = .integer)
    (hb : ∀ {d : Reading}, d.store = store → d.affinity body.column = .integer)
    (names : ∀ c ∈ ctes, c.name.number ≤ n.ctes + ctes.length)
    (hP : ∀ known, (∀ q ∈ known, q.1.number ≤ n.ctes) → ∀ v,
      (∃ w ∈ body.values ⟨store, store.tabulate known ctes⟩, v.Equals w) ↔ P v) :
    (hoist ⟨a, column⟩ far positive body ctes tables n).Realizes store a n fun x b =>
      if positive then b = true ∧ P (x.get column) else b = true ↔ ¬ P (x.get column) where
  fresh := by
    simp only [hoist, List.forall_mem_singleton]
    omega
  within := by
    cases positive with
    | true => exact Condition.within_always
    | false =>
      refine Condition.within_null ?_
      simp only [hoist, Numbering.after, List.length_append, List.length_singleton]
      omega
  names := by
    simp only [hoist, Numbering.after, List.forall_mem_append, List.forall_mem_singleton,
      List.length_append, List.length_singleton]
    exact ⟨fun c hc => Nat.le_succ_of_le (names c hc), Nat.le_refl _⟩
  outcome {d} hd e x hx b := by
    obtain ⟨known, hk, ht⟩ := hd.table?_hoist hb names
    have ht : d.table? (Alias.source ⟨.cte _, n.aliases + tables.length + 1⟩) = _ := ht
    have hlt : a.number < n.aliases + tables.length + 1 := by omega
    rw [← hP known hk]
    cases positive with
    | true =>
      have mem := Reading.mem_extend_values _ hx hlt (hl hd.store_eq) ht
      simp only [hoist, Condition.holds, if_true, Reading.joined_cons, Reading.joined_nil,
        List.flatMap_singleton', mem]
      constructor
      · rintro ⟨_, ⟨w, hw, he, _⟩, hb⟩
        exact ⟨hb.symm, w, hw, he⟩
      · rintro ⟨hb, w, hw, he⟩
        exact ⟨_, ⟨w, hw, he, rfl⟩, hb.symm⟩
    | false =>
      simpa [hoist, Condition.holds, Reading.joined_cons, NullTest.holds] using
        Reading.exists_extend_left_null (b := b) _ hx hlt (hl hd.store_eq) ht

end

end Fragment

end Lexiquery
