import Lexiquery.Proofs.Statement.Hoisting

/-! Lowering realizes a filter: whatever a store holds, on the rows joined to a record the condition
of the fragment takes the truth values that the filter yields. -/

namespace Lexiquery

namespace Relationship

variable {store : Store} {r : Relationship} {y : Row} {d : Reading} {e : Env} {table : String}
  {m : Nat}

theorem holds_fixed (hd : d.store = store) (hy : e.lookup ⟨.table table, m⟩ = some y) {f : Fixed}
    (hf : store.affinity table f.column = .integer) :
    (Condition.literal ⟨⟨.table table, m⟩, f.column⟩ f.value).holds d e = true ↔ f.Holds y := by
  rw [Condition.holds, Reading.affinity_table hd, hf, Env.get_of_lookup hy]
  rfl

theorem holds_fixedOn (hd : d.store = store) (hy : e.lookup ⟨.table table, m⟩ = some y)
    (hf : ∀ f ∈ r.fixed?, store.affinity table f.column = .integer) :
    (∀ o ∈ r.fixedOn ⟨.table table, m⟩, o.holds d e = true) ↔ ∀ f ∈ r.fixed?, f.Holds y := by
  rw [fixedOn]
  cases h : r.fixed? with
  | none => simp
  | some f => simpa [JoinOn.holds] using holds_fixed hd hy (hf f h)

theorem holds_withFixed {c : Condition} (hd : d.store = store)
    (hy : e.lookup ⟨.table table, m⟩ = some y)
    (hf : ∀ f ∈ r.fixed?, store.affinity table f.column = .integer) :
    (r.withFixed ⟨.table table, m⟩ c).holds d e = true ↔
      c.holds d e = true ∧ ∀ f ∈ r.fixed?, f.Holds y := by
  rw [withFixed]
  cases h : r.fixed? with
  | none => simp
  | some f => simpa [Condition.holds_all, Connective.decide] using
      fun _ => holds_fixed hd hy (hf f h)

end Relationship

namespace Fragment

variable {store : Store} {r : Relationship} {t : LinkTest} {n : Numbering} {m : Nat} {p : Fragment}
  {Y : Row → Bool → Prop}

theorem mem_values {table : String} (column : String) {v : Value} {d : Reading} (hm : m ≤ n.aliases)
    (h : p.Realizes store ⟨.table table, m⟩ n Y) (hd : p.ReadIn store n d)
    (hf : ∀ f ∈ r.fixed?, store.affinity table f.column = .integer) :
    v ∈ Select.values d ⟨⟨⟨.table table, m⟩, column⟩, p.joins,
        r.withFixed ⟨.table table, m⟩ p.condition⟩ ↔
      ∃ y ∈ store.rowsOf table, (Y y true ∧ ∀ f ∈ r.fixed?, f.Holds y) ∧ y.get column = v := by
  rw [Select.mem_values]
  simp only [Reading.rows_table hd.store_eq]
  refine exists_congr fun y => and_congr_right fun _ => ?_
  rw [← h.outcome hd Env.lookup_cons_self true]
  have lookup {e : Env} (he : e ∈ d.joined p.joins [(⟨.table table, m⟩, y)]) :
      e.lookup ⟨.table table, m⟩ = some y :=
    (Reading.agrees_joined h.fresh he ⟨.table table, m⟩ hm) ▸ Env.lookup_cons_self
  constructor
  · rintro ⟨e, he, hc, hv⟩
    obtain ⟨hc, hf⟩ := (Relationship.holds_withFixed hd.store_eq (lookup he) hf).1 hc
    exact ⟨⟨⟨e, he, hc⟩, hf⟩, Env.get_of_lookup (lookup he) column ▸ hv⟩
  · rintro ⟨⟨⟨e, he, hc⟩, hfx⟩, hv⟩
    exact ⟨e, he, (Relationship.holds_withFixed hd.store_eq (lookup he) hf).2 ⟨hc, hfx⟩,
      (Env.get_of_lookup (lookup he) column).trans hv⟩

theorem readIn_tabulate {known : List (CteName × Table)} (hk : ∀ q ∈ known, q.1.number ≤ n.ctes) :
    p.ReadIn store n ⟨store, store.tabulate known p.ctes⟩ :=
  ⟨known, [], hk, by rw [List.append_nil]⟩

section

variable {near table column column' : String} {far : Kind} {tables : List Alias}

theorem realizes_hoist_select (hm : m ≤ n.aliases) (hn : store.affinity near column = .integer)
    (hc : store.affinity table column' = .integer)
    (hf : ∀ f ∈ r.fixed?, store.affinity table f.column = .integer)
    (h : p.Realizes store ⟨.table table, n.aliases + 1⟩ ⟨n.aliases + 1, n.ctes⟩ Y) :
    (hoist ⟨⟨.table near, m⟩, column⟩ far false (.select ⟨⟨⟨.table table, n.aliases + 1⟩, column'⟩,
        p.joins, r.withFixed ⟨.table table, n.aliases + 1⟩ p.condition⟩) p.ctes tables n).Realizes
      store ⟨.table near, m⟩ n fun x b => b = true ↔ ¬ ∃ y ∈ store.rowsOf table,
        (Y y true ∧ ∀ f ∈ r.fixed?, f.Holds y) ∧ (x.get column).Equals (y.get column') := by
  apply realizes_hoist (P := fun v => ∃ y ∈ store.rowsOf table,
    (Y y true ∧ ∀ f ∈ r.fixed?, f.Holds y) ∧ v.Equals (y.get column')) hm
  · exact fun hd => (Reading.affinity_table hd).trans hn
  · exact fun hd => (Reading.affinity_table hd).trans hc
  · exact h.names
  · intro known hk v
    simp only [CteBody.values,
      mem_values column' (Nat.le_refl (n.aliases + 1)) h (readIn_tabulate hk) hf]
    constructor
    · rintro ⟨_, ⟨y, hy, hq, rfl⟩, hv⟩
      exact ⟨y, hy, hq, hv⟩
    · rintro ⟨y, hy, hq, hv⟩
      exact ⟨_, ⟨y, hy, hq, rfl⟩, hv⟩

theorem holds_columns {m' : Nat} {d : Reading} {e : Env} {x y : Row} (hd : d.store = store)
    (hx : e.lookup ⟨.table near, m⟩ = some x) (hlt : m < m')
    (hn : store.affinity near column = .integer) (hf : store.affinity table column' = .integer) :
    JoinOn.holds d ((⟨.table table, m'⟩, y) :: e)
        (.columns ⟨⟨.table near, m⟩, column⟩ ⟨⟨.table table, m'⟩, column'⟩) = true ↔
      (x.get column).Equals (y.get column') := by
  rw [JoinOn.holds, Reading.equal_iff ((Reading.affinity_table hd).trans hn)
    ((Reading.affinity_table hd).trans hf), Env.get_cons_self, Env.get_cons_of_lt hlt,
    Env.get_of_lookup hx]

end

section

variable (hi : ∀ q ∈ r.columns, store.affinity q.1 q.2 = .integer) (hm : m ≤ n.aliases)
include hi hm

theorem realizes_alongKey (hp : r.passage t = .key) (ht : t.isTransitive = false)
    (h : p.Realizes store ⟨.table r.far.table, n.aliases + 1⟩ ⟨n.aliases + 1, n.ctes⟩ Y) :
    (p.alongKey r t ⟨⟨.table r.kind.table, m⟩, r.column⟩ ⟨.table r.far.table, n.aliases + 1⟩
      n).Realizes store ⟨.table r.kind.table, m⟩ n (r.Yields store t Y) := by
  obtain ⟨hc, hf⟩ := Relationship.columns_of_key hp
  have hi' : ∀ f ∈ r.fixed?, store.affinity r.far.table f.column = .integer :=
    fun f hm => hi _ (hf f hm)
  by_cases hpos : t.isPositive = true
  · rw [alongKey, if_pos hpos]
    refine (shows_enter rfl h (R := fun x y => (x.get r.column).Equals (y.get r.column) ∧
      ∀ f ∈ r.fixed?, f.Holds y) (fun hd hx y => ?_) Reading.rows_table).congr
        (fun _ _ => rfl) fun x b => ?_
    · rw [List.forall_mem_cons, holds_columns hd hx (by omega) (hi _ r.near_mem_columns) (hi _ hc),
        Relationship.holds_fixedOn hd Env.lookup_cons_self hi']
    · simp only [Relationship.yields_of_not_transitive ht, hpos, if_true,
        Relationship.relates_of_key hp, and_assoc]
      rfl
  · rw [alongKey, if_neg hpos]
    refine (realizes_hoist_select hm (hi _ r.near_mem_columns) (hi _ hc) hi' h).congr
      (fun _ _ => rfl) fun x b => ?_
    simp only [Relationship.yields_of_not_transitive ht, hpos, Bool.false_eq_true, if_false,
      Relationship.relates_of_key hp, Store.records]
    refine iff_congr Iff.rfl (not_congr (exists_congr fun y => ?_))
    tauto

theorem realizes_alongAssociation {assoc : Association} (hp : r.passage t = .association assoc)
    (ht : t.isTransitive = false)
    (h : p.Realizes store ⟨.table r.far.table, n.aliases + 2⟩ ⟨n.aliases + 2, n.ctes⟩ Y) :
    (p.alongAssociation r assoc t ⟨⟨.table r.kind.table, m⟩, r.column⟩
      ⟨.table assoc.table, n.aliases + 1⟩ ⟨.table r.far.table, n.aliases + 2⟩ n).Realizes
        store ⟨.table r.kind.table, m⟩ n (r.Yields store t Y) := by
  obtain ⟨hnear, hfar, htarget, hf⟩ := Relationship.columns_of_association hp
  have hi' : ∀ f ∈ r.fixed?, store.affinity assoc.table f.column = .integer :=
    fun f hm => hi _ (hf f hm)
  -- the rows of the association, each with the far rows it names
  have named : (p.enter ⟨.table r.far.table, n.aliases + 2⟩
      [.columns ⟨⟨.table assoc.table, n.aliases + 1⟩, assoc.farColumn⟩
        ⟨⟨.table r.far.table, n.aliases + 2⟩, assoc.targetColumn⟩]).Realizes store
      ⟨.table assoc.table, n.aliases + 1⟩ ⟨n.aliases + 1, n.ctes⟩ fun z b =>
        ∃ y ∈ store.records r.far, (z.get assoc.farColumn).Equals (y.get assoc.targetColumn) ∧
          Y y b :=
    shows_enter rfl h (fun hd hz y => by
      rw [List.forall_mem_singleton, holds_columns hd hz (by omega) (hi _ hfar) (hi _ htarget)])
      Reading.rows_table
  by_cases hpos : t.isPositive = true
  · rw [alongAssociation, if_pos hpos]
    refine (shows_enter rfl named (R := fun x z =>
      (x.get r.column).Equals (z.get assoc.nearColumn) ∧ ∀ f ∈ r.fixed?, f.Holds z)
      (fun hd hx z => ?_) Reading.rows_table).congr (fun _ _ => rfl) fun x b => ?_
    · rw [List.forall_mem_cons, holds_columns hd hx (by omega) (hi _ r.near_mem_columns)
        (hi _ hnear), Relationship.holds_fixedOn hd Env.lookup_cons_self hi']
    · simp only [Relationship.yields_of_not_transitive ht, hpos, if_true,
        Relationship.relates_of_association hp]
      constructor
      · rintro ⟨z, hz, hx, y, hy, hzy, hb⟩
        exact ⟨y, ⟨hy, z, hz, hx.1, hx.2, hzy⟩, hb⟩
      · rintro ⟨y, ⟨hy, z, hz, hx, hf, hzy⟩, hb⟩
        exact ⟨z, hz, ⟨hx, hf⟩, y, hy, hzy, hb⟩
  · rw [alongAssociation, if_neg hpos]
    refine (realizes_hoist_select hm (hi _ r.near_mem_columns) (hi _ hnear) hi' named).congr
      (fun _ _ => rfl) fun x b => ?_
    simp only [Relationship.yields_of_not_transitive ht, hpos, Bool.false_eq_true, if_false,
      Relationship.relates_of_association hp]
    refine iff_congr Iff.rfl (not_congr ?_)
    constructor
    · rintro ⟨z, hz, ⟨⟨y, hy, hzy, hb⟩, hf⟩, hx⟩
      exact ⟨y, ⟨hy, z, hz, hx, hf, hzy⟩, hb⟩
    · rintro ⟨y, ⟨hy, z, hz, hx, hf, hzy⟩, hb⟩
      exact ⟨z, hz, ⟨⟨y, hy, hzy, hb⟩, hf⟩, hx⟩

theorem realizes_alongClosure {table near far : String} {m' : Nat}
    (hp : r.passage t = .closure table near far)
    (h : p.Realizes store ⟨.table r.far.table, n.aliases + 1⟩ ⟨n.aliases + 1, n.ctes⟩ Y) :
    (p.alongClosure r t ⟨⟨.table r.kind.table, m⟩, r.column⟩ ⟨.table r.far.table, n.aliases + 1⟩
      ⟨⟨.table table, m'⟩, near, far⟩ n).Realizes store ⟨.table r.kind.table, m⟩ n
        (r.Yields store t Y) := by
  obtain ⟨hk, hnone, ht, hl⟩ := Relationship.closure_inv store hp
  have hc : (r.far.table, r.column) ∈ r.columns := hk ▸ r.near_mem_columns
  refine Shows.congr (realizes_hoist (P := fun v => ∃ y,
    (y ∈ store.records r.far ∧ r.Leads store v (y.get r.column)) ∧ Y y true) hm ?_ ?_ h.names ?_)
      (fun _ _ => rfl) fun x b => (Relationship.yields_of_transitive ht).symm
  · exact fun hd => (Reading.affinity_table hd).trans (hi _ r.near_mem_columns)
  · exact fun hd => (Reading.affinity_table hd).trans (hi _ hc)
  · intro known hk v
    have values (w : Value) := mem_values (r := r) r.column (v := w)
      (Nat.le_refl (n.aliases + 1)) h (readIn_tabulate hk) (by simp [hnone])
    simp only [Relationship.withFixed, hnone] at values
    simp only [ClosureStep.exists_equals_values_closure, values, hl, Reading.rows_table]
    constructor
    · rintro ⟨_, ⟨y, hy, ⟨hb, _⟩, rfl⟩, hv⟩
      exact ⟨y, ⟨hy, hv⟩, hb⟩
    · rintro ⟨y, ⟨hy, hv⟩, hb⟩
      exact ⟨_, ⟨y, hy, ⟨hb, by simp⟩, rfl⟩, hv⟩

end

end Fragment

namespace Filter

theorem holds_condition {store : Store} {d : Reading} {e : Env} {table column : String} {m : Nat}
    {x : Row} {t : Test} (hd : d.store = store) (hx : e.lookup ⟨.table table, m⟩ = some x) :
    (t.condition ⟨⟨.table table, m⟩, column⟩).holds d e = true ↔
      t.Holds (store.affinity table column) (x.get column) := by
  cases t with
  | boolean b =>
    simp [Test.condition, Condition.holds, Test.Holds, Env.get_of_lookup hx,
      Reading.affinity_table hd, Operator.operand]
  | _ =>
    simp [Test.condition, Condition.holds, Test.Holds, Env.get_of_lookup hx,
      Reading.affinity_table hd, Binding.value]

theorem within_condition {a : Alias} {column : String} {t : Test} {n : Nat} (ha : a.number ≤ n) :
    (t.condition ⟨a, column⟩).Within n := by
  cases t with
  | null => exact Condition.within_null ha
  | integer | boolean | string => exact Condition.within_compare ha

theorem shows_lowerAll {store : Store} {fs : List Filter} {a : Alias} {n : Numbering}
    {c : Connective} (ha : a.number ≤ n.aliases)
    (ih : ∀ f ∈ fs, ∀ n : Numbering, a.number ≤ n.aliases →
      (f.lower a n).Realizes store a n (f.Yields store)) :
    (Fragment.all c (lowerAll fs a n)).Shows store a n (Fragment.verdicts (lowerAll fs a n))
      (YieldsAll store fs) := by
  induction fs generalizing n with
  | nil => exact Fragment.shows_all_nil c
  | cons f fs ihs =>
    obtain ⟨hf, hfs⟩ := List.forall_mem_cons.1 ih
    exact Fragment.shows_all_cons ha (hf n ha) (ihs (Nat.le_add_right_of_le ha) hfs)

/-- Lowered on an alias of the table of its kind, a filter adds what it yields. -/
theorem realizes_lower {store : Store} (hs : store.Lexical) {f : Filter} {k : Kind}
    (hn : f.Normal k) (hf : f.Sound) {m : Nat} {n : Numbering} (hm : m ≤ n.aliases) :
    (f.lower ⟨.table k.table, m⟩ n).Realizes store ⟨.table k.table, m⟩ n (f.Yields store) := by
  induction f using induction generalizing k m n with
  | empty =>
    exact Fragment.realizes_ofCondition Condition.within_always fun _ _ b => by
      simp [Condition.holds, Yields, eq_comm]
  | test g t =>
    obtain rfl := normal_test_iff.1 hn
    refine Fragment.realizes_ofCondition (within_condition hm) fun hd hx b => ?_
    rw [Yields, ← holds_condition hd hx, ← Bool.eq_iff_iff, eq_comm]
  | link r t condition ih =>
    obtain ⟨rfl, hc⟩ := normal_link_iff.1 hn
    obtain ⟨⟨hr, ht⟩, hs'⟩ := every_link.1 hf
    have hi := hs.affinity_link hr
    have ht' (h : ¬ ∃ table near far, r.passage t = .closure table near far) :
        t.isTransitive = false :=
      Bool.eq_false_iff.2 fun hc => h (Relationship.exists_closure hc (ht hc))
    have hY : (link r t condition).Yields store = r.Yields store t (condition.Yields store) := by
      funext x b
      rw [Yields]
    rw [hY, lower]
    cases hp : r.passage t with
    | key =>
      exact Fragment.realizes_alongKey hi hm hp (ht' (by simp [hp])) (ih hc hs' (Nat.le_refl _))
    | association assoc =>
      exact Fragment.realizes_alongAssociation hi hm hp (ht' (by simp [hp]))
        (ih hc hs' (Nat.le_refl _))
    | closure table near far =>
      exact Fragment.realizes_alongClosure hi hm hp (ih hc hs' (Nat.le_refl _))
  | group c fs ih =>
    exact Fragment.realizes_all (shows_lowerAll hm fun f hfs n hm =>
      ih f hfs ((normal_group_iff.1 hn).1 f hfs) (every_group.1 hf f hfs) hm)

end Filter

end Lexiquery
