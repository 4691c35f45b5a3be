import Lexiquery.Proofs.Statement.Bindings

/-! How large the statement of a filter is, by the number of its nodes. -/

namespace Lexiquery

theorem forkHeight_le_max (n m : Nat) : forkHeight n m ≤ max n m + 1 := by
  unfold forkHeight
  split
  · omega
  · split <;> omega

theorem forkHeight_le (n m : Nat) : forkHeight n m ≤ n + m + 1 :=
  Nat.le_trans (forkHeight_le_max n m) (by omega)

namespace Condition

def rowBound : List Condition → Nat
  | [] => 0
  | c :: cs => c.height + 1 + rowBound cs

theorem rowHeight_le (n : Nat) (cs : List Condition) : rowHeight n cs ≤ n + rowBound cs := by
  induction cs generalizing n with
  | nil => simp [rowHeight]
  | cons c cs ih =>
    have head := forkHeight_le n c.height
    have rest := ih (forkHeight n c.height)
    simp only [rowHeight, rowBound] at rest ⊢
    omega

theorem rowBound_filter_le (p : Condition → Bool) (cs : List Condition) :
    rowBound (cs.filter p) ≤ rowBound cs := by
  induction cs with
  | nil => simp
  | cons c cs ih =>
    rw [List.filter_cons]
    split <;> simp only [rowBound] <;> omega

theorem height_all_le (c : Connective) (cs : List Condition) :
    (all c cs).height ≤ rowBound cs + 1 := by
  unfold Condition.all
  split
  · simp [height]
  · cases c with
    | and =>
      have := rowHeight_le 0 (cs.filter (!·.isAlways))
      have := rowBound_filter_le (!·.isAlways) cs
      simp only [height]
      omega
    | or =>
      have := rowHeight_le 0 cs
      simp only [height]
      omega

/-- One condition alone stands under no operator, so a row is lower than its bound. -/
theorem rowHeight_lt {cs : List Condition} (hne : cs ≠ []) : rowHeight 0 cs < rowBound cs := by
  cases cs with
  | nil => exact absurd rfl hne
  | cons c cs =>
    have rest := rowHeight_le c.height cs
    simp only [rowHeight, forkHeight, reduceIte, rowBound]
    omega

theorem height_all_lt (c : Connective) {cs : List Condition} (hne : cs ≠ []) :
    (all c cs).height < rowBound cs := by
  unfold Condition.all
  split
  · cases cs with
    | nil => exact absurd rfl hne
    | cons d cs =>
      rename_i h
      have : d = always := by cases d <;> simp_all [isAlways]
      simp only [this, height, rowBound]
      omega
  · rename_i h
    cases c with
    | and =>
      have some_left : cs.filter (!·.isAlways) ≠ [] := by simpa [List.filter_eq_nil_iff] using h
      exact Nat.lt_of_lt_of_le (rowHeight_lt some_left) (rowBound_filter_le _ cs)
    | or => exact rowHeight_lt hne

theorem whereHeight_le (c : Condition) : c.whereHeight ≤ c.height := by
  unfold whereHeight
  split <;> omega

end Condition

structure Extent.Within (m : Nat) (e : Extent) : Prop where
  sources : e.sources ≤ 2 * m + 1
  whereHeight : e.whereHeight ≤ 6 * m
  fullHeight : e.fullHeight ≤ 8 * m + 4

theorem Extent.Within.mono {m n : Nat} {e : Extent} (h : e.Within m) (hmn : m ≤ n) :
    e.Within n where
  sources := by have := h.sources; omega
  whereHeight := by have := h.whereHeight; omega
  fullHeight := by have := h.fullHeight; omega

theorem Extent.within_of {m : Nat} {joins : List Join} {c : Condition}
    (hl : joins.length ≤ 2 * m) (hj : ∀ j ∈ joins, j.height ≤ 4) (hc : c.height ≤ 6 * m) :
    (Extent.of joins c).Within m where
  sources := Nat.succ_le_succ hl
  whereHeight := Nat.le_trans c.whereHeight_le hc
  fullHeight := by
    -- once the tree is as high as a join, each further join adds one level
    have full (n : Nat) :
        joins.foldl (fun n j => forkHeight n j.height) n ≤ max n 4 + joins.length := by
      clear hl
      induction joins generalizing n with
      | nil => exact Nat.le_max_left ..
      | cons j joins ih =>
        obtain ⟨hj, hjs⟩ := List.forall_mem_cons.1 hj
        have head := forkHeight_le_max n j.height
        have rest := ih hjs (forkHeight n j.height)
        simp only [List.foldl_cons, List.length_cons]
        omega
    have := full c.whereHeight
    have := c.whereHeight_le
    simp only [Extent.of]
    omega

/-- What a fragment is at most for a filter of `m` nodes. -/
structure Fragment.Within (m : Nat) (p : Fragment) : Prop where
  length : p.joins.length ≤ 2 * m
  low : ∀ j ∈ p.joins, j.height ≤ 4
  condition : p.condition.height < 6 * m
  ctes : ∀ c ∈ p.ctes, c.body.extent.Within m

theorem Relationship.height_fixedOn (r : Relationship) (a b : Alias) (type : JoinType)
    (l t : ColumnRef) : Join.height ⟨type, b, .columns l t :: r.fixedOn a⟩ ≤ 4 := by
  cases h : r.fixed? <;> simp [Join.height, fixedOn, h, forkHeight]

theorem Relationship.height_withFixed_le (r : Relationship) (a : Alias) (c : Condition) :
    (r.withFixed a c).height ≤ c.height + 6 := by
  unfold withFixed
  split
  · omega
  · refine Nat.le_trans (Condition.height_all_le _ _) ?_
    simp only [Condition.rowBound, Condition.height]
    omega

theorem Join.height_columns (type : JoinType) (a : Alias) (l r : ColumnRef) :
    Join.height ⟨type, a, [.columns l r]⟩ ≤ 4 := by
  simp [height, forkHeight]

namespace Fragment

variable {m : Nat} {p : Fragment} {owner : ColumnRef} {far relation : Alias} {n : Numbering}

theorem within_hoist {k : Kind} {positive : Bool} {body : CteBody} {ctes : List Cte}
    {tables : List Alias} (hb : body.extent.Within (m + 1))
    (hc : ∀ c ∈ ctes, c.body.extent.Within m) :
    (hoist owner k positive body ctes tables n).Within (m + 1) where
  length := by simp [hoist]; omega
  low := List.forall_mem_singleton.2 (Join.height_columns ..)
  condition := by cases positive <;> simp [hoist, Condition.height] <;> omega
  ctes := List.forall_mem_append.2
    ⟨fun c h => (hc c h).mono (Nat.le_succ m), List.forall_mem_singleton.2 hb⟩

theorem Within.alongKey (h : p.Within m) (r : Relationship) (t : LinkTest) :
    (p.alongKey r t owner far n).Within (m + 1) := by
  have condition := h.condition
  have length := h.length
  rw [Fragment.alongKey]
  split
  · exact {
      length := by simp only [List.length_cons]; omega
      low := List.forall_mem_cons.2 ⟨r.height_fixedOn .., h.low⟩
      condition := by simp only; omega
      ctes := fun c hc => (h.ctes c hc).mono (Nat.le_succ m) }
  · have := r.height_withFixed_le far p.condition
    exact within_hoist (Extent.within_of (by dsimp only; omega) h.low (by dsimp only; omega)) h.ctes

theorem Within.alongAssociation (h : p.Within m) (r : Relationship) (assoc : Association)
    (t : LinkTest) : (p.alongAssociation r assoc t owner relation far n).Within (m + 1) := by
  have condition := h.condition
  have length := h.length
  have low : ∀ j ∈ (⟨.inner, far, [.columns ⟨relation, assoc.farColumn⟩
      ⟨far, assoc.targetColumn⟩]⟩ : Join) :: p.joins, j.height ≤ 4 :=
    List.forall_mem_cons.2 ⟨Join.height_columns .., h.low⟩
  rw [Fragment.alongAssociation]
  split
  · exact {
      length := by simp only [List.length_cons]; omega
      low := List.forall_mem_cons.2 ⟨r.height_fixedOn .., low⟩
      condition := by simp only; omega
      ctes := fun c hc => (h.ctes c hc).mono (Nat.le_succ m) }
  · have := r.height_withFixed_le relation p.condition
    exact within_hoist (Extent.within_of (by simp only [List.length_cons]; omega) low
      (by dsimp only; omega)) h.ctes

theorem within_alongKey {c : Condition} (h : c.height < 6) (r : Relationship) :
    ((ofCondition c).alongKey r .hasSome owner far n).Within 1 where
  length := by simp [Fragment.alongKey, LinkTest.isPositive, ofCondition]
  low := List.forall_mem_singleton.2 (r.height_fixedOn ..)
  condition := h
  ctes := List.forall_mem_nil _

theorem within_alongAssociation {c : Condition} (h : c.height < 6) (r : Relationship)
    (assoc : Association) :
    ((ofCondition c).alongAssociation r assoc .hasSome owner relation far n).Within 1 where
  length := by simp [Fragment.alongAssociation, LinkTest.isPositive, ofCondition]
  low := List.forall_mem_cons.2 ⟨r.height_fixedOn .., List.forall_mem_singleton.2
    (Join.height_columns ..)⟩
  condition := h
  ctes := List.forall_mem_nil _

theorem Within.alongClosure (h : p.Within m) (r : Relationship) (t : LinkTest)
    (step : ClosureStep) : (p.alongClosure r t owner far step n).Within (m + 1) := by
  have condition := h.condition
  have length := h.length
  exact within_hoist (Extent.within_of (by dsimp only; omega) h.low (by dsimp only; omega)) h.ctes

end Fragment

theorem Fragment.within_ofCondition {m : Nat} {c : Condition} (h : c.height < 6 * m) :
    (ofCondition c).Within m :=
  ⟨Nat.zero_le _, List.forall_mem_nil _, h, List.forall_mem_nil _⟩

theorem Test.height_condition (r : ColumnRef) (t : Test) : (t.condition r).height < 6 := by
  cases t with
  | string t s => cases t <;> simp [condition, StringTest.operator, Condition.height]
  | integer t n => cases t <;> simp [condition, IntegerTest.operator, Condition.height]
  | _ => simp [condition, Condition.height]

theorem Filter.within_lower (f : Filter) (a : Alias) (n : Numbering) :
    (f.lower a n).Within f.nodeCount := by
  induction f using induction generalizing a n with
  | empty => exact Fragment.within_ofCondition (by simp [Condition.height, nodeCount])
  | test f t => exact Fragment.within_ofCondition (t.height_condition _)
  | link r t condition ih =>
    rw [lower, nodeCount, Nat.add_comm]
    cases r.passage t with
    | key => exact (ih _ _).alongKey r t
    | association assoc => exact (ih _ _).alongAssociation r assoc t
    | closure => exact (ih _ _).alongClosure r t _
  | group c fs ih =>
    -- the fragments of the children side by side, before their conditions become one
    have side : let ps := lowerAll fs a n
        (ps.flatMap (·.joins)).length ≤ 2 * nodeCountAll fs ∧
        (∀ j ∈ ps.flatMap (·.joins), j.height ≤ 4) ∧
        Condition.rowBound (ps.map (·.condition)) ≤ 6 * nodeCountAll fs ∧
        ∀ cte ∈ ps.flatMap (·.ctes), cte.body.extent.Within (nodeCountAll fs) := by
      induction fs generalizing n with
      | nil => simp [lowerAll, Condition.rowBound]
      | cons f fs ihs =>
        obtain ⟨hf, hfs⟩ := List.forall_mem_cons.1 ih
        have first := hf a n
        obtain ⟨length, low, row, ctes⟩ := ihs hfs (n.after (f.lower a n))
        have := first.length
        have := first.condition
        simp only [lowerAll, nodeCountAll, List.flatMap_cons, List.map_cons, List.length_append,
          Condition.rowBound, List.forall_mem_append]
        refine ⟨by omega, ⟨first.low, low⟩, by omega, fun cte h => ?_, fun cte h => ?_⟩
        · exact (first.ctes cte h).mono (Nat.le_add_right ..)
        · exact (ctes cte h).mono (Nat.le_add_left ..)
    obtain ⟨length, low, row, ctes⟩ := side
    have height := Condition.height_all_le c ((lowerAll fs a n).map (·.condition))
    rw [lower, nodeCount]
    exact ⟨Nat.le_trans length (by omega), low, by simp only [Fragment.all]; omega,
      fun cte h => (ctes cte h).mono (Nat.le_add_left ..)⟩

theorem Fragment.within_all {c : Connective} {ps : List Fragment} {m : Nat} (hne : ps ≠ [])
    (h : ∀ p ∈ ps, p.Within m) : (all c ps).Within (ps.length * m) := by
  have row : Condition.rowBound (ps.map (·.condition)) ≤ 6 * (ps.length * m) ∧
      (ps.flatMap (·.joins)).length ≤ 2 * (ps.length * m) := by
    clear hne
    induction ps with
    | nil => simp [Condition.rowBound]
    | cons p ps ih =>
      obtain ⟨hp, hps⟩ := List.forall_mem_cons.1 h
      have := hp.condition
      have := hp.length
      obtain ⟨_, _⟩ := ih hps
      simp only [List.map_cons, Condition.rowBound, List.flatMap_cons, List.length_append,
        List.length_cons, Nat.succ_mul]
      omega
  have least : m ≤ ps.length * m := Nat.le_mul_of_pos_left m (List.length_pos_of_ne_nil hne)
  refine ⟨row.2, fun j hj => ?_, ?_, fun cte hc => ?_⟩
  · obtain ⟨p, hp, hj⟩ := List.mem_flatMap.1 hj
    exact (h p hp).low j hj
  · exact Nat.lt_of_lt_of_le (Condition.height_all_lt c (by simpa using hne)) row.1
  · obtain ⟨p, hp, hc⟩ := List.mem_flatMap.1 hc
    exact ((h p hp).ctes cte hc).mono least

namespace Statement

variable {k : Kind} {columns : List String} {f : Filter} {order : Order} {limit : Option UInt32}
  {m : Nat}

theorem within_ofFilter (h : (f.lower ⟨.table k.table, 1⟩ ⟨1, 0⟩).Within m) :
    ∀ e ∈ (ofFilter k columns f order limit).extents, e.Within m := by
  refine List.forall_mem_append.2 ⟨List.forall_mem_map.2 h.ctes, ?_⟩
  exact List.forall_mem_singleton.2 (Extent.within_of h.length h.low (Nat.le_of_lt h.condition))

end Statement

def Test.Brief : Test → Prop
  | string .like s | string .notLike s => s.utf8ByteSize ≤ maxPattern
  | _ => True

namespace Filter

def Brief : Filter → Prop := Every (fun _ t => t.Brief) fun _ _ => True

theorem Brief.resolve {f : Filter} (h : f.Brief) (k : Kind) : (f.resolve k).Brief :=
  every_compact (every_normalize (fun _ _ _ _ => trivial) h k)

theorem Brief.of_mem_bound {f : Filter} (h : f.Brief) : ∀ c ∈ f.bound, c.2.Brief := by
  induction h with
  | empty => exact List.forall_mem_nil _
  | @test f t h =>
    rw [bound]
    split
    · exact List.forall_mem_singleton.2 h
    · exact List.forall_mem_nil _
  | link _ _ ih => exact ih
  | group _ ih =>
    rw [bound, boundAll_eq]
    intro c hc
    obtain ⟨f, hf, hc⟩ := List.mem_flatMap.1 hc
    exact ih f hf c hc

theorem length_bound_le (f : Filter) : f.bound.length ≤ f.nodeCount := by
  induction f using induction with
  | empty => exact Nat.zero_le _
  | test f t =>
    rw [bound, nodeCount]
    split <;> simp
  | link r t condition ih => exact Nat.le_trans ih (Nat.le_add_left ..)
  | group c fs ih =>
    rw [bound, nodeCount]
    refine Nat.le_trans ?_ (Nat.le_add_left ..)
    induction fs with
    | nil => exact Nat.zero_le _
    | cons f fs ihs =>
      obtain ⟨hf, hfs⟩ := List.forall_mem_cons.1 ih
      have := ihs hfs
      rw [boundAll, nodeCountAll, List.length_append]
      omega

end Filter

theorem Test.Brief.placeholder {q : Placeholder} {c : Field × Test} (h : c.2.Brief)
    (hq : q.Asks c) : q.Brief := by
  obtain ⟨column, op, value⟩ := q
  obtain ⟨f, t⟩ := c
  obtain ⟨-, -, hop, hvalue⟩ := hq
  rintro hl s rfl
  cases t with
  | string t s' =>
    cases hvalue
    cases t <;> cases hop <;> first | exact h | simp at hl
  | integer t n => cases hvalue
  | boolean b => cases hvalue
  | null t => cases hvalue

namespace Statement

section

variable {k : Kind} {columns : List String} {f : Filter} {order : Order} {limit : Option UInt32}
  (hk : f.Belongs k) (hw : f.WellFormed)
include hk hw

theorem length_placeholders_ofFilter :
    (ofFilter k columns f order limit).placeholders.length = f.bound.length :=
  (asks_ofFilter hk hw columns order limit).length_eq.trans
    f.hoisted_append_inlined_perm.length_eq

theorem brief_ofFilter (hb : f.Brief) :
    ∀ q ∈ (ofFilter k columns f order limit).placeholders, q.Brief := by
  intro q hq
  obtain ⟨i, hi, rfl⟩ := List.getElem_of_mem hq
  have asks := asks_ofFilter hk hw columns order limit
  have hc := f.hoisted_append_inlined_perm.mem_iff.1
    (List.getElem_mem (asks.length_eq ▸ hi : i < (f.hoisted ++ f.inlined).length))
  exact (hb.of_mem_bound _ hc).placeholder (asks.get hi (asks.length_eq ▸ hi))

/-- The statement of a filter of at most 31 nodes is not too large. -/
theorem fits_ofFilter (hb : f.Brief) (h : f.nodeCount ≤ 31) :
    (ofFilter k columns f order limit).Fits where
  extents e he := by
    have within := within_ofFilter (f.within_lower _ _) e he
    have := within.sources
    have := within.whereHeight
    have := within.fullHeight
    simp only [maxJoined, maxHeight]
    omega
  placeholders := by
    rw [length_placeholders_ofFilter hk hw]
    exact Nat.le_trans f.length_bound_le (Nat.le_trans h (by decide))
  brief := brief_ofFilter hk hw hb

end

end Statement

end Lexiquery
