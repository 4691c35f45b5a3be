import Lexiquery.Proofs.Statement.Names
import Lexiquery.Proofs.Statement.Selection

/-! A compiled statement runs on a lexical database, unless it is larger than any statement may
be. -/

namespace Lexiquery

def Order.OverSchema : Order → Prop
  | random => True
  | .by f _ => Schema.Declares f

theorem forM_eq_ok {α ε : Type} {f : α → Except ε Unit} {l : List α} (h : ∀ a ∈ l, f a = .ok ()) :
    l.forM f = .ok () := by
  induction l with
  | nil => rfl
  | cons a l ih =>
    obtain ⟨ha, hl⟩ := List.forall_mem_cons.1 h
    simp [List.forM, ha, ih hl, bind, Except.bind]

structure Placeholder where
  column : ColumnRef
  op : Operator
  value : Binding

namespace Condition

mutual

def placeholders : Condition → List Placeholder
  | compare r op b => [⟨r, op, b⟩]
  | group _ children => placeholdersAll children
  | always | literal .. | null .. => []

def placeholdersAll : List Condition → List Placeholder
  | [] => []
  | c :: cs => c.placeholders ++ placeholdersAll cs

end

theorem placeholdersAll_eq (cs : List Condition) :
    placeholdersAll cs = cs.flatMap placeholders := by
  induction cs <;> simp [placeholdersAll, *]

theorem placeholders_of_isAlways {c : Condition} (h : c.isAlways = true) : c.placeholders = [] := by
  cases c <;> simp_all [isAlways, placeholders]

end Condition

def Cte.placeholders (c : Cte) : List Placeholder :=
  match c.body with
  | .select s => s.condition.placeholders
  | .closure base _ => base.condition.placeholders

def Statement.placeholders (s : Statement) : List Placeholder :=
  s.ctes.flatMap (·.placeholders) ++ s.condition.placeholders

def maxPlaceholders : Nat := 32766

def maxPattern : Nat := 50000

def Placeholder.Brief (q : Placeholder) : Prop :=
  q.op = .like ∨ q.op = .notLike → ∀ s, q.value = .string s → s.utf8ByteSize ≤ maxPattern

namespace Statement

variable {store : Store} {s : Statement}

/-- No select joins too many sources and no condition is too high, there are not too many values to
be bound, and no pattern among them is too long. -/
structure Fits (s : Statement) : Prop where
  extents : ∀ e ∈ s.extents,
    e.sources ≤ maxJoined ∧ e.whereHeight ≤ maxHeight ∧ e.fullHeight ≤ maxHeight
  placeholders : s.placeholders.length ≤ maxPlaceholders
  brief : ∀ q ∈ s.placeholders, q.Brief

def Legible (s : Statement) : Prop :=
  ∀ e ∈ s.extents, e.sources ≤ maxSources ∧ e.whereHeight ≤ maxHeight ∧ e.fullHeight ≤ maxHeight

theorem Fits.legible (h : s.Fits) : s.Legible :=
  fun e he => ⟨Nat.le_trans (h.extents e he).1 (by decide), (h.extents e he).2⟩

structure Names (P : ColumnRef → Prop) (s : Statement) : Prop where
  columns : ∀ r ∈ s.columnRefs, P r
  joins : ∀ j ∈ s.joins, j.Names P
  condition : s.condition.Names P
  ctes : ∀ c ∈ s.ctes, c.body.Names P
  group : P ⟨s.main, s.groupColumn⟩
  order : ∀ f d, s.order = .by f d → P ⟨s.main, f.column⟩

section

variable {α : Type} {g : List (CteName × α) → Cte → α} {Q : α → Prop}

theorem gather_induction (h : ∀ known, (∀ q ∈ known, Q q.2) → ∀ c ∈ s.ctes, Q (g known c)) :
    ∀ q ∈ s.gather g, Q q.2 := by
  suffices h : ∀ ctes ⊆ s.ctes, ∀ known, (∀ q ∈ known, Q q.2) →
      ∀ q ∈ ctes.foldl (fun known c => known ++ [(c.name, g known c)]) known, Q q.2 from
    h s.ctes (fun _ h => h) [] (by simp)
  intro ctes hctes
  induction ctes with
  | nil => exact fun _ hk => hk
  | cons c ctes ih =>
    obtain ⟨hc, hctes⟩ := List.cons_subset.1 hctes
    intro known hk
    refine ih hctes _ (List.forall_mem_append.2 ⟨hk, ?_⟩)
    simpa using h known hk c hc

end

theorem forall_mem_reach {α : Type} {known : List (CteName × List α)} {table : String → List α}
    {Q : α → Prop} (hk : ∀ q ∈ known, ∀ x ∈ q.2, Q x) {src : Source}
    (ht : ∀ name, src = .table name → ∀ x ∈ table name, Q x) :
    ∀ x ∈ reach known table src, Q x := by
  cases src with
  | table name => exact ht name rfl
  | cte name =>
    intro x hx
    rw [reach] at hx
    cases hl : known.lookup name with
    | none => simp [hl] at hx
    | some xs =>
      rw [hl] at hx
      obtain ⟨l₁, l₂, rfl, -⟩ := List.lookup_eq_some_iff.1 hl
      exact hk (name, xs) (by simp) x hx

theorem check_table_of_hasColumn {r : ColumnRef} (h : s.hasColumn store r = true) {name : String}
    (hr : r.table.source = .table name) : Demand.check store (.table name) = .ok () := by
  rw [hasColumn, hr] at h
  simp only [Option.any_eq_true] at h
  obtain ⟨t, ht, -⟩ := h
  simp [Demand.check, ht]

theorem check_reach {known : List (CteName × List Demand)}
    (hk : ∀ q ∈ known, ∀ d ∈ q.2, Demand.check store d = .ok ()) {a : Alias} {column : String}
    (h : s.hasColumn store ⟨a, column⟩ = true) :
    ∀ d ∈ reach known (fun t => [.table t]) a.source, Demand.check store d = .ok () :=
  forall_mem_reach hk fun name hn d hd => by
    rw [List.mem_singleton.1 hd]
    exact check_table_of_hasColumn h hn

theorem check_sources {known : List (CteName × List Demand)}
    (hk : ∀ q ∈ known, ∀ d ∈ q.2, Demand.check store d = .ok ()) {a : Alias} {joins : List Join}
    {column : String} (ha : s.hasColumn store ⟨a, column⟩ = true)
    (hj : ∀ j ∈ joins, j.Names (s.hasColumn store · = true)) :
    ∀ d ∈ (a.source :: joins.map (·.table.source)).flatMap (reach known fun t => [.table t]),
      Demand.check store d = .ok () := by
  intro d hd
  rw [List.flatMap_cons, List.mem_append] at hd
  obtain hd | hd := hd
  · exact check_reach hk ha d hd
  · obtain ⟨_, hsrc, hd⟩ := List.mem_flatMap.1 hd
    obtain ⟨j, hm, rfl⟩ := List.mem_map.1 hsrc
    obtain ⟨⟨column, hc⟩, -⟩ := hj j hm
    exact check_reach hk hc d hd

theorem check_height {e : Extent} (hs : s.Legible) (he : e ∈ s.extents) :
    Demand.check store (.height e.fullHeight) = .ok () := by
  have := (hs e he).2.2
  simp [Demand.check, Nat.not_lt.2 this]

theorem check_demands (hf : s.Legible) (hn : s.Names (s.hasColumn store · = true)) :
    ∀ d ∈ s.demands, Demand.check store d = .ok () := by
  have extent {c : Cte} (hc : c ∈ s.ctes) : c.body.extent ∈ s.extents :=
    List.mem_append_left _ (List.mem_map_of_mem hc)
  have main : s.extent ∈ s.extents := by simp [extents]
  rw [demands]
  refine List.forall_mem_append.2 ⟨check_sources ?_ hn.group hn.joins, ?_⟩
  · refine gather_induction (Q := fun ds => ∀ d ∈ ds, Demand.check store d = .ok ())
      fun known hk c hc => ?_
    have hb := hn.ctes c hc
    cases hbody : c.body with
    | select t =>
      rw [hbody] at hb
      simp only
      refine List.forall_mem_append.2 ⟨check_sources hk hb.column hb.joins, ?_⟩
      simpa using check_height hf (hbody ▸ extent hc)
    | closure base step =>
      rw [hbody] at hb
      obtain ⟨hb, hj, -⟩ := hb
      simp only
      refine List.forall_mem_append.2 ⟨check_sources hk hb.column hb.joins, ?_⟩
      refine List.forall_mem_cons.2 ⟨check_height hf (hbody ▸ extent hc), ?_⟩
      simpa using check_reach hk hj
  · simpa using check_height hf main

theorem Names.mentions {P : ColumnRef → Prop} (hn : s.Names P) : ∀ m ∈ s.mentions, P m.column := by
  have row (start : Nat) (rs : List ColumnRef) (h : ∀ r ∈ rs, P r) :
      ∀ m ∈ rowMentions start rs, P m.column := by
    induction rs generalizing start with
    | nil => simp [rowMentions]
    | cons r rs ih =>
      obtain ⟨hr, hrs⟩ := List.forall_mem_cons.1 h
      exact List.forall_mem_cons.2 ⟨hr, ih _ hrs⟩
  simp only [Statement.mentions, List.forall_mem_append, List.forall_mem_singleton]
  refine ⟨⟨⟨⟨row _ _ hn.columns, hn.condition _⟩, fun m hm => ?_⟩, ?_⟩, hn.group⟩
  · obtain ⟨j, hj, hm⟩ := List.mem_flatMap.1 hm
    exact (hn.joins j hj).mentions m hm
  · rcases ho : s.order with _ | ⟨f, d⟩
    · simp
    · simpa using hn.order f d ho

theorem Names.allMentions {P : ColumnRef → Prop} (hn : s.Names P) :
    ∀ m ∈ s.allMentions, P m.column := by
  have reached {known : List (CteName × List Mention)}
      (hk : ∀ q ∈ known, ∀ m : Mention, m ∈ q.2 → P m.column) (srcs : List Source) :
      ∀ m : Mention, m ∈ srcs.flatMap (reach known fun _ => []) → P m.column := by
    intro m hm
    obtain ⟨src, -, hm⟩ := List.mem_flatMap.1 hm
    exact forall_mem_reach hk (by simp) m hm
  rw [Statement.allMentions]
  refine List.forall_mem_append.2 ⟨reached ?_ _, hn.mentions⟩
  refine gather_induction (Q := fun ms => ∀ m : Mention, m ∈ ms → P m.column)
    fun known hk c hc => ?_
  exact List.forall_mem_append.2 ⟨reached hk _, (hn.ctes c hc).mentions _⟩

/-- Of a statement that can be read and names nothing unknown, only the joins may be too many. -/
theorem check_of_legible (hs : store.isValid = true) (hl : s.Legible)
    (hn : s.Names (s.hasColumn store · = true)) : s.check store =
      if s.extents.any (maxJoined < ·.sources) then .error .tooManyJoined else .ok () := by
  have read : s.read = .ok () := forM_eq_ok fun e he => by
    obtain ⟨h₁, h₂, -⟩ := hl e he
    simp [Nat.not_lt.2 h₂, Nat.not_lt.2 h₁]
  have demands : s.demands.forM (Demand.check store) = .ok () :=
    forM_eq_ok (check_demands hl hn)
  have columns : s.allMentions.find? (!s.hasColumn store ·.column) = none := by
    simpa using hn.allMentions
  simp [check, read, hs, demands, columns, bind, Except.bind, pure, Except.pure, throw,
    throwThe, MonadExceptOf.throw]

theorem check_eq_ok (hs : store.isValid = true) (hf : s.Fits)
    (hn : s.Names (s.hasColumn store · = true)) : s.check store = .ok () := by
  rw [check_of_legible hs hf.legible hn, if_neg]
  simpa using fun e he => (hf.extents e he).1

theorem check_of_illegible {e : Extent} (he : s.extents = [e]) (h : maxSources < e.sources) :
    s.check store = .error .tooManySources := by
  have read : s.read = .error .tooManySources := by
    simp [Statement.read, he, h, bind, Except.bind]
  rw [check, read]
  rfl

theorem exists_column_of_mem_columns (k : Kind) :
    ∀ c ∈ k.columns, (Store.column? k.table c).isSome = true := by
  cases k <;> decide +kernel

theorem hasColumn_table (hs : store.Lexical) {table column : String} {m : Nat}
    (h : (Store.column? table column).isSome = true) :
    s.hasColumn store ⟨⟨.table table, m⟩, column⟩ = true := by
  obtain ⟨c, hc⟩ := Option.isSome_iff_exists.1 h
  obtain ⟨t, ht, hc⟩ := hs.table?_of_column? hc
  simp [hasColumn, ht, hc]

theorem hasColumn_cte {c : Cte} (hc : c ∈ s.ctes) {a : Alias} (ha : a.source = .cte c.name) :
    s.hasColumn store ⟨a, c.column⟩ = true := by
  rw [hasColumn, ha]
  exact List.any_eq_true.2 ⟨c, hc, by simp [sameName_refl]⟩

theorem names_ofFilter (hs : store.Lexical) {f : Filter} {k : Kind} (hn : f.Normal k)
    (hf : f.Sound) {order : Order} {limit : Option UInt32} (ho : order.validate k = .ok ())
    (hd : order.OverSchema) : (ofFilter k k.columns f order limit).Names
      ((ofFilter k k.columns f order limit).hasColumn store · = true) := by
  have hp := Filter.names_lower (m := 1) (n := ⟨1, 0⟩)
    (P := ((ofFilter k k.columns f order limit).hasColumn store · = true))
    (fun _ _ _ h => hasColumn_table hs h) hn hf fun c hc b hb => hasColumn_cte hc hb
  have main {c : String} (hc : c ∈ k.columns) :
      (ofFilter k k.columns f order limit).hasColumn store ⟨⟨.table k.table, 1⟩, c⟩ = true :=
    hasColumn_table hs (exists_column_of_mem_columns k c hc)
  refine ⟨?_, hp.joins, hp.condition, hp.ctes, ?_, ?_⟩
  · exact List.forall_mem_map.2 fun c hc => main hc
  · have hg : (ofFilter k k.columns f order limit).groupColumn = k.primaryKey := by
      simp [groupColumn, ofFilter, k.columns_head?]
    rw [hg]
    exact main (List.mem_of_mem_head? k.columns_head?)
  · rintro g d rfl
    have hk : g.kind = k := by
      by_contra h
      simp [Order.validate, h] at ho
    exact hasColumn_table hs (hk ▸ hd.exists_column)

theorem check_ofFilter (hs : store.Lexical) {f : Filter} {k : Kind} (hn : f.Normal k)
    (hf : f.Sound) {order : Order} {limit : Option UInt32} (ho : order.validate k = .ok ())
    (hd : order.OverSchema) (hfit : (ofFilter k k.columns f order limit).Fits) :
    (ofFilter k k.columns f order limit).check store = .ok () :=
  check_eq_ok hs.isValid hfit (names_ofFilter hs hn hf ho hd)

theorem run_of_check (h : s.check store = .ok ()) : s.run store = .ok (s.rows store) := by
  rw [run, h]
  rfl

end Statement

end Lexiquery
