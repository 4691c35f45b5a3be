import Lexiquery.Proofs.Statement.Blocks
import Lexiquery.Proofs.Statement.Names
import Lexiquery.Proofs.Statement.Realization

/-! Compiled statements are well scoped. A fragment takes up the numbers that follow those before
it, and what it joins and hoists introduces its aliases, each of them once; so fragments of one
select, of a select behind a join and of a hoisted select fit together. -/

namespace Lexiquery

def CteBody.aliases : CteBody → List Alias
  | select s => s.column.table :: s.joins.map (·.table)
  | closure base step => base.column.table :: base.joins.map (·.table) ++ [step.relation]

theorem mem_tableNames_of_column {table column : String}
    (h : (Store.column? table column).isSome = true) : table ∈ Store.tableNames := by
  rw [Store.column?, Option.isSome_bind] at h
  cases hl : Store.schema.lookup table with
  | none => simp [hl] at h
  | some columns =>
    obtain ⟨l₁, l₂, hs, -⟩ := List.lookup_eq_some_iff.1 hl
    simp [Store.tableNames, hs]

theorem Kind.table_mem_tableNames (k : Kind) : k.table ∈ Store.tableNames := by
  cases k <;> decide

namespace Fragment

variable {a : Alias} {n : Numbering} {p : Fragment}

def names (p : Fragment) (a : Alias) : List String := a.text :: p.joins.map (·.table.text)

/-- What a fragment brings along beside its condition, numbered, introduced once and in scope. -/
structure Placed (p : Fragment) (a : Alias) (n : Numbering) : Prop where
  aliases_numbered : p.tables.map (·.number) = List.range' (n.aliases + 1) p.tables.length
  ctes_numbered : p.ctes.map (·.name.number) = List.range' (n.ctes + 1) p.ctes.length
  introduced : (p.joins.map (·.table) ++ p.ctes.flatMap (·.body.aliases)).Perm p.tables
  sources : ∀ b ∈ p.tables, ∀ name, b.source = .table name → name ∈ Store.tableNames
  on : TermsScoped [a.text] (p.joins.map Join.term)
  known : ∀ j ∈ p.joins, j.table.source.Known (p.ctes.map (·.name))
  blocks_scoped : ∀ c ∈ p.ctes, ∀ b ∈ c.blocks, b.Scoped
  ordered : Ordered [] p.ctes

structure Scoped (p : Fragment) (a : Alias) (n : Numbering) : Prop extends p.Placed a n where
  condition : p.condition.Names (·.table.text ∈ p.names a)

theorem placed_nil {c : Condition} : Placed ⟨[], c, [], []⟩ a n where
  aliases_numbered := rfl
  ctes_numbered := rfl
  introduced := .nil
  sources := nofun
  on := trivial
  known := nofun
  blocks_scoped := nofun
  ordered := trivial

theorem scoped_ofCondition {c : Condition} (h : c.Names (·.table = a)) :
    (ofCondition c).Scoped a n :=
  ⟨placed_nil, fun start m hm => by simp [names, h start m hm]⟩

theorem Placed.cons {c : Connective} {ps : List Fragment} (h : p.Placed a n)
    (hs : (all c ps).Placed a (n.after p)) : (all c (p :: ps)).Placed a n where
  aliases_numbered := by
    simp only [tables_all_cons, List.map_append, h.aliases_numbered, hs.aliases_numbered,
      Numbering.after, List.length_append, ← List.range'_append_1, Nat.add_right_comm]
  ctes_numbered := by
    simp only [ctes_all_cons, List.map_append, h.ctes_numbered, hs.ctes_numbered, Numbering.after,
      List.length_append, ← List.range'_append_1, Nat.add_right_comm]
  introduced := by
    simp only [joins_all_cons, ctes_all_cons, tables_all_cons, List.map_append,
      List.flatMap_append, List.append_assoc]
    -- all joins come before all expressions, those of the other fragments in between
    refine ((List.perm_append_comm_assoc _ _ _).append_left _).trans ?_
    simpa only [List.append_assoc] using h.introduced.append hs.introduced
  sources := by
    rw [tables_all_cons]
    exact List.forall_mem_append.2 ⟨h.sources, hs.sources⟩
  on := by
    rw [joins_all_cons, List.map_append]
    exact h.on.append hs.on
  known := by
    rw [joins_all_cons, ctes_all_cons, List.map_append]
    exact List.forall_mem_append.2
      ⟨fun j hj => (h.known j hj).mono (List.subset_append_left _ _),
        fun j hj => (hs.known j hj).mono (List.subset_append_right _ _)⟩
  blocks_scoped := by
    rw [ctes_all_cons]
    exact List.forall_mem_append.2 ⟨h.blocks_scoped, hs.blocks_scoped⟩
  ordered := by
    rw [ctes_all_cons]
    exact ordered_append.2 ⟨h.ordered, hs.ordered.mono (List.nil_subset _)⟩

theorem names_subset_names_all {c : Connective} {ps : List Fragment} (hp : p ∈ ps) :
    p.names a ⊆ (all c ps).names a := by
  refine List.cons_subset_cons _ fun u hu => ?_
  obtain ⟨j, hj, rfl⟩ := List.mem_map.1 hu
  exact List.mem_map.2 ⟨j, List.mem_flatMap.2 ⟨p, hp, hj⟩, rfl⟩

theorem scoped_enter {table : String} {on : List JoinOn} (ht : table ∈ Store.tableNames)
    (hon : ∀ o ∈ on, ∀ r ∈ o.refs, r.table = a ∨ r.table = ⟨.table table, n.aliases + 1⟩)
    (h : p.Scoped ⟨.table table, n.aliases + 1⟩ ⟨n.aliases + 1, n.ctes⟩) :
    (p.enter ⟨.table table, n.aliases + 1⟩ on).Scoped a n where
  aliases_numbered := by
    simp only [enter, List.map_cons, List.length_cons, h.aliases_numbered, List.range'_succ]
  ctes_numbered := h.ctes_numbered
  introduced := h.introduced.cons _
  sources := List.forall_mem_cons.2 ⟨by simpa using ht, h.sources⟩
  on := by
    refine ⟨fun u hu => ?_, h.on.mono (List.cons_subset_cons _ (List.nil_subset _))⟩
    obtain ⟨m, hm, rfl⟩ := List.mem_map.1 hu
    obtain ⟨o, ho, hm⟩ := List.mem_flatMap.1 hm
    obtain ⟨r, hr, rfl⟩ := List.mem_map.1 hm
    obtain hr | hr := hon o ho r hr <;> simp [hr, Join.term]
  known := List.forall_mem_cons.2 ⟨ht, h.known⟩
  blocks_scoped := h.blocks_scoped
  ordered := h.ordered
  condition := h.condition.mono fun r hr => List.mem_cons_of_mem _ hr

end Fragment

theorem Select.scoped_block {s : Select} {a : Alias} (ha : s.column.table = a)
    (hj : TermsScoped [a.text] (s.joins.map Join.term))
    (hc : s.condition.Names (·.table.text ∈ a.text :: s.joins.map (·.table.text))) :
    s.block.Scoped where
  on := ⟨by simp [Alias.term], ha ▸ hj⟩
  uses := by
    have names : s.block.names = a.text :: s.joins.map (·.table.text) := by
      simp [Block.names, block, Alias.term, Join.term, ha, Function.comp_def]
    rw [names]
    refine List.forall_mem_cons.2 ⟨by simp [ha], List.forall_mem_map.2 (hc 0)⟩

structure CteBody.Placed (body : CteBody) (ctes : List Cte) (tables : List Alias) (n : Numbering) :
    Prop where
  aliases_numbered : tables.map (·.number) = List.range' (n.aliases + 1) tables.length
  ctes_numbered : ctes.map (·.name.number) = List.range' (n.ctes + 1) ctes.length
  introduced : (body.aliases ++ ctes.flatMap (·.body.aliases)).Perm tables
  sources : ∀ b ∈ tables, ∀ name, b.source = .table name → name ∈ Store.tableNames
  blocks_scoped : ∀ c ∈ ctes, ∀ b ∈ c.blocks, b.Scoped
  ordered : Ordered [] ctes
  own_blocks : ∀ name column, ∀ b ∈ Cte.blocks ⟨name, column, body⟩, b.Scoped
  draws : ∀ name column, Cte.Draws ⟨name, column, body⟩ (ctes.map (·.name))

namespace Fragment

variable {a : Alias} {n : Numbering} {p : Fragment} {table column : String}

theorem placed_select {c : Condition} (ht : table ∈ Store.tableNames)
    (h : p.Scoped ⟨.table table, n.aliases + 1⟩ ⟨n.aliases + 1, n.ctes⟩)
    (hc : c.Names (·.table.text ∈ p.names ⟨.table table, n.aliases + 1⟩)) :
    CteBody.Placed (.select ⟨⟨⟨.table table, n.aliases + 1⟩, column⟩, p.joins, c⟩) p.ctes
      (⟨.table table, n.aliases + 1⟩ :: p.tables) n where
  aliases_numbered := by
    simp only [List.map_cons, List.length_cons, h.aliases_numbered, List.range'_succ]
  ctes_numbered := h.ctes_numbered
  introduced := h.introduced.cons _
  sources := List.forall_mem_cons.2 ⟨by simpa using ht, h.sources⟩
  blocks_scoped := h.blocks_scoped
  ordered := h.ordered
  own_blocks _ _ := List.forall_mem_singleton.2 (Select.scoped_block rfl h.on hc)
  draws _ _ := List.forall_mem_cons.2
    ⟨ht, List.forall_mem_map.2 (List.forall_mem_map.2 h.known)⟩

theorem placed_closure {base : Select} {step : ClosureStep} {ctes : List Cte} {tables : List Alias}
    (ht : table ∈ Store.tableNames)
    (hr : step.relation = ⟨.table table, n.aliases + tables.length + 1⟩)
    (h : CteBody.Placed (.select base) ctes tables n) :
    CteBody.Placed (.closure base step) ctes (tables ++ [step.relation]) n where
  aliases_numbered := by
    simp only [List.map_append, h.aliases_numbered, hr, List.length_append, List.length_singleton,
      List.map_singleton, List.range'_1_concat, Nat.add_right_comm]
  ctes_numbered := h.ctes_numbered
  introduced := by
    simp only [CteBody.aliases, List.append_assoc]
    exact (List.perm_append_comm.append_left _).trans
      (by simpa [CteBody.aliases] using h.introduced.append_right [step.relation])
  sources := List.forall_mem_append.2
    ⟨h.sources, List.forall_mem_singleton.2 (by simpa [hr] using ht)⟩
  blocks_scoped := h.blocks_scoped
  ordered := h.ordered
  own_blocks name column := by
    have base := h.own_blocks name column
    refine List.forall_mem_cons.2 ⟨base _ (by simp [Cte.blocks]), List.forall_mem_singleton.2 ?_⟩
    constructor
    · simp [Cte.stepBlock, TermsScoped, Alias.term]
    · simp [Cte.stepBlock, Block.names, Alias.term]
  draws name column := by
    refine ⟨h.draws name column, ?_, ?_⟩
    · simp [Cte.stepBlock, Block.sources, Alias.term, hr]
    · simp [Cte.stepBlock, Block.sources, Alias.term, hr, Source.Known, ht]

theorem scoped_hoist {far : Kind} {positive : Bool} {body : CteBody} {ctes : List Cte}
    {tables : List Alias} (h : body.Placed ctes tables n) :
    (hoist ⟨a, column⟩ far positive body ctes tables n).Scoped a n where
  aliases_numbered := by
    simp only [hoist, List.map_append, h.aliases_numbered, List.length_append,
      List.length_singleton, List.map_singleton, List.range'_1_concat, Nat.add_right_comm]
  ctes_numbered := by
    simp only [hoist, List.map_append, h.ctes_numbered, List.length_append, List.length_singleton,
      List.map_singleton, List.range'_1_concat, Nat.add_right_comm]
  introduced := by
    simp only [hoist, List.map_singleton, List.flatMap_append, List.flatMap_singleton]
    exact List.perm_append_comm.trans
      ((List.perm_append_comm.trans h.introduced).append_right _)
  sources := List.forall_mem_append.2 ⟨h.sources, by simp⟩
  on := by simp [hoist, TermsScoped, Join.term, Join.mentions, JoinOn.refs]
  known := by simp [hoist, Source.Known]
  blocks_scoped := List.forall_mem_append.2
    ⟨h.blocks_scoped, List.forall_mem_singleton.2 (h.own_blocks _ _)⟩
  ordered := ordered_append.2 ⟨h.ordered, h.draws _ _, trivial⟩
  condition := by
    cases positive with
    | true => exact Condition.names_always
    | false => exact Condition.names_null (by simp [names, hoist])

end Fragment

namespace Filter

theorem placed_lowerAll {fs : List Filter} {a : Alias} {n : Numbering} {c : Connective}
    (ih : ∀ f ∈ fs, ∀ n, (f.lower a n).Scoped a n) :
    (Fragment.all c (lowerAll fs a n)).Placed a n := by
  induction fs generalizing n with
  | nil => exact Fragment.placed_nil
  | cons f fs ihs =>
    obtain ⟨hf, hfs⟩ := List.forall_mem_cons.1 ih
    exact (hf n).toPlaced.cons (ihs hfs)

theorem scoped_lower {f : Filter} (hf : f.OverSchema) {a : Alias} {n : Numbering} :
    (f.lower a n).Scoped a n := by
  induction f using induction generalizing a n with
  | empty => exact Fragment.scoped_ofCondition Condition.names_always
  | test f t =>
    refine Fragment.scoped_ofCondition ?_
    cases t with
    | null => exact Condition.names_null rfl
    | integer | boolean | string => exact Condition.names_compare rfl
  | link r t condition ih =>
    obtain ⟨hr, hc⟩ := every_link.1 hf
    have far := r.far.table_mem_tableNames
    have table {q : String × String} (hq : q ∈ r.columns) : q.1 ∈ Store.tableNames :=
      mem_tableNames_of_column (hr.exists_link_column hq)
    have fixed {b : Alias} {c : Condition} {p : Fragment}
        (hc : c.Names (·.table.text ∈ p.names b)) :
        (r.withFixed b c).Names (·.table.text ∈ p.names b) :=
      Fragment.names_withFixed hc fun f _ => List.mem_cons_self
    have on (b : Alias) : ∀ o ∈ r.fixedOn b, ∀ q ∈ o.refs, q.table = a ∨ q.table = b :=
      Fragment.refs_fixedOn fun _ _ => .inr rfl
    rw [lower]
    cases hp : r.passage t with
    | key =>
      simp only [Fragment.alongKey]
      split
      · refine Fragment.scoped_enter far (List.forall_mem_cons.2 ⟨?_, on _⟩) (ih hc)
        simp [JoinOn.refs]
      · exact Fragment.scoped_hoist (Fragment.placed_select far (ih hc) (fixed (ih hc).condition))
    | association assoc =>
      have relation := table (Relationship.columns_of_association hp).1
      -- the far table is joined behind the association, so it is entered from there
      have named : ((condition.lower ⟨.table r.far.table, n.aliases + 2⟩
          ⟨n.aliases + 2, n.ctes⟩).enter ⟨.table r.far.table, n.aliases + 2⟩
            [.columns ⟨⟨.table assoc.table, n.aliases + 1⟩, assoc.farColumn⟩
              ⟨⟨.table r.far.table, n.aliases + 2⟩, assoc.targetColumn⟩]).Scoped
          ⟨.table assoc.table, n.aliases + 1⟩ ⟨n.aliases + 1, n.ctes⟩ := by
        refine Fragment.scoped_enter (n := ⟨n.aliases + 1, n.ctes⟩) far ?_ (ih hc)
        simp [JoinOn.refs]
      simp only [Fragment.alongAssociation]
      split
      · refine Fragment.scoped_enter relation (List.forall_mem_cons.2 ⟨?_, on _⟩) named
        simp [JoinOn.refs]
      · exact Fragment.scoped_hoist
          (Fragment.placed_select relation named (fixed named.condition))
    | closure table' near foreign =>
      have relation := table (Relationship.columns_of_closure hp).2.1
      exact Fragment.scoped_hoist (Fragment.placed_closure relation rfl
        (Fragment.placed_select far (ih hc) (ih hc).condition))
  | group c fs ih =>
    have hs : ∀ f ∈ fs, ∀ n, (f.lower a n).Scoped a n := fun f hm n =>
      ih f hm (every_group.1 hf f hm)
    refine ⟨placed_lowerAll hs, Condition.names_all (List.forall_mem_map.2 fun p hp => ?_)⟩
    obtain ⟨f, hm, n', rfl⟩ := mem_lowerAll hp
    exact (hs f hm n').condition.mono fun r hr => Fragment.names_subset_names_all hp hr

end Filter

end Lexiquery
