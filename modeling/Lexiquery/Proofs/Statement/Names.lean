import Lexiquery.Proofs.Filter.Belonging
import Lexiquery.Proofs.Relation
import Lexiquery.Statement.Run

/-! The columns that a compiled statement names. In a lexical database all of them are there. -/

namespace Lexiquery

variable {P : ColumnRef → Prop}

namespace Condition

def Names (P : ColumnRef → Prop) (c : Condition) : Prop :=
  ∀ start, ∀ m ∈ c.mentions start, P m.column

theorem Names.mono {Q : ColumnRef → Prop} {c : Condition} (h : c.Names P) (hpq : ∀ r, P r → Q r) :
    c.Names Q :=
  fun start m hm => hpq _ (h start m hm)

theorem names_always : always.Names P := by
  simp [Names, mentions]

theorem names_compare {r : ColumnRef} {op : Operator} {b : Binding} (h : P r) :
    (compare r op b).Names P := by
  simpa [Names, mentions] using h

theorem names_literal {r : ColumnRef} {n : Int64} (h : P r) : (literal r n).Names P := by
  simpa [Names, mentions] using h

theorem names_null {r : ColumnRef} {t : NullTest} (h : P r) : (null r t).Names P := by
  simpa [Names, mentions] using h

@[elab_as_elim]
theorem induction {motive : Condition → Prop}
    (always : motive .always)
    (compare : ∀ column op value, motive (.compare column op value))
    (literal : ∀ column value, motive (.literal column value))
    (null : ∀ column test, motive (.null column test))
    (group : ∀ connective children, (∀ c ∈ children, motive c) →
      motive (.group connective children)) :
    ∀ c, motive c
  | .always => always
  | .compare r op b => compare r op b
  | .literal r n => literal r n
  | .null r t => null r t
  | .group k cs => group k cs fun c _ => induction always compare literal null group c

theorem mem_mentionsAll {separator : String} {start : Nat} {cs : List Condition} {m : Mention}
    (h : m ∈ mentionsAll separator start cs) : ∃ c ∈ cs, ∃ place, m ∈ c.mentions place := by
  induction cs generalizing start with
  | nil => simp [mentionsAll] at h
  | cons c cs ih =>
    have rest {place} (h : m ∈ mentionsAll separator place cs) :
        ∃ c' ∈ c :: cs, ∃ place, m ∈ c'.mentions place := by
      obtain ⟨c', hc, h⟩ := ih h
      exact ⟨c', List.mem_cons_of_mem _ hc, h⟩
    cases c <;> simp only [mentionsAll, List.mem_append] at h <;>
      exact h.elim (fun h => ⟨_, List.mem_cons_self, _, h⟩) rest

theorem map_mentionsAll {separator : String} {start : Nat} {cs : List Condition}
    (h : ∀ c ∈ cs, ∀ start, (c.mentions start).map (·.column) = (c.mentions 0).map (·.column)) :
    (mentionsAll separator start cs).map (·.column) =
      cs.flatMap fun c => (c.mentions 0).map (·.column) := by
  induction cs generalizing start with
  | nil => rfl
  | cons c cs ih =>
    obtain ⟨hc, hcs⟩ := List.forall_mem_cons.1 h
    cases c <;> simp only [mentionsAll, List.map_append, List.flatMap_cons, hc _, ih hcs]

theorem map_mentions (c : Condition) (start : Nat) :
    (c.mentions start).map (·.column) = (c.mentions 0).map (·.column) := by
  induction c using induction generalizing start with
  | group k cs ih => rw [mentions, mentions, map_mentionsAll ih, map_mentionsAll ih]
  | _ => simp [mentions]

theorem Names.of_group {k : Connective} {cs : List Condition} (h : (group k cs).Names P) :
    ∀ c ∈ cs, c.Names P := by
  intro c hc start m hm
  have hr : m.column ∈ ((group k cs).mentions 0).map (·.column) := by
    rw [mentions, map_mentionsAll fun c _ => c.map_mentions]
    refine List.mem_flatMap.2 ⟨c, hc, ?_⟩
    rw [← c.map_mentions start]
    exact List.mem_map_of_mem hm
  obtain ⟨m', hm', hr⟩ := List.mem_map.1 hr
  exact hr ▸ h 0 m' hm'

theorem names_all {c : Connective} {cs : List Condition} (h : ∀ c ∈ cs, c.Names P) :
    (all c cs).Names P := by
  have group (cs' : List Condition) (hs : ∀ c ∈ cs', c ∈ cs) : (group c cs').Names P := by
    intro start m hm
    rw [mentions] at hm
    obtain ⟨c', hc, place, hm⟩ := mem_mentionsAll hm
    exact h c' (hs c' hc) place m hm
  rw [all.eq_def]
  split
  · exact names_always
  · cases c with
    | and => exact group _ fun c hc => (List.mem_filter.1 hc).1
    | or => exact group _ fun _ hc => hc

end Condition

def Join.Names (P : ColumnRef → Prop) (j : Join) : Prop :=
  (∃ column, P ⟨j.table, column⟩) ∧ ∀ o ∈ j.on, ∀ r ∈ o.refs, P r

structure Select.Names (P : ColumnRef → Prop) (s : Select) : Prop where
  column : P s.column
  joins : ∀ j ∈ s.joins, j.Names P
  condition : s.condition.Names P

def CteBody.Names (P : ColumnRef → Prop) : CteBody → Prop
  | select s => s.Names P
  | closure base step => base.Names P ∧ P ⟨step.relation, step.joinColumn⟩ ∧
      P ⟨step.relation, step.foreignJoinColumn⟩

structure Fragment.Names (P : ColumnRef → Prop) (p : Fragment) : Prop where
  joins : ∀ j ∈ p.joins, j.Names P
  condition : p.condition.Names P
  ctes : ∀ c ∈ p.ctes, c.body.Names P

theorem Join.Names.mentions {j : Join} (h : j.Names P) : ∀ m ∈ j.mentions, P m.column := by
  intro m hm
  obtain ⟨o, ho, hm⟩ := List.mem_flatMap.1 hm
  obtain ⟨r, hr, rfl⟩ := List.mem_map.1 hm
  exact h.2 o ho r hr

theorem Select.Names.mentions {s : Select} (h : s.Names P) (start : Nat) :
    ∀ m ∈ s.mentions start, P m.column := by
  simp only [Select.mentions, List.cons_append, List.forall_mem_cons, List.forall_mem_append,
    List.mem_flatMap, forall_exists_index, and_imp]
  exact ⟨h.column, h.condition _, fun m j hj hm => (h.joins j hj).mentions m hm⟩

theorem CteBody.Names.mentions {b : CteBody} (h : b.Names P) (start : Nat) :
    ∀ m ∈ b.mentions start, P m.column := by
  cases b with
  | select s => exact Select.Names.mentions h start
  | closure base step =>
    obtain ⟨hb, hj, hf⟩ := h
    simpa [CteBody.mentions, hj, hf] using hb.mentions start

namespace Fragment

theorem names_all {c : Connective} {ps : List Fragment} (h : ∀ p ∈ ps, p.Names P) :
    (all c ps).Names P where
  joins j hj := by
    obtain ⟨p, hp, hj⟩ := List.mem_flatMap.1 hj
    exact (h p hp).joins j hj
  condition := Condition.names_all (List.forall_mem_map.2 fun p hp => (h p hp).condition)
  ctes c hc := by
    obtain ⟨p, hp, hc⟩ := List.mem_flatMap.1 hc
    exact (h p hp).ctes c hc

variable {p : Fragment} {r : Relationship} {a : Alias}

theorem names_withFixed {c : Condition} (hc : c.Names P) (hf : ∀ f ∈ r.fixed?, P ⟨a, f.column⟩) :
    (r.withFixed a c).Names P := by
  rw [Relationship.withFixed]
  split
  · exact hc
  · rename_i f hr
    refine Condition.names_all ?_
    simpa using ⟨hc, Condition.names_literal (hf f hr)⟩

theorem refs_fixedOn (hf : ∀ f ∈ r.fixed?, P ⟨a, f.column⟩) :
    ∀ o ∈ r.fixedOn a, ∀ q ∈ o.refs, P q := by
  simpa [Relationship.fixedOn, JoinOn.refs] using hf

theorem names_hoist {column : String} {far : Kind} {positive : Bool} {body : CteBody}
    {ctes : List Cte} {tables : List Alias} {n : Numbering} (ha : P ⟨a, column⟩)
    (hb : body.Names P) (hc : ∀ c ∈ ctes, c.body.Names P)
    (hp : ∀ c ∈ (hoist ⟨a, column⟩ far positive body ctes tables n).ctes,
      ∀ b : Alias, b.source = .cte c.name → P ⟨b, c.column⟩) :
    (hoist ⟨a, column⟩ far positive body ctes tables n).Names P := by
  have partner := hp ⟨⟨far.table, n.ctes + ctes.length + 1⟩, column, body⟩ (by simp [hoist])
    ⟨.cte _, n.aliases + tables.length + 1⟩ rfl
  constructor
  · rw [hoist, List.forall_mem_singleton]
    exact ⟨⟨column, partner⟩, by simpa [JoinOn.refs, ha] using partner⟩
  · cases positive with
    | true => exact Condition.names_always
    | false => exact Condition.names_null partner
  · rw [hoist, List.forall_mem_append, List.forall_mem_singleton]
    exact ⟨hc, hb⟩

theorem ctes_subset_alongKey {t : LinkTest} {owner : ColumnRef} {far : Alias} {n : Numbering} :
    p.ctes ⊆ (p.alongKey r t owner far n).ctes := by
  rw [alongKey]
  split <;> simp [hoist]

theorem ctes_subset_alongAssociation {assoc : Association} {t : LinkTest} {owner : ColumnRef}
    {relation far : Alias} {n : Numbering} :
    p.ctes ⊆ (p.alongAssociation r assoc t owner relation far n).ctes := by
  rw [alongAssociation]
  split <;> simp [hoist]

theorem ctes_subset_alongClosure {step : ClosureStep} {t : LinkTest} {owner : ColumnRef}
    {far : Alias} {n : Numbering} : p.ctes ⊆ (p.alongClosure r t owner far step n).ctes := by
  simp [alongClosure, hoist]

section

variable {t : LinkTest} {far relation : Alias} {n : Numbering} (ha : P ⟨a, r.column⟩)
  (h : p.Names P)
include ha h

theorem names_alongKey (hfar : P ⟨far, r.column⟩) (hf : ∀ f ∈ r.fixed?, P ⟨far, f.column⟩)
    (hp : ∀ c ∈ (p.alongKey r t ⟨a, r.column⟩ far n).ctes,
      ∀ b : Alias, b.source = .cte c.name → P ⟨b, c.column⟩) :
    (p.alongKey r t ⟨a, r.column⟩ far n).Names P := by
  rw [alongKey] at hp ⊢
  split at hp
  · rename_i hpos
    rw [if_pos hpos]
    refine ⟨List.forall_mem_cons.2 ⟨⟨⟨_, hfar⟩, ?_⟩, h.joins⟩, h.condition, h.ctes⟩
    exact List.forall_mem_cons.2 ⟨by simp [JoinOn.refs, ha, hfar], refs_fixedOn hf⟩
  · rename_i hpos
    rw [if_neg hpos]
    exact names_hoist ha ⟨hfar, h.joins, names_withFixed h.condition hf⟩ h.ctes hp

theorem names_alongAssociation {assoc : Association} (hnear : P ⟨relation, assoc.nearColumn⟩)
    (hfar : P ⟨relation, assoc.farColumn⟩) (htarget : P ⟨far, assoc.targetColumn⟩)
    (hf : ∀ f ∈ r.fixed?, P ⟨relation, f.column⟩)
    (hp : ∀ c ∈ (p.alongAssociation r assoc t ⟨a, r.column⟩ relation far n).ctes,
      ∀ b : Alias, b.source = .cte c.name → P ⟨b, c.column⟩) :
    (p.alongAssociation r assoc t ⟨a, r.column⟩ relation far n).Names P := by
  have farJoin : Join.Names P ⟨.inner, far,
      [.columns ⟨relation, assoc.farColumn⟩ ⟨far, assoc.targetColumn⟩]⟩ :=
    ⟨⟨_, htarget⟩, by simp [JoinOn.refs, hfar, htarget]⟩
  rw [alongAssociation] at hp ⊢
  split at hp
  · rename_i hpos
    rw [if_pos hpos]
    refine ⟨List.forall_mem_cons.2 ⟨⟨⟨_, hnear⟩, ?_⟩, List.forall_mem_cons.2 ⟨farJoin, h.joins⟩⟩,
      h.condition, h.ctes⟩
    exact List.forall_mem_cons.2 ⟨by simp [JoinOn.refs, ha, hnear], refs_fixedOn hf⟩
  · rename_i hpos
    rw [if_neg hpos]
    exact names_hoist ha ⟨hnear, List.forall_mem_cons.2 ⟨farJoin, h.joins⟩,
      names_withFixed h.condition hf⟩ h.ctes hp

theorem names_alongClosure {step : ClosureStep} (hfar : P ⟨far, r.column⟩)
    (hj : P ⟨step.relation, step.joinColumn⟩) (hf : P ⟨step.relation, step.foreignJoinColumn⟩)
    (hp : ∀ c ∈ (p.alongClosure r t ⟨a, r.column⟩ far step n).ctes,
      ∀ b : Alias, b.source = .cte c.name → P ⟨b, c.column⟩) :
    (p.alongClosure r t ⟨a, r.column⟩ far step n).Names P :=
  names_hoist ha ⟨⟨hfar, h.joins, h.condition⟩, hj, hf⟩ h.ctes hp

end

end Fragment

namespace Filter

theorem mem_lowerAll {fs : List Filter} {a : Alias} {n : Numbering} {p : Fragment}
    (h : p ∈ lowerAll fs a n) : ∃ f ∈ fs, ∃ n', p = f.lower a n' := by
  induction fs generalizing n with
  | nil => simp [lowerAll] at h
  | cons f fs ih =>
    rw [lowerAll] at h
    obtain rfl | h := List.mem_cons.1 h
    · exact ⟨f, by simp, n, rfl⟩
    · obtain ⟨g, hg, n', rfl⟩ := ih h
      exact ⟨g, List.mem_cons_of_mem _ hg, n', rfl⟩

theorem exists_mem_lowerAll {fs : List Filter} {a : Alias} {n : Numbering} {f : Filter}
    (h : f ∈ fs) : ∃ n', f.lower a n' ∈ lowerAll fs a n := by
  induction fs generalizing n with
  | nil => cases h
  | cons g fs ih =>
    rw [lowerAll]
    obtain rfl | h := List.mem_cons.1 h
    · exact ⟨n, List.mem_cons_self⟩
    · obtain ⟨n', hn⟩ := @ih (n.after (g.lower a n)) h
      exact ⟨n', List.mem_cons_of_mem _ hn⟩

theorem names_lower_of_every {f : Filter} {k : Kind} (hk : f.Belongs k)
    (hf : f.Every (fun g _ => ∀ m, P ⟨⟨.table g.kind.table, m⟩, g.column⟩) fun r _ =>
      ∀ q ∈ r.columns, ∀ m, P ⟨⟨.table q.1, m⟩, q.2⟩) {m : Nat} {n : Numbering}
    (hc : ∀ c ∈ (f.lower ⟨.table k.table, m⟩ n).ctes,
      ∀ b : Alias, b.source = .cte c.name → P ⟨b, c.column⟩) :
    (f.lower ⟨.table k.table, m⟩ n).Names P := by
  induction f using induction generalizing k m n with
  | empty => exact ⟨nofun, Condition.names_always, nofun⟩
  | test g t =>
    obtain rfl := belongs_test_iff.1 hk
    have := every_test.1 hf m
    refine ⟨nofun, ?_, nofun⟩
    cases t with
    | null => exact Condition.names_null this
    | integer | boolean | string => exact Condition.names_compare this
  | link r t condition ih =>
    obtain ⟨rfl, hkc⟩ := belongs_link_iff.1 hk
    obtain ⟨there, hfc⟩ := every_link.1 hf
    have owner := there _ r.near_mem_columns m
    rw [lower] at hc ⊢
    cases hp : r.passage t with
    | key =>
      rw [hp] at hc
      obtain ⟨hfar, hfix⟩ := Relationship.columns_of_key hp
      exact Fragment.names_alongKey owner
        (ih hkc hfc fun c h => hc c (Fragment.ctes_subset_alongKey h)) (there _ hfar _)
        (fun f hf => there _ (hfix f hf) _) hc
    | association assoc =>
      rw [hp] at hc
      obtain ⟨hnear, hfar, htarget, hfix⟩ := Relationship.columns_of_association hp
      exact Fragment.names_alongAssociation owner
        (ih hkc hfc fun c h => hc c (Fragment.ctes_subset_alongAssociation h)) (there _ hnear _)
        (there _ hfar _) (there _ htarget _) (fun f hf => there _ (hfix f hf) _) hc
    | closure table near far =>
      rw [hp] at hc
      obtain ⟨hfar, hnear, hforeign⟩ := Relationship.columns_of_closure hp
      exact Fragment.names_alongClosure owner
        (ih hkc hfc fun c h => hc c (Fragment.ctes_subset_alongClosure h)) (there _ hfar _)
        (there _ hnear _) (there _ hforeign _) hc
  | group c fs ih =>
    refine Fragment.names_all fun p hp => ?_
    obtain ⟨f, hfs, n', rfl⟩ := mem_lowerAll hp
    apply ih f hfs (belongs_group_iff.1 hk f hfs) (every_group.1 hf f hfs)
      fun c h => hc c (List.mem_flatMap.2 ⟨_, hp, h⟩)

theorem names_lower (hP : ∀ table column m, (Store.column? table column).isSome = true →
      P ⟨⟨.table table, m⟩, column⟩)
    {f : Filter} {k : Kind} (hn : f.Normal k) (hf : f.Sound) {m : Nat} {n : Numbering}
    (hc : ∀ c ∈ (f.lower ⟨.table k.table, m⟩ n).ctes,
      ∀ b : Alias, b.source = .cte c.name → P ⟨b, c.column⟩) :
    (f.lower ⟨.table k.table, m⟩ n).Names P := by
  refine names_lower_of_every hn.belongs (hf.mono (fun g _ hg m => ?_) fun r _ hr q hq m => ?_) hc
  · exact hP _ _ m hg.exists_column
  · exact hP _ _ m (hr.1.exists_link_column hq)

end Filter

end Lexiquery
