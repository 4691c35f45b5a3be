import Lexiquery.Proofs.Filter.Meaning
import Lexiquery.Proofs.Filter.Meeting

/-! What merging siblings does to the records a filter holds of. As long as no clause is negative,
normalizing a filter adds none. -/

namespace Lexiquery

def Connective.Combines : Connective → Prop → Prop → Prop
  | and, p, q => p ∧ q
  | or, p, q => p ∨ q

theorem Connective.Combines.imp {c : Connective} {p p' q q' : Prop} (hp : p → p') (hq : q → q')
    (h : c.Combines p q) : c.Combines p' q' := by
  cases c with
  | and => exact ⟨hp h.1, hq h.2⟩
  | or => exact Or.imp hp hq h

theorem Along.or {store : Store} {hops : List Relationship} {P Q : Row → Prop} {x : Row}
    (h : Along store hops (fun y => P y ∨ Q y) x) :
    Along store hops P x ∨ Along store hops Q x := by
  induction hops generalizing x with
  | nil => exact h
  | cons r hops ih =>
    obtain ⟨y, hy, h⟩ := h
    exact (ih h).imp (fun h => ⟨y, hy, h⟩) fun h => ⟨y, hy, h⟩

namespace Filter

variable {store : Store} {k : Kind} {x : Row} {c : Connective}
  {p : List Filter → Filter → Prop}

theorem vanishes_insert {f : Filter} {ss : List Sibling} (hu : ∀ s ∈ ss, s.Under c) :
    (∀ s ∈ Sibling.insert f c ss, s.toFilter.Vanishes) ↔
      (∀ s ∈ ss, s.toFilter.Vanishes) ∧ f.Vanishes := by
  refine Sibling.insert_induction (motive := fun f _ ss ss' =>
    (∀ s ∈ ss', s.toFilter.Vanishes) ↔ (∀ s ∈ ss, s.toFilter.Vanishes) ∧ f.Vanishes)
    ?_ ?_ ?_ f c ss hu
  · intro f c ss _
    simp [or_imp, forall_and, Sibling.toFilter]
  · intro r s t condition first c before after _ _ _ _
    simp [or_imp, forall_and, Sibling.toFilter]
  · intro r s t condition conditions c before after _ _ _ _
    simp [or_imp, forall_and, Sibling.toFilter]

theorem vanishes_mergeSiblings {fs : List Filter} :
    (∀ f ∈ mergeSiblings c fs, f.Vanishes) ↔ ∀ f ∈ fs, f.Vanishes := by
  obtain ⟨ss, hss, hm⟩ := mergeSiblings_induction (c := c)
    (motive := fun fs ss => (∀ s ∈ ss, s.toFilter.Vanishes) ↔ ∀ f ∈ fs, f.Vanishes)
    (by simp) (fun f fs ss hu ih => by
      rw [vanishes_insert hu, ih, List.forall_mem_append, List.forall_mem_singleton]) fs
  rw [hss, List.forall_mem_map, hm]

theorem vanishes_along {hops : List Relationship} {f : Filter} (h : f.Vanishes → False) :
    ¬ (along hops f).Vanishes := by
  cases hops with
  | nil => exact h
  | cons => exact not_vanishes_link

theorem vanishes_normalize {f : Filter} : (f.normalize k).Vanishes ↔ f.Vanishes := by
  induction f using induction generalizing k with
  | empty => rfl
  | test => exact iff_of_false (vanishes_along not_vanishes_test) not_vanishes_test
  | link => exact iff_of_false (vanishes_along not_vanishes_link) not_vanishes_link
  | group c fs ih =>
    rw [normalize, vanishes_group, vanishes_group, vanishes_mergeSiblings, normalizeAll_eq,
      List.forall_mem_map]
    exact forall₂_congr fun f hf => ih f hf

/-- What children say under a connective. Of alternatives those that vanish say nothing. -/
def Says (store : Store) (c : Connective) (fs : List Filter) (k : Kind) (x : Row) : Prop :=
  match c with
  | .and => ∀ f ∈ fs, f.Holds store k x
  | .or => ∃ f ∈ fs, ¬ f.Vanishes ∧ f.Holds store k x

theorem holds_group {fs : List Filter} :
    (group c fs).Holds store k x ↔ (∀ f ∈ fs, f.Vanishes) ∨ Says store c fs k x := by
  cases c with
  | and =>
    rw [holds_and, Says]
    exact (or_iff_right_of_imp fun h f hf => (h f hf).holds).symm
  | or => rw [holds_or, vanishes_group, Says]

theorem says_append {fs gs : List Filter} :
    Says store c (fs ++ gs) k x ↔ c.Combines (Says store c fs k x) (Says store c gs k x) := by
  cases c with
  | and => simp [Says, Connective.Combines, or_imp, forall_and]
  | or => simp [Says, Connective.Combines, or_and_right, exists_or]

theorem says_singleton {f : Filter} (h : ¬ f.Vanishes) :
    Says store c [f] k x ↔ f.Holds store k x := by
  cases c <;> simp [Says, h]

theorem Says.holds {f : Filter} (h : Says store c [f] k x) : f.Holds store k x := by
  cases c <;> simp_all [Says]

theorem says_link {r : Relationship} {t : LinkTest} {condition : Filter} {fs gs : List Filter} :
    Says store c (fs ++ link r t condition :: gs) k x ↔
      c.Combines (Says store c (fs ++ gs) k x) ((link r t condition).Holds store k x) := by
  rw [← List.singleton_append,
    ← says_singleton (c := c) (f := link r t condition) not_vanishes_link]
  simp only [says_append]
  cases c <;> simp only [Connective.Combines] <;> tauto

theorem holds_link_of_combines {r : Relationship} {t : LinkTest} {condition f g : Filter}
    (ht : t.isPositive = true) (h : ∀ y, condition.Holds store r.far y →
      c.Combines (f.Holds store r.far y) (g.Holds store r.far y))
    (hl : (link r t condition).Holds store k x) :
    c.Combines ((link r t f).Holds store k x) ((link r t g).Holds store k x) := by
  simp only [Holds] at hl ⊢
  cases c with
  | and =>
    exact ⟨hl.mono fun _ => Relationship.Asks.mono ht fun y _ hy => (h y hy).1,
      hl.mono fun _ => Relationship.Asks.mono ht fun y _ hy => (h y hy).2⟩
  | or =>
    refine Along.or (hl.mono fun _ ha => ?_)
    exact (Relationship.asks_or ht).1 (ha.mono ht fun y _ => h y)

theorem holds_group_singleton {f : Filter} :
    (group c [f]).Holds store k x ↔ f.Holds store k x := by
  by_cases h : f.Vanishes
  · exact iff_of_true (holds_group.2 (.inl (by simpa using h))) h.holds
  · rw [holds_group, says_singleton h]
    simp [h]

theorem Adds.vanishes_iff {f : Filter} {fs gs : List Filter} (h : Adds p c f fs gs) :
    (∀ g ∈ gs, g.Vanishes) ↔ (∀ g ∈ fs, g.Vanishes) ∧ f.Vanishes := by
  cases h <;> simp [or_imp, forall_and]

theorem Adds.combines {f : Filter} {fs gs : List Filter} (h : Adds p c f fs gs)
    (hs : Says store c gs k x → Says store c (fs ++ [f]) k x)
    (hg : (group c gs).Holds store k x) :
    c.Combines ((group c fs).Holds store k x) (f.Holds store k x) := by
  obtain hv | hg := holds_group.1 hg
  · obtain ⟨hfs, hf⟩ := h.vanishes_iff.1 hv
    have hfs : (group c fs).Holds store k x := holds_group.2 (.inl hfs)
    cases c with
    | and => exact ⟨hfs, hf.holds⟩
    | or => exact .inl hfs
  · exact (says_append.1 (hs hg)).imp (fun h => holds_group.2 (.inr h)) Says.holds

theorem says_of_link {r : Relationship} {t : LinkTest} {fs gs : List Filter} {old new g : Filter}
    (ht : t.isPositive = true) (h : ∀ y, new.Holds store r.far y →
      c.Combines (old.Holds store r.far y) (g.Holds store r.far y))
    (hs : Says store c (fs ++ link r t new :: gs) k x) :
    Says store c ((fs ++ link r t old :: gs) ++ [link r t g]) k x := by
  have hl : (link r t new).Holds store k x →
      c.Combines ((link r t old).Holds store k x) ((link r t g).Holds store k x) :=
    holds_link_of_combines ht h
  rw [says_link] at hs
  rw [says_append, says_link, says_singleton not_vanishes_link]
  cases c with
  | and => exact ⟨⟨hs.1, (hl hs.2).1⟩, (hl hs.2).2⟩
  | or => exact hs.elim (fun h => .inl (.inl h)) fun h => (hl h).imp .inr id

theorem Adds.says_concat {f : Filter} {fs gs : List Filter} (h : Adds p c f fs gs)
    (hs : Says store c gs k x) : Says store c (fs ++ [f]) k x := by
  induction h generalizing k x with
  | last => exact hs
  | join ht _ h ih =>
    exact says_of_link ht (fun y hy => (h.combines ih hy).imp holds_group_singleton.1 id) hs
  | add ht _ h ih => exact says_of_link ht (fun y hy => h.combines ih hy) hs

theorem says_of_mergeSiblings {fs : List Filter} (hfs : ∀ f ∈ fs, f.Positive)
    (h : Says store c (mergeSiblings c fs) k x) : Says store c fs k x := by
  obtain ⟨ss, hss, hm⟩ := mergeSiblings_induction (c := c)
    (motive := fun fs ss => (∀ f ∈ fs, f.Positive) → (∀ s ∈ ss, s.toFilter.Positive) ∧
      (Says store c (ss.map Sibling.toFilter) k x → Says store c fs k x))
    (by simp) (fun f fs ss hu ih h => by
      simp only [List.forall_mem_append, List.forall_mem_singleton] at h
      obtain ⟨hp, hs⟩ := ih h.1
      refine ⟨every_insert hu h.2 hp, fun hi => ?_⟩
      have ha := adds_insert (p := fun _ _ => True) hu h.2.overSchema
        (fun s hs => (hp s hs).overSchema) fun s _ => h.2.meets.mono fun ht => ⟨ht, trivial⟩
      exact says_append.2 ((says_append.1 (ha.says_concat hi)).imp hs id)) fs
  exact (hm hfs).2 (hss ▸ h)

theorem holds_along {hops : List Relationship} {f : Filter} {l : Kind}
    (hh : Schema.Leads k hops l) :
    (along hops f).Holds store k x ↔ Along store hops (f.Holds store l) x := by
  induction hops generalizing k x with
  | nil =>
    obtain rfl : k = l := hh
    rfl
  | cons r hops ih =>
    obtain ⟨rfl, hh⟩ := hh
    exact (holds_link rfl).trans (exists_congr fun y => and_congr_right fun _ => ih hh)

/-- A record of which a filter without negative clauses holds after it was normalized is one of
which the filter holds as it was written. -/
theorem Positive.holds_of_normalize {f : Filter} (hf : f.Positive)
    (h : (f.normalize k).Holds store k x) : f.Holds store k x := by
  induction f using induction generalizing k x with
  | empty => trivial
  | test f t =>
    exact ((holds_along (Schema.path_leads k f.kind)).1 h).mono fun _ => (holds_test rfl).1
  | link r t condition ih =>
    obtain ⟨⟨-, hpos⟩, hc⟩ := positive_link.1 hf
    refine ((holds_along (Schema.path_leads k r.kind)).1 h).mono fun y hy => ?_
    rw [holds_link rfl] at hy
    exact hy.mono hpos fun z _ hz => ih hc hz
  | group c fs ih =>
    have hfs := positive_group.1 hf
    rw [Filter.normalize, holds_group, vanishes_mergeSiblings, normalizeAll_eq,
      List.forall_mem_map] at h
    obtain hv | hs := h
    · exact holds_group.2 (.inl fun f hf => vanishes_normalize.1 (hv f hf))
    · have hs := says_of_mergeSiblings
        (List.forall_mem_map.2 fun f hf => (hfs f hf).normalize k) hs
      refine holds_group.2 (.inr ?_)
      cases c with
      | and => exact fun f hf => ih f hf (hfs f hf) (hs _ (List.mem_map_of_mem hf))
      | or =>
        obtain ⟨_, hm, hv, hs⟩ := hs
        obtain ⟨f, hf, rfl⟩ := List.mem_map.1 hm
        exact ⟨f, hf, mt vanishes_normalize.2 hv, ih f hf (hfs f hf) hs⟩

end Filter

end Lexiquery
