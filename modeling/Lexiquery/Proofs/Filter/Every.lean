import Lexiquery.Filter.Build
import Lexiquery.Proofs.Filter.Siblings
import Lexiquery.Proofs.Schema.Fields

/-! Properties of all clauses of a filter, conditions on related rows included. Normalizing and
compacting keep them: they bring in no clause but the hops of a path. -/

namespace Lexiquery

namespace Filter

variable {p : Field → Test → Prop} {q : Relationship → LinkTest → Prop}

inductive Every (p : Field → Test → Prop) (q : Relationship → LinkTest → Prop) : Filter → Prop
  | empty : Every p q empty
  | test {f : Field} {t : Test} : p f t → Every p q (test f t)
  | link {r : Relationship} {t : LinkTest} {condition : Filter} :
    q r t → Every p q condition → Every p q (link r t condition)
  | group {c : Connective} {fs : List Filter} :
    (∀ f ∈ fs, Every p q f) → Every p q (group c fs)

@[simp] theorem every_test {f : Field} {t : Test} : (test f t).Every p q ↔ p f t :=
  ⟨fun h => by cases h with | test h => exact h, .test⟩

@[simp] theorem every_link {r : Relationship} {t : LinkTest} {condition : Filter} :
    (link r t condition).Every p q ↔ q r t ∧ condition.Every p q :=
  ⟨fun h => by cases h with | link h hc => exact ⟨h, hc⟩, fun h => .link h.1 h.2⟩

@[simp] theorem every_group {c : Connective} {fs : List Filter} :
    (group c fs).Every p q ↔ ∀ f ∈ fs, f.Every p q :=
  ⟨fun h => by cases h with | group h => exact h, .group⟩

theorem Every.mono {p' : Field → Test → Prop} {q' : Relationship → LinkTest → Prop}
    (hp : ∀ f t, p f t → p' f t) (hq : ∀ r t, q r t → q' r t) {f : Filter} (h : f.Every p q) :
    f.Every p' q' := by
  induction h with
  | empty => exact .empty
  | test h => exact .test (hp _ _ h)
  | link h _ ih => exact .link (hq _ _ h) ih
  | group _ ih => exact .group ih

theorem Every.and {p' : Field → Test → Prop} {q' : Relationship → LinkTest → Prop} {f : Filter}
    (h : f.Every p q) (h' : f.Every p' q') :
    f.Every (fun f t => p f t ∧ p' f t) (fun r t => q r t ∧ q' r t) := by
  induction h with
  | empty => exact .empty
  | test h => exact .test ⟨h, every_test.1 h'⟩
  | link h _ ih => exact .link ⟨h, (every_link.1 h').1⟩ (ih (every_link.1 h').2)
  | group _ ih => exact .group fun f hf => ih f hf (every_group.1 h' f hf)

theorem Every.combine {f g : Filter} (c : Connective) (hf : f.Every p q) (hg : g.Every p q) :
    (combine c f g).Every p q := by
  have two : (Filter.group c [f, g]).Every p q := every_group.2 (by simp [hf, hg])
  cases f with
  | empty => exact hg
  | test | link => exact two
  | group d fs =>
    rw [Filter.combine]
    split
    · exact every_group.2 (List.forall_mem_append.2 ⟨every_group.1 hf, by simpa using hg⟩)
    · exact two

theorem every_insert {f : Filter} {c : Connective} {ss : List Sibling}
    (hu : ∀ s ∈ ss, s.Under c) (hf : f.Every p q) (hss : ∀ s ∈ ss, s.toFilter.Every p q) :
    ∀ s ∈ Sibling.insert f c ss, s.toFilter.Every p q := by
  refine Sibling.insert_induction (motive := fun f _ ss ss' => f.Every p q →
    (∀ s ∈ ss, s.toFilter.Every p q) → ∀ s ∈ ss', s.toFilter.Every p q) ?_ ?_ ?_ f c ss hu hf hss
  · intro f c ss _ hf hss
    simpa [or_imp, forall_and, Sibling.toFilter, hf] using hss
  · intro r s t condition first c before after _ _ _ ih hf hss
    simp only [List.forall_mem_append, List.forall_mem_cons] at hss ⊢
    obtain ⟨hb, hs, ha⟩ := hss
    simp only [Sibling.toFilter, Sibling.toFilters_eq, every_link, every_group,
      List.forall_mem_map] at hf hs ⊢
    exact ⟨hb, ⟨hs.1, ih hf.2 (by simpa [Sibling.toFilter] using hs.2)⟩, ha⟩
  · intro r s t condition conditions c before after _ _ _ ih hf hss
    simp only [List.forall_mem_append, List.forall_mem_cons] at hss ⊢
    obtain ⟨hb, hs, ha⟩ := hss
    simp only [Sibling.toFilter, Sibling.toFilters_eq, every_link, every_group,
      List.forall_mem_map] at hf hs ⊢
    exact ⟨hb, ⟨hs.1, ih hf.2 hs.2⟩, ha⟩

theorem every_mergeSiblings {c : Connective} {fs : List Filter} (h : ∀ f ∈ fs, f.Every p q) :
    ∀ f ∈ mergeSiblings c fs, f.Every p q := by
  obtain ⟨ss, hss, hm⟩ := mergeSiblings_induction (c := c)
    (motive := fun fs ss => (∀ f ∈ fs, f.Every p q) → ∀ s ∈ ss, s.toFilter.Every p q)
    (by simp) (fun f fs ss hu ih h => by
      simp only [List.forall_mem_append, List.forall_mem_singleton] at h
      exact every_insert hu h.2 (ih h.1)) fs
  rw [hss, List.forall_mem_map]
  exact hm h

theorem every_along {hops : List Relationship} {f : Filter} (hq : ∀ r ∈ hops, q r .hasSome)
    (h : f.Every p q) : (along hops f).Every p q := by
  induction hops with
  | nil => exact h
  | cons r hops ih =>
    rw [List.forall_mem_cons] at hq
    exact .link hq.1 (ih hq.2)

theorem every_normalize (hq : ∀ k l r, Schema.route k l = some r → q r .hasSome) {f : Filter}
    (h : f.Every p q) (k : Kind) : (f.normalize k).Every p q := by
  have hops (k l) : ∀ r ∈ Schema.path k l, q r .hasSome := fun r hr => by
    obtain ⟨k', hk⟩ := Schema.route_of_mem_path hr
    exact hq k' l r hk
  induction h generalizing k with
  | empty => exact .empty
  | test h => exact every_along (hops _ _) (.test h)
  | link h _ ih => exact every_along (hops _ _) (.link h (ih _))
  | group _ ih =>
    rw [normalize, normalizeAll_eq]
    exact .group (every_mergeSiblings (List.forall_mem_map.2 fun f hf => ih f hf k))

theorem every_compact {f : Filter} (h : f.Every p q) : f.compact.Every p q := by
  induction h with
  | empty => exact .empty
  | test h => exact .test h
  | link h _ ih => exact .link h ih
  | @group c fs _ ih =>
    have : ∀ f ∈ compactAll fs, f.Every p q := by
      rw [compactAll_eq]
      intro f hf
      obtain ⟨g, hg, rfl⟩ := List.mem_map.1 (List.mem_filter.1 hf).1
      apply ih g hg
    rw [compact]
    split
    · exact .empty
    · rename_i hc
      exact .group (hc ▸ this)

def OverSchema (f : Filter) : Prop :=
  f.Every (fun g _ => Schema.Declares g) fun r _ => Schema.Declares r.field

def Sound (f : Filter) : Prop :=
  f.Every (fun g _ => Schema.Declares g) fun r t =>
    Schema.Declares r.field ∧ (t.isTransitive = true → r.isHierarchical = true)

theorem isHierarchical_of_accepts {r : Relationship} {t : LinkTest}
    (h : (Comparison.link t).accepts r = true) (ht : t.isTransitive = true) :
    r.isHierarchical = true := by
  rw [Comparison.accepts, if_pos ht] at h
  exact h

theorem WellFormed.sound {f : Filter} (h : f.WellFormed) (hf : f.OverSchema) : f.Sound := by
  induction h with
  | empty => exact .empty
  | test => exact .test (every_test.1 hf)
  | @link r t condition ha _ ih =>
    obtain ⟨hr, hc⟩ := every_link.1 hf
    exact .link ⟨hr, isHierarchical_of_accepts ha⟩ (ih hc)
  | group _ ih => exact .group fun f hfs => ih f hfs (every_group.1 hf f hfs)

theorem wellFormed_iff {f : Filter} : f.WellFormed ↔
    f.Every (fun f t => t.comparison.accepts f = true)
      fun r t => (Comparison.link t).accepts r = true := by
  constructor
  · intro h
    induction h with
    | empty => exact .empty
    | test h => exact .test h
    | link h _ ih => exact .link h ih
    | group _ ih => exact .group ih
  · intro h
    induction h with
    | empty => exact .empty
    | test h => exact .test h
    | link h _ ih => exact .link h ih
    | group _ ih => exact .group ih

theorem wellFormed_group {c : Connective} {fs : List Filter} :
    (group c fs).WellFormed ↔ ∀ f ∈ fs, f.WellFormed :=
  ⟨fun h => by cases h with | group h => exact h, .group⟩

theorem wellFormed_link {r : Relationship} {t : LinkTest} {condition : Filter} :
    (link r t condition).WellFormed ↔
      (Comparison.link t).accepts r = true ∧ condition.WellFormed :=
  ⟨fun h => by cases h with | link h hc => exact ⟨h, hc⟩, fun h => .link h.1 h.2⟩

theorem WellFormed.combine {f g : Filter} (c : Connective) (hf : f.WellFormed)
    (hg : g.WellFormed) : (Filter.combine c f g).WellFormed :=
  wellFormed_iff.2 (Every.combine c (wellFormed_iff.1 hf) (wellFormed_iff.1 hg))

theorem OverSchema.combine {f g : Filter} (c : Connective) (hf : f.OverSchema)
    (hg : g.OverSchema) : (Filter.combine c f g).OverSchema :=
  Every.combine c hf hg

theorem WellFormed.normalize {f : Filter} (h : f.WellFormed) (k : Kind) :
    (f.normalize k).WellFormed := by
  refine wellFormed_iff.2 (every_normalize (fun _ _ r _ => ?_) (wellFormed_iff.1 h) k)
  simp [Comparison.accepts, LinkTest.isTransitive, Field.isLink]

theorem WellFormed.compact {f : Filter} (h : f.WellFormed) : f.compact.WellFormed :=
  wellFormed_iff.2 (every_compact (wellFormed_iff.1 h))

theorem WellFormed.resolve {f : Filter} (h : f.WellFormed) (k : Kind) : (f.resolve k).WellFormed :=
  (h.normalize k).compact

theorem Sound.overSchema {f : Filter} (h : f.Sound) : f.OverSchema :=
  h.mono (fun _ _ => id) fun _ _ => And.left

theorem Sound.normalize {f : Filter} (h : f.Sound) (k : Kind) : (f.normalize k).Sound :=
  every_normalize (fun _ _ _ hr => ⟨Schema.declares_of_route hr, nofun⟩) h k

theorem OverSchema.normalize {f : Filter} (h : f.OverSchema) (k : Kind) :
    (f.normalize k).OverSchema :=
  every_normalize (fun _ _ _ => Schema.declares_of_route) h k

theorem Sound.resolve {f : Filter} (h : f.Sound) (k : Kind) : (f.resolve k).Sound :=
  every_compact (h.normalize k)

def Positive (f : Filter) : Prop :=
  f.Every (fun g _ => Schema.Declares g) fun r t =>
    Schema.Declares r.field ∧ t.isPositive = true

theorem Positive.overSchema {f : Filter} (h : f.Positive) : f.OverSchema :=
  h.mono (fun _ _ => id) fun _ _ => And.left

theorem positive_link {r : Relationship} {t : LinkTest} {condition : Filter} :
    (link r t condition).Positive ↔
      (Schema.Declares r.field ∧ t.isPositive = true) ∧ condition.Positive :=
  every_link

theorem positive_group {c : Connective} {fs : List Filter} :
    (group c fs).Positive ↔ ∀ f ∈ fs, f.Positive :=
  every_group

theorem Positive.normalize {f : Filter} (h : f.Positive) (k : Kind) : (f.normalize k).Positive :=
  every_normalize (fun _ _ _ hr => ⟨Schema.declares_of_route hr, rfl⟩) h k

theorem Positive.resolve {f : Filter} (h : f.Positive) (k : Kind) : (f.resolve k).Positive :=
  every_compact (h.normalize k)

end Filter

end Lexiquery
