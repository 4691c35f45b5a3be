import Lexiquery.Proofs.Filter.Guarded
import Lexiquery.Proofs.Filter.Merging

/-! One more alternative. Where it meets the others, all ask for some related row; so no record
comes in that neither the others nor the new one let in. None is lost either, unless one asks for
any row where another does not, or joins rows of its own. -/

namespace Lexiquery

namespace Filter

variable {store : Store} {k : Kind} {x : Row} {r : Relationship} {t : LinkTest}

/-- A filter asks for any row just if some others do. -/
def Alike (fs : List Filter) (f : Filter) : Prop := (∀ g ∈ fs, g.Vanishes) ↔ f.Vanishes

section

variable {f g : Filter} (ht : t.isPositive = true)
include ht

theorem holds_link_mono (h : ∀ y, f.Holds store r.far y → g.Holds store r.far y)
    (hl : (link r t f).Holds store k x) : (link r t g).Holds store k x := by
  simp only [Holds] at hl ⊢
  exact hl.mono fun _ => Relationship.Asks.mono ht fun y _ => h y

theorem says_or_of_links {new : Filter} {fs gs : List Filter}
    (h : ∀ y, new.Holds store r.far y ↔ f.Holds store r.far y ∨ g.Holds store r.far y)
    (hs : Says store .or ((fs ++ link r t f :: gs) ++ [link r t g]) k x) :
    Says store .or (fs ++ link r t new :: gs) k x := by
  rw [says_append, says_link, says_singleton not_vanishes_link] at hs
  rw [says_link]
  obtain (hs | hf) | hg := hs
  · exact .inl hs
  · exact .inr (holds_link_mono ht (fun y hy => (h y).2 (.inl hy)) hf)
  · exact .inr (holds_link_mono ht (fun y hy => (h y).2 (.inr hy)) hg)

end

namespace Adds

variable {p : List Filter → Filter → Prop} {f : Filter} {fs gs : List Filter}

theorem holds_or_of_imp (h : Adds p .or f fs gs) (hv : Alike fs f)
    (hs : Says store .or (fs ++ [f]) k x → Says store .or gs k x) :
    (group .or gs).Holds store k x ↔ (group .or fs).Holds store k x ∨ f.Holds store k x := by
  refine ⟨h.combines h.says_concat, fun hg => ?_⟩
  rw [Alike] at hv
  rw [holds_group, h.vanishes_iff, hv, and_self]
  by_cases hf : f.Vanishes
  · exact .inl hf
  · rw [holds_group, hv, or_iff_right hf] at hg
    exact .inr (hs (says_append.2 (hg.imp_right (says_singleton hf).2)))

/-- Where alternatives meet those that are like them, none of what they say is lost when one more is
added. -/
theorem says_or (h : Adds Alike .or f fs gs) (hs : Says store .or (fs ++ [f]) k x) :
    Says store .or gs k x := by
  induction h generalizing k x with
  | last => exact hs
  | join ht hv h ih =>
    refine says_or_of_links ht (fun y => ?_) hs
    rw [h.holds_or_of_imp hv ih, holds_group_singleton]
  | add ht hv h ih => exact says_or_of_links ht (fun y => h.holds_or_of_imp hv ih) hs

theorem holds_or (h : Adds Alike .or f fs gs) (hv : Alike fs f) :
    (group .or gs).Holds store k x ↔ (group .or fs).Holds store k x ∨ f.Holds store k x :=
  h.holds_or_of_imp hv h.says_or

end Adds

theorem guarded_compact_group {c : Connective} {fs : List Filter} :
    (group c fs).compact.Guarded ↔ (∀ f ∈ fs, f.compact.Guarded) ∧
      (c = .or → 2 ≤ (compactAll fs).length → ∀ f ∈ fs, f.compact.Unjoined) := by
  rw [← forall_mem_compactAll (p := Guarded) .empty, ← forall_mem_compactAll (p := Unjoined) .empty]
  by_cases h : compactAll fs = []
  · have he : (group c fs).compact = empty := by rw [compact, h]
    rw [he]
    exact iff_of_true .empty (by simp [h])
  · rw [compact_group_of_ne h, guarded_group_iff]

theorem guarded_compact_link {f : Filter} :
    (link r t f).compact.Guarded ↔ f.compact.Guarded := by
  rw [compact, guarded_link_iff]

theorem unjoined_compact_link {f : Filter} :
    (link r t f).compact.Unjoined ↔ t.isPositive = false := by
  rw [compact, unjoined_link_iff]

theorem compactAll_append {fs gs : List Filter} :
    compactAll (fs ++ gs) = compactAll fs ++ compactAll gs := by
  simp [compactAll_eq]

theorem compactAll_link {f : Filter} {fs : List Filter} :
    compactAll (link r t f :: fs) = link r t f.compact :: compactAll fs := by
  simp [compactAll, compact, isEmpty]

section

variable {p : List Filter → Filter → Prop} {c : Connective} {f g : Filter} {fs gs : List Filter}

theorem guarded_compact_condition (h : (group c (fs ++ link r t f :: gs)).compact.Guarded) :
    f.compact.Guarded :=
  guarded_compact_link.1 ((guarded_compact_group.1 h).1 (link r t f) (by simp))

theorem guarded_compact_link_congr (hf : f.compact.Guarded)
    (hg : (group c (fs ++ link r t g :: gs)).compact.Guarded) :
    (group c (fs ++ link r t f :: gs)).compact.Guarded := by
  simp only [guarded_compact_group, guarded_compact_link, unjoined_compact_link,
    List.forall_mem_append, List.forall_mem_cons, compactAll_append, compactAll_link,
    List.length_append, List.length_cons] at hg ⊢
  exact ⟨⟨hg.1.1, hf, hg.1.2.2⟩, hg.2⟩

theorem Adds.guarded (h : Adds p c f fs gs) (hg : (group c gs).compact.Guarded) :
    (group c fs).compact.Guarded ∧ f.compact.Guarded := by
  induction h with
  | last =>
    simp only [guarded_compact_group, List.forall_mem_append, List.forall_mem_singleton,
      compactAll_append, List.length_append] at hg ⊢
    exact ⟨⟨hg.1.1, fun hc hl => (hg.2 hc (Nat.le_add_right_of_le hl)).1⟩, hg.1.2⟩
  | @join r t f first fs before after _ _ _ ih =>
    obtain ⟨hfirst, hf⟩ := ih (guarded_compact_condition hg)
    have hfirst := (guarded_compact_group.1 hfirst).1 first (by simp)
    exact ⟨guarded_compact_link_congr hfirst hg, guarded_compact_link.2 hf⟩
  | add _ _ _ ih =>
    obtain ⟨hfs, hf⟩ := ih (guarded_compact_condition hg)
    exact ⟨guarded_compact_link_congr hfs hg, guarded_compact_link.2 hf⟩

end

theorem joins_compact_group {c : Connective} {fs : List Filter} :
    (group c fs).compact.Joins store x ↔ ∀ f ∈ fs, f.compact.Joins store x := by
  have he : empty.Joins store x := ⟨true, by rw [Yields]⟩
  rw [← forall_mem_compactAll (p := fun f => f.Joins store x) he]
  by_cases h : compactAll fs = []
  · simp [compact, h, he]
  · rw [compact_group_of_ne h, joins_group]

theorem yields_compact_or {fs : List Filter} : (group .or fs).compact.Yields store x true ↔
    (∀ f ∈ fs, f.compact.Joins store x) ∧
      ((∀ f ∈ fs, f.Vanishes) ∨ ∃ f ∈ fs, ¬ f.Vanishes ∧ f.compact.Yields store x true) := by
  rw [← joins_compact_group (c := .or), ← vanishes_group (c := .or)]
  by_cases h : (group .or fs).Vanishes
  · have hy : empty.Yields store x true := by rw [Yields]
    exact iff_of_true (h.symm ▸ hy) ⟨h.symm ▸ hy.joins, .inl h⟩
  · have hne : compactAll fs ≠ [] := fun hc => h (by rw [Vanishes, compact, hc])
    rw [or_iff_right h, compact_group_of_ne hne, yields_or hne, joins_group]
    simp only [mem_compactAll, Vanishes]
    refine and_congr_right fun _ => ⟨?_, ?_⟩
    · rintro ⟨_, ⟨⟨f, hf, rfl⟩, hv⟩, hy⟩
      exact ⟨f, hf, hv, hy⟩
    · rintro ⟨f, hf, hv, hy⟩
      exact ⟨_, ⟨⟨f, hf, rfl⟩, hv⟩, hy⟩

theorem yields_compact_and {fs : List Filter} : (group .and fs).compact.Yields store x true ↔
    ∀ f ∈ fs, f.compact.Yields store x true := by
  have he : empty.Yields store x true := by rw [Yields]
  rw [← forall_mem_compactAll (p := fun f => f.Yields store x true) he]
  by_cases h : compactAll fs = []
  · simp [compact, h, he]
  · rw [compact_group_of_ne h, yields_and]

theorem yields_compact_singleton {c : Connective} {f : Filter} :
    (group c [f]).compact.Yields store x true ↔ f.compact.Yields store x true := by
  cases c with
  | and => rw [yields_compact_and, List.forall_mem_singleton]
  | or =>
    rw [yields_compact_or, List.forall_mem_singleton, List.forall_mem_singleton]
    by_cases hv : f.Vanishes
    · have hy : f.compact.Yields store x true := by rw [show f.compact = empty from hv, Yields]
      exact iff_of_true ⟨hy.joins, .inl hv⟩ hy
    · simpa [hv] using Yields.joins

/-- A filter yields truth of no records but those of which two filters do; and where it finds the
rows it joins, so does the first, or the second yields truth. -/
structure Splits (store : Store) (new old f : Filter) (x : Row) : Prop where
  yields : new.Yields store x true → old.Yields store x true ∨ f.Yields store x true
  joins : new.Joins store x → old.Joins store x ∨ f.Yields store x true

section

variable {new old f : Filter}

theorem Splits.of_singleton (h : Splits store new (group .or [old]).compact f x) :
    Splits store new old.compact f x where
  yields hy := (h.yields hy).imp_left yields_compact_singleton.1
  joins hj := (h.joins hj).imp_left fun hj => by simpa [joins_compact_group] using hj

theorem splits_link (ht : t.isPositive = true) (h : ∀ y, Splits store new old f y) :
    Splits store (link r t new) (link r t old) (link r t f) x := by
  have yields : (link r t new).Yields store x true →
      (link r t old).Yields store x true ∨ (link r t f).Yields store x true := by
    simp only [yields_link]
    exact fun hy => (Relationship.asks_or ht).1 (hy.mono ht fun y _ => (h y).yields)
  refine ⟨yields, ?_⟩
  rintro ⟨b, hb⟩
  cases t with
  | hasSome =>
    obtain ⟨y, hy, hb⟩ := hb
    exact ((h y).joins hb.joins).imp (fun ⟨b, hb⟩ => ⟨b, y, hy, hb⟩) fun hf => ⟨y, hy, hf⟩
  | reachesSome =>
    -- A closure is joined only where it yields truth.
    obtain ⟨rfl, ha⟩ := hb
    exact (yields ⟨rfl, ha⟩).imp_left Yields.joins
  | hasNone => cases ht
  | reachesNone => cases ht

variable {fs gs : List Filter}

theorem splits_group (h : Splits store (link r t new).compact (link r t old).compact f x) :
    Splits store (group .or (fs ++ link r t new :: gs)).compact
      (group .or (fs ++ link r t old :: gs)).compact f x where
  joins hj := by
    simp only [joins_compact_group, List.forall_mem_append, List.forall_mem_cons] at hj ⊢
    exact (h.joins hj.2.1).imp_left fun hl => ⟨hj.1, hl, hj.2.2⟩
  yields hy := by
    simp only [yields_compact_or, List.mem_append, List.mem_cons, or_imp, forall_and, forall_eq,
      or_and_right, exists_or, exists_eq_left, not_vanishes_link, not_false_eq_true, true_and,
      false_and, and_false, false_or] at hy ⊢
    obtain ⟨⟨hb, hl, ha⟩, hy⟩ := hy
    obtain hl | hf := h.joins hl
    · obtain hy | hy | hy := hy
      · exact .inl ⟨⟨hb, hl, ha⟩, .inl hy⟩
      · exact (h.yields hy).imp_left fun hy => ⟨⟨hb, hl, ha⟩, .inr (.inl hy)⟩
      · exact .inl ⟨⟨hb, hl, ha⟩, .inr (.inr hy)⟩
    · exact .inr hf

theorem splits_append : Splits store (group .or (fs ++ [f])).compact (group .or fs).compact
    f.compact x where
  joins hj := by
    simp only [joins_compact_group, List.forall_mem_append] at hj ⊢
    exact .inl hj.1
  yields hy := by
    simp only [yields_compact_or, List.mem_append, List.mem_singleton, or_imp, forall_and,
      forall_eq, or_and_right, exists_or, exists_eq_left] at hy ⊢
    obtain ⟨⟨hj, -⟩, ⟨hv, -⟩ | hy | hy⟩ := hy
    · exact .inl ⟨hj, .inl hv⟩
    · exact .inl ⟨hj, .inr hy⟩
    · exact .inr hy.2

theorem Adds.splits {p : List Filter → Filter → Prop} (h : Adds p .or f fs gs) :
    Splits store (group .or gs).compact (group .or fs).compact f.compact x := by
  induction h generalizing x with
  | last => exact splits_append
  | join ht _ _ ih => exact splits_group (splits_link ht fun y => ih.of_singleton)
  | add ht _ _ ih => exact splits_group (splits_link ht fun y => ih)

end

end Filter

end Lexiquery
