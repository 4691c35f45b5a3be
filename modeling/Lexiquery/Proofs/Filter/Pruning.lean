import Lexiquery.Proofs.Filter.NormalForm

/-! Compacting takes away what says nothing and leaves every clause where it stands. Where that is,
the groups around the clause tell, by their connectives and by the place of each among those of its
siblings that say something; and only one filter that has nothing left to drop has these clauses at
these places. -/

namespace Lexiquery

namespace Filter

inductive Head
  | test (field : Field) (test : Test)
  | link (via : Relationship) (test : LinkTest)

inductive Descent
  | child (connective : Connective) (place : Nat)
  | condition
  deriving DecidableEq

structure Occurrence where
  path : List Descent
  head : Head

def Occurrence.below (d : Descent) (o : Occurrence) : Occurrence :=
  { o with path := d :: o.path }

theorem Occurrence.eq_of_map_below {d : Descent} {os os' : List Occurrence}
    (h : os.map (below d) = os'.map (below d)) : os = os' := by
  refine (List.map_inj_right ?_).1 h
  rintro ⟨path, head⟩ ⟨path', head'⟩ he
  simpa [below] using he

mutual

/-- The clauses of a filter from left to right, each with the way to it. Children without any clause
have no place in a group. -/
def listing : Filter → List Occurrence
  | empty => []
  | test f t => [⟨[], .test f t⟩]
  | link r t condition => ⟨[], .link r t⟩ :: condition.listing.map (.below .condition)
  | group c fs => listingAll c 0 fs

def listingAll (c : Connective) (place : Nat) : List Filter → List Occurrence
  | [] => []
  | f :: fs =>
    if f.listing.isEmpty then listingAll c place fs
    else f.listing.map (.below (.child c place)) ++ listingAll c (place + 1) fs

end

variable {c d : Connective} {f g : Filter} {fs gs : List Filter} {i : Nat}

theorem listingAll_cons_of_eq_nil (h : f.listing = []) :
    listingAll c i (f :: fs) = listingAll c i fs := by
  simp [listingAll, h]

theorem listingAll_cons_of_ne_nil (h : f.listing ≠ []) : listingAll c i (f :: fs) =
    f.listing.map (.below (.child c i)) ++ listingAll c (i + 1) fs := by
  simp [listingAll, h]

theorem listingAll_compactAll (h : ∀ f ∈ fs, f.compact.listing = f.listing) :
    listingAll c i (compactAll fs) = listingAll c i fs := by
  induction fs generalizing i with
  | nil => rfl
  | cons f fs ih =>
    obtain ⟨hf, hfs⟩ := List.forall_mem_cons.1 h
    rw [compactAll]
    split
    · rename_i he
      have nothing : f.listing = [] := by rw [← hf, isEmpty_iff.1 he, listing]
      rw [listingAll_cons_of_eq_nil nothing, ih hfs]
    · simp only [listingAll, hf, ih hfs]

theorem listing_compact (f : Filter) : f.compact.listing = f.listing := by
  induction f using induction with
  | empty => rfl
  | test => rfl
  | link r t condition ih => rw [compact, listing, ih, listing]
  | group c fs ih =>
    rw [listing, ← listingAll_compactAll ih]
    by_cases h : compactAll fs = []
    · rw [compact, h, listing, listingAll]
    · rw [compact_group_of_ne h, listing]

theorem Compacted.listing_eq_nil_iff (h : f.Compacted) : f.listing = [] ↔ f = .empty := by
  induction h with
  | empty => simp [listing]
  | test => simp [listing]
  | link => simp [listing]
  | @group c fs hne hs _ ih =>
    obtain ⟨f, fs, rfl⟩ := List.exists_cons_of_ne_nil hne
    have something : f.listing ≠ [] := by simpa [ih f] using hs f
    simp [listing, listingAll_cons_of_ne_nil something, something]

theorem compact_eq_empty_iff : f.compact = empty ↔ f.listing = [] := by
  rw [← f.compacted_compact.listing_eq_nil_iff, listing_compact]

theorem nodeCountAll_compactAll_le (h : ∀ f ∈ fs, f.compact.nodeCount ≤ f.nodeCount) :
    nodeCountAll (compactAll fs) ≤ nodeCountAll fs := by
  induction fs with
  | nil => exact Nat.le_refl 0
  | cons f fs ih =>
    obtain ⟨hf, hfs⟩ := List.forall_mem_cons.1 h
    have rest := ih hfs
    rw [compactAll, nodeCountAll]
    split
    · omega
    · rw [nodeCountAll]
      omega

theorem nodeCount_compact_le (f : Filter) : f.compact.nodeCount ≤ f.nodeCount := by
  induction f using induction with
  | empty => exact Nat.le_refl 1
  | test => exact Nat.le_refl 1
  | link r t condition ih => exact Nat.add_le_add_left ih 1
  | group c fs ih =>
    by_cases h : compactAll fs = []
    · rw [compact, h]
      exact Nat.le_add_right 1 _
    · rw [compact_group_of_ne h]
      exact Nat.add_le_add_left (nodeCountAll_compactAll_le ih) 1

theorem mem_listingAll {o : Occurrence} (h : o ∈ listingAll c i fs) :
    ∃ j, i ≤ j ∧ o.path.head? = some (.child c j) := by
  induction fs generalizing i with
  | nil => cases h
  | cons f fs ih =>
    by_cases hf : f.listing = []
    · rw [listingAll_cons_of_eq_nil hf] at h
      exact ih h
    · rw [listingAll_cons_of_ne_nil hf, List.mem_append, List.mem_map] at h
      obtain ⟨o, -, rfl⟩ | h := h
      · exact ⟨i, Nat.le_refl i, rfl⟩
      · obtain ⟨j, hj, path⟩ := ih h
        exact ⟨j, Nat.le_of_succ_le hj, path⟩

theorem filter_listingAll_cons (h : f.listing ≠ []) :
    (listingAll c i (f :: fs)).filter (·.path.head? = some (.child c i)) =
      f.listing.map (.below (.child c i)) := by
  rw [listingAll_cons_of_ne_nil h, List.filter_append, List.filter_eq_self.2,
    List.filter_eq_nil_iff.2, List.append_nil]
  · intro o ho
    obtain ⟨j, hj, path⟩ := mem_listingAll ho
    simp only [path, Option.some.injEq, Descent.child.injEq, true_and, decide_eq_true_eq]
    omega
  · intro o ho
    obtain ⟨o, -, rfl⟩ := List.mem_map.1 ho
    simp [Occurrence.below]

theorem listingAll_cons_inj (hf : f.listing ≠ []) (hg : g.listing ≠ [])
    (h : listingAll c i (f :: fs) = listingAll c i (g :: gs)) :
    f.listing = g.listing ∧ listingAll c (i + 1) fs = listingAll c (i + 1) gs := by
  have first := congrArg (List.filter (·.path.head? = some (.child c i))) h
  rw [filter_listingAll_cons hf, filter_listingAll_cons hg] at first
  rw [listingAll_cons_of_ne_nil hf, listingAll_cons_of_ne_nil hg, first] at h
  exact ⟨Occurrence.eq_of_map_below first, List.append_cancel_left h⟩

theorem eq_of_listingAll_eq (ih : ∀ f ∈ fs, ∀ g, g.Compacted → f.listing = g.listing → f = g)
    (hf : ∀ f ∈ fs, f.listing ≠ []) (hg : ∀ g ∈ gs, g.Compacted ∧ g.listing ≠ [])
    (h : listingAll c i fs = listingAll c i gs) : fs = gs := by
  induction fs generalizing i gs with
  | nil =>
    cases gs with
    | nil => rfl
    | cons g gs => simp [listingAll, hg] at h
  | cons f fs ihs =>
    cases gs with
    | nil => simp [listingAll, hf] at h
    | cons g gs =>
      simp only [List.forall_mem_cons] at ih hf hg
      obtain ⟨first, rest⟩ := listingAll_cons_inj hf.1 hg.1.2 h
      rw [ih.1 g hg.1.1 first, ihs ih.2 hf.2 hg.2 rest]

theorem listingAll_ne_cons {h : Head} {os : List Occurrence} :
    listingAll c i fs ≠ ⟨[], h⟩ :: os := by
  intro he
  obtain ⟨j, -, path⟩ := mem_listingAll (he ▸ List.mem_cons_self)
  cases path

theorem Compacted.eq_of_listing_eq (hf : f.Compacted) (hg : g.Compacted)
    (h : f.listing = g.listing) : f = g := by
  induction hf generalizing g with
  | empty => exact (hg.listing_eq_nil_iff.1 h.symm).symm
  | test =>
    cases g with
    | test => simpa [listing] using h
    | group d gs => exact (listingAll_ne_cons h.symm).elim
    | _ => simp [listing] at h
  | link _ ih =>
    cases hg with
    | link hg =>
      simp only [listing, List.cons.injEq, Occurrence.mk.injEq, Head.link.injEq, true_and] at h
      obtain ⟨⟨rfl, rfl⟩, conditions⟩ := h
      rw [ih hg (Occurrence.eq_of_map_below conditions)]
    | group => exact (listingAll_ne_cons h.symm).elim
    | _ => simp [listing] at h
  | @group c fs hne hs hc ih =>
    have something : listingAll c 0 fs ≠ [] :=
      mt (Compacted.group hne hs hc).listing_eq_nil_iff.1 (by simp)
    cases hg with
    | empty => exact (something h).elim
    | test => exact (listingAll_ne_cons h).elim
    | link => exact (listingAll_ne_cons h).elim
    | @group d gs _ hs' hc' =>
      rw [listing, listing] at h
      obtain ⟨o, ho⟩ := List.exists_mem_of_ne_nil _ something
      obtain ⟨i, -, path⟩ := mem_listingAll ho
      obtain ⟨j, -, path'⟩ := mem_listingAll (h ▸ ho)
      obtain ⟨rfl, rfl⟩ : c = d ∧ i = j := by simpa [path] using path'
      have children : fs = gs := eq_of_listingAll_eq (fun f hf g => ih f hf)
        (fun f hf => mt (hc f hf).listing_eq_nil_iff.1 (hs f hf))
        (fun g hg => ⟨hc' g hg, mt (hc' g hg).listing_eq_nil_iff.1 (hs' g hg)⟩) h
      rw [children]

/-- Compacting leaves no empty child and no group without children, in conditions neither, and has
nothing to do the second time. It adds no node, and keeps every clause where it stands; so a filter
without clauses becomes the empty one, and no other filter that has nothing left to drop has the
same clauses at the same places. And what normalizing leaves as it is, it leaves so after
compacting. -/
theorem compact_prunes (f : Filter) :
    f.compact.Compacted ∧ f.compact.compact = f.compact ∧ f.compact.nodeCount ≤ f.nodeCount ∧
      f.compact.listing = f.listing ∧ (f.compact = empty ↔ f.listing = []) ∧
      (∀ g : Filter, g.Compacted → g.listing = f.listing → g = f.compact) ∧
      ∀ k, f.normalize k = f → f.compact.normalize k = f.compact := by
  refine ⟨f.compacted_compact, f.compact_compact, f.nodeCount_compact_le, f.listing_compact,
    compact_eq_empty_iff, fun g hg h => ?_, fun k h => ?_⟩
  · exact hg.eq_of_listing_eq f.compacted_compact (h.trans f.listing_compact.symm)
  · have normal : f.Normal k := h ▸ normal_normalize f k
    exact (normal_compact normal).normalize_eq

/-- Groups that vanish, next to the condition of a link and inside of it, and a group inside a group
that stays. -/
def hollow : Filter :=
  group .and [group .or [empty, group .and []],
    link Schema.Word.synonyms .hasNone (group .or [group .and [empty]]),
    group .or [group .and [test Schema.Word.id (.integer .equals 1), empty], group .and []]]

theorem hollow_compact_normalize :
    hollow.normalize .word = hollow ∧ hollow.compact.nodeCount = 6 ∧ hollow.nodeCount = 13 ∧
      hollow.listing = [⟨[.child .and 0], .link Schema.Word.synonyms .hasNone⟩,
        ⟨[.child .and 1, .child .or 0, .child .and 0],
          .test Schema.Word.id (.integer .equals 1)⟩] ∧
      hollow.compact.normalize .word = hollow.compact := by
  have same : hollow.normalize .word = hollow := rfl
  refine ⟨same, rfl, rfl, rfl, ?_⟩
  exact (compact_prunes hollow).2.2.2.2.2.2 .word same

end Filter

end Lexiquery
