import Lexiquery.Proofs.Filter.NormalForm

/-! Normalizing by slots. Children of a group that ask the same of the same rows share the slot of
the first of them; when all children are placed, the conditions in a slot are put into one group,
and that group is normalized anew. Merging siblings one by one leads to the same filter. -/

namespace Lexiquery

namespace Filter

def condition? (r : Relationship) (t : LinkTest) : Filter → Option Filter
  | link s u condition => if r == s && u == t then some condition else none
  | _ => none

def conditions (r : Relationship) (t : LinkTest) (fs : List Filter) : List Filter :=
  fs.filterMap (condition? r t)

def others (r : Relationship) (t : LinkTest) (fs : List Filter) : List Filter :=
  fs.filter fun f => (f.condition? r t).isNone

/-- A slot as one link. Several conditions may have links of their own in common, so the group of
them is normalized. -/
def slot (c : Connective) (r : Relationship) (t : LinkTest) (first : Filter) (rest : List Filter) :
    Filter :=
  if rest = [] then link r t first
  else link r t ((group (t.within c) (first :: rest)).normalize r.far)

/-- Filters under a connective, each slot in the place of the first filter in it. -/
def slots (c : Connective) : List Filter → List Filter
  | [] => []
  | link r t condition :: fs =>
    if t.mergesUnder c then slot c r t condition (conditions r t fs) :: slots c (others r t fs)
    else link r t condition :: slots c fs
  | f :: fs => f :: slots c fs
termination_by fs => fs.length
decreasing_by
  · exact Nat.lt_succ_of_le (List.length_filter_le _ fs)
  · exact Nat.lt_succ_self _
  · exact Nat.lt_succ_self _

theorem condition?_eq_some {r : Relationship} {t : LinkTest} {f condition : Filter} :
    f.condition? r t = some condition ↔ ∃ s, f = link s t condition ∧ (r == s) = true := by
  cases f with
  | link s u first =>
    simp only [condition?, Option.ite_none_right_eq_some, Bool.and_eq_true, beq_iff_eq,
      Option.some.injEq, link.injEq]
    constructor
    · rintro ⟨⟨hr, rfl⟩, rfl⟩
      exact ⟨s, ⟨rfl, rfl, rfl⟩, hr⟩
    · rintro ⟨_, ⟨rfl, rfl, rfl⟩, hr⟩
      exact ⟨⟨hr, rfl⟩, rfl⟩
  | _ => simp [condition?]

end Filter

namespace Sibling

variable {r : Relationship} {t : LinkTest} {c : Connective} {first f condition : Filter}
  {rest : List Filter} {ss : List Sibling}

def slot (c : Connective) (r : Relationship) (t : LinkTest) (first : Filter) (rest : List Filter) :
    Sibling :=
  if rest = [] then single (.link r t first)
  else merged r t (t.within c) (Filter.siblings (t.within c) (first :: rest))

theorem insert_slot (ht : t.mergesUnder c = true) (h : f.condition? r t = some condition) :
    insert f c (slot c r t first rest :: ss) = slot c r t first (rest ++ [condition]) :: ss := by
  obtain ⟨s, rfl, hr⟩ := Filter.condition?_eq_some.1 h
  rw [slot, slot, if_neg (List.concat_ne_nil _ _), ← List.cons_append, Filter.siblings_concat]
  have none_before : ∀ s' ∈ ([] : List Sibling), ¬ s'.Asks s t := List.forall_mem_nil _
  split
  · rename_i hrest
    rw [hrest, Filter.siblings_singleton]
    exact insert_join ht hr none_before
  · exact insert_add ht hr none_before

theorem insert_slot_cons (h : f.condition? r t = none) :
    insert f c (slot c r t first rest :: ss) = slot c r t first rest :: insert f c ss := by
  suffices apart : ∀ s ∈ [slot c r t first rest], ¬ Filter.Merges c s.toFilter f from
    insert_append apart
  refine List.forall_mem_singleton.2 fun hm => ?_
  obtain ⟨s, condition, rfl, hr⟩ : ∃ s condition, f = .link s t condition ∧ (r == s) = true := by
    rw [slot] at hm
    split at hm <;>
    · obtain ⟨s, condition, hf, hr, -⟩ := Filter.merges_link_left.1 hm
      exact ⟨s, condition, hf, hr⟩
  rw [Filter.condition?_eq_some.2 ⟨s, rfl, hr⟩] at h
  cases h

theorem foldl_insert_slot (ht : t.mergesUnder c = true) (fs : List Filter) :
    fs.foldl (fun ss f => insert f c ss) (slot c r t first rest :: ss) =
      slot c r t first (rest ++ Filter.conditions r t fs) ::
        (Filter.others r t fs).foldl (fun ss f => insert f c ss) ss := by
  induction fs generalizing rest ss with
  | nil => simp [Filter.conditions, Filter.others]
  | cons f fs ih =>
    rw [List.foldl_cons]
    cases h : f.condition? r t with
    | none =>
      rw [insert_slot_cons h, ih]
      simp [Filter.conditions, Filter.others, h]
    | some condition =>
      rw [insert_slot ht h, ih]
      simp [Filter.conditions, Filter.others, h]

theorem foldl_insert_single (h : ∀ g, ¬ Filter.Merges c f g) (fs : List Filter) :
    fs.foldl (fun ss f => insert f c ss) (single f :: ss) =
      single f :: fs.foldl (fun ss f => insert f c ss) ss := by
  induction fs generalizing ss with
  | nil => rfl
  | cons g fs ih =>
    have past : insert g c ([single f] ++ ss) = [single f] ++ insert g c ss :=
      insert_append (List.forall_mem_singleton.2 (h g))
    rw [List.singleton_append] at past
    rw [List.foldl_cons, List.foldl_cons, past]
    exact ih

end Sibling

namespace Filter

variable {c : Connective}

theorem normalize_test (f : Field) (t : Test) (k : Kind) :
    (test f t).normalize k = match Schema.route k f.kind with
      | none => test f t
      | some via => link via .hasSome ((test f t).normalize via.far) := by
  rw [normalize, Schema.path_eq]
  cases Schema.route k f.kind <;> rfl

theorem normalize_link (r : Relationship) (t : LinkTest) (condition : Filter) (k : Kind) :
    (link r t condition).normalize k = match Schema.route k r.kind with
      | none => link r t (condition.normalize r.far)
      | some via => link via .hasSome ((link r t condition).normalize via.far) := by
  rw [normalize, Schema.path_eq]
  cases Schema.route k r.kind <;> rfl

theorem siblings_link {r : Relationship} {t : LinkTest} (ht : t.mergesUnder c = true)
    (condition : Filter) (fs : List Filter) : siblings c (link r t condition :: fs) =
      Sibling.slot c r t condition (conditions r t fs) :: siblings c (others r t fs) := by
  rw [siblings, List.foldl_cons, Sibling.insert_nil]
  exact @Sibling.foldl_insert_slot r t c condition [] [] ht fs

theorem siblings_cons {f : Filter} (h : ∀ g, ¬ Merges c f g) (fs : List Filter) :
    siblings c (f :: fs) = .single f :: siblings c fs := by
  rw [siblings, List.foldl_cons, Sibling.insert_nil]
  exact Sibling.foldl_insert_single h fs

theorem normalize_group_of_normal {k : Kind} {fs : List Filter} (h : ∀ f ∈ fs, f.Normal k) :
    (group c fs).normalize k = group c (mergeSiblings c fs) := by
  rw [normalize, normalizeAll_eq, List.map_congr_left fun f hf => (h f hf).normalize_eq,
    List.map_id']

theorem toFilter_slot {r : Relationship} {t : LinkTest} {first : Filter} {rest : List Filter}
    (h : ∀ f ∈ first :: rest, f.Normal r.far) :
    (Sibling.slot c r t first rest).toFilter = slot c r t first rest := by
  rw [Sibling.slot, slot]
  split
  · rfl
  · rw [normalize_group_of_normal h, mergeSiblings_eq, ← Sibling.toFilters_eq]
    rfl

theorem normal_conditions {r : Relationship} {t : LinkTest} {k : Kind} {fs : List Filter}
    (h : ∀ f ∈ fs, f.Normal k) : ∀ f ∈ conditions r t fs, f.Normal r.far := by
  intro condition hc
  obtain ⟨f, hf, he⟩ := List.mem_filterMap.1 hc
  obtain ⟨s, rfl, hr⟩ := condition?_eq_some.1 he
  rw [Relationship.far_eq_of_beq hr]
  exact (normal_link_iff.1 (h _ hf)).2

theorem mergeSiblings_eq_slots {k : Kind} {fs : List Filter} (h : ∀ f ∈ fs, f.Normal k) :
    mergeSiblings c fs = slots c fs := by
  rw [mergeSiblings_eq]
  induction fs using slots.induct c with
  | case1 => rw [slots]; rfl
  | case2 r t condition fs ht ih =>
    rw [List.forall_mem_cons, normal_link_iff] at h
    rw [siblings_link ht, List.map_cons, slots, if_pos ht,
      ih fun f hf => h.2 f ((List.mem_filter.1 hf).1),
      toFilter_slot (List.forall_mem_cons.2 ⟨h.1.2, normal_conditions h.2⟩)]
  | case3 r t condition fs ht ih =>
    have apart (g : Filter) : ¬ Merges c (link r t condition) g := by
      rw [merges_link_left]
      exact fun ⟨_, _, _, _, hm⟩ => ht hm
    rw [siblings_cons apart, List.map_cons, slots, if_neg ht, ih (List.forall_mem_cons.1 h).2]
    rfl
  | case4 f fs hf ih =>
    have apart (g : Filter) : ¬ Merges c f g := by
      rintro ⟨r, _, t, condition, _, rfl, -⟩
      exact hf r t condition rfl
    rw [siblings_cons apart, List.map_cons, slots, ih (List.forall_mem_cons.1 h).2]
    · rfl
    · exact hf

/-- The children of a group are normalized, placed in slots, and the groups that slots make are
normalized anew. -/
theorem normalize_group (c : Connective) (fs : List Filter) (k : Kind) :
    (group c fs).normalize k = group c (slots c (fs.map (·.normalize k))) := by
  rw [normalize, normalizeAll_eq, mergeSiblings_eq_slots (k := k)]
  exact List.forall_mem_map.2 fun f _ => normal_normalize f k

variable {r : Relationship} {t : LinkTest} {f g condition condition' : Filter}
  {fs : List Filter} {k : Kind}

theorem merges_of_condition? (ht : t.mergesUnder c = true) (hf : f.condition? r t = some condition)
    (hg : g.condition? r t = some condition') : Merges c f g := by
  obtain ⟨s, rfl, hs⟩ := condition?_eq_some.1 hf
  obtain ⟨s', rfl, hs'⟩ := condition?_eq_some.1 hg
  have same := (Relationship.beq_iff.1 hs).symm.trans (Relationship.beq_iff.1 hs')
  exact merges_link_left.2 ⟨s', condition', rfl, Relationship.beq_iff.2 same, ht⟩

theorem length_conditions_le (ht : t.mergesUnder c = true)
    (h : fs.Pairwise fun f g => ¬ Merges c f g) : (conditions r t fs).length ≤ 1 := by
  induction fs with
  | nil => exact Nat.zero_le 1
  | cons f fs ih =>
    obtain ⟨apart, h⟩ := List.pairwise_cons.1 h
    cases hc : f.condition? r t with
    | none => simpa [conditions, hc] using ih h
    | some condition =>
      have none_left : ∀ g ∈ fs, g.condition? r t = none := fun g hg =>
        Option.eq_none_iff_forall_ne_some.2 fun _ hc' =>
          apart g hg (merges_of_condition? ht hc hc')
      simp [conditions, hc, List.filterMap_eq_nil_iff.2 none_left]

inductive Groups (p : List Filter → Prop) : Filter → Prop
  | empty : Groups p empty
  | test {f : Field} {t : Test} : Groups p (test f t)
  | link {r : Relationship} {t : LinkTest} {condition : Filter} :
    Groups p condition → Groups p (link r t condition)
  | group {c : Connective} {fs : List Filter} :
    p fs → (∀ f ∈ fs, Groups p f) → Groups p (group c fs)

theorem Normal.groups (h : f.Normal k) :
    f.Groups fun fs => ∀ r, (conditions r .hasSome fs).length ≤ 1 := by
  induction h with
  | empty => exact .empty
  | test => exact .test
  | link _ ih => exact .link ih
  | group _ apart ih => exact .group (fun _ => length_conditions_le rfl apart) ih

theorem exists_slot_eq_link (c : Connective) (r : Relationship) (t : LinkTest) (first : Filter)
    (rest : List Filter) : ∃ condition, slot c r t first rest = link r t condition := by
  rw [slot]
  split
  · exact ⟨_, rfl⟩
  · exact ⟨_, rfl⟩

theorem exists_mem_slots (ht : t.mergesUnder c = true) (h : link r t condition ∈ fs) :
    ∃ s condition', link s t condition' ∈ slots c fs ∧ (r == s) = true := by
  have later {f : Filter} {fs : List Filter} :
      (∃ s condition', link s t condition' ∈ fs ∧ (r == s) = true) →
        ∃ s condition', link s t condition' ∈ f :: fs ∧ (r == s) = true := by
    rintro ⟨s, condition', hm, hr⟩
    exact ⟨s, condition', List.mem_cons_of_mem _ hm, hr⟩
  induction fs using slots.induct c with
  | case1 => cases h
  | case2 s u first fs hu ih =>
    obtain ⟨condition', head⟩ := exists_slot_eq_link c s u first (conditions s u fs)
    rw [slots, if_pos hu, head]
    obtain h | h := List.mem_cons.1 h
    · cases h
      exact ⟨r, condition', List.mem_cons_self, r.beq_refl⟩
    · cases ha : (link r t condition).condition? s u with
      | some first' =>
        obtain ⟨_, he, hr⟩ := condition?_eq_some.1 ha
        cases he
        refine ⟨s, condition', List.mem_cons_self, ?_⟩
        exact Relationship.beq_iff.2 (Relationship.beq_iff.1 hr).symm
      | none => exact later (ih (List.mem_filter.2 ⟨h, by simp [ha]⟩))
  | case3 s u first fs hu ih =>
    rw [slots, if_neg hu]
    obtain h | h := List.mem_cons.1 h
    · cases h
      exact absurd ht hu
    · exact later (ih h)
  | case4 f fs hf ih =>
    rw [slots]
    · obtain h | h := List.mem_cons.1 h
      · exact absurd h.symm (hf r t condition)
      · exact later (ih h)
    · exact hf

/-- However many children of a group ask the same of the same rows, if they merge then one is left
of them. -/
theorem resolve_group_of_mem (ht : t.mergesUnder c = true) (h : link r t condition ∈ fs)
    (hk : r.kind = k) : ∃ before s condition' after,
      (group c fs).resolve k = group c (before ++ link s t condition' :: after) ∧
        (r == s) = true ∧ ∀ g ∈ before ++ after, g.condition? r t = none := by
  have here : link r t (condition.normalize r.far) ∈ fs.map (·.normalize k) :=
    List.mem_map.2 ⟨_, h, by rw [normalize, ← hk, Schema.path_self]; rfl⟩
  obtain ⟨s, condition', hm, hr⟩ := exists_mem_slots ht here
  have left : link s t condition'.compact ∈ compactAll (slots c (fs.map (·.normalize k))) :=
    mem_compactAll.2 ⟨⟨_, hm, rfl⟩, by simp⟩
  have resolved : (group c fs).resolve k =
      group c (compactAll (slots c (fs.map (·.normalize k)))) := by
    rw [resolve, normalize_group, compact_group_of_ne (List.ne_nil_of_mem left)]
  obtain ⟨before, after, split⟩ := List.append_of_mem left
  refine ⟨before, s, condition'.compact, after, by rw [resolved, split], hr, ?_⟩
  -- in a normal form no other link asks the same
  have apart := (normal_group_iff.1 (resolved ▸ normal_resolve (group c fs) k)).2
  rw [split, List.pairwise_append, List.pairwise_cons] at apart
  have differs {g : Filter} (hg : ¬ Merges c g (link s t condition'.compact)) :
      g.condition? r t = none :=
    Option.eq_none_iff_forall_ne_some.2 fun _ hc =>
      hg (merges_of_condition? ht hc (condition?_eq_some.2 ⟨s, rfl, hr⟩))
  refine List.forall_mem_append.2 ⟨fun g hg => ?_, fun g hg => ?_⟩
  · exact differs (apart.2.2 g hg _ List.mem_cons_self)
  · exact differs fun hm => apart.2.1.1 g hg hm.symm

end Filter

end Lexiquery
