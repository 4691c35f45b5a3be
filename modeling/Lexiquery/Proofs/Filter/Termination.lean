import Lexiquery.Proofs.Filter.Construction
import Lexiquery.Proofs.Filter.Slots

/-! How far normalizing goes. It calls itself on filters that it has just put together, on a clause
once more for each hop towards its kind and on the group of the conditions that share a slot. Yet
the calls that are open at a time are no more than the nodes and the hops of the filter, and merging
never leaves more nodes than there were. -/

namespace Lexiquery

theorem Option.mapM_eq_some_map {α β : Type} {g : α → Option β} {h : α → β} {as : List α}
    (hg : ∀ a ∈ as, g a = some (h a)) : as.mapM g = some (as.map h) := by
  induction as with
  | nil => rfl
  | cons a as ih =>
    obtain ⟨ha, has⟩ := List.forall_mem_cons.1 hg
    simp [ha, ih has]

namespace Filter

variable {k l : Kind} {c : Connective} {r : Relationship} {t : LinkTest} {f condition : Filter}
  {fs : List Filter} {n : Nat}

theorem nodeCount_pos (f : Filter) : 0 < f.nodeCount := by
  cases f <;> simp only [nodeCount] <;> omega

theorem nodeCountAll_append (fs gs : List Filter) :
    nodeCountAll (fs ++ gs) = nodeCountAll fs + nodeCountAll gs := by
  induction fs with
  | nil => simp [nodeCountAll]
  | cons f fs ih => rw [List.cons_append, nodeCountAll, nodeCountAll, ih, Nat.add_assoc]

theorem nodeCount_le_of_mem (h : f ∈ fs) : f.nodeCount ≤ nodeCountAll fs := by
  obtain ⟨before, after, rfl⟩ := List.append_of_mem h
  rw [nodeCountAll_append, nodeCountAll]
  omega

/-- A child adds no more nodes to its siblings than it has; where it joins another link, a group
makes up for the link that is gone. -/
theorem nodeCountAll_insert_le (f : Filter) (c : Connective) {ss : List Sibling}
    (h : ∀ s ∈ ss, s.Under c) : nodeCountAll ((Sibling.insert f c ss).map Sibling.toFilter) ≤
      nodeCountAll (ss.map Sibling.toFilter) + f.nodeCount := by
  refine Sibling.insert_induction (motive := fun f _ ss ss' =>
    nodeCountAll (ss'.map Sibling.toFilter) ≤ nodeCountAll (ss.map Sibling.toFilter) + f.nodeCount)
    ?_ ?_ ?_ f c ss h
  · intro f c ss _
    simp [nodeCountAll_append, nodeCountAll, Sibling.toFilter]
  · intro r s t condition first c before after _ _ _ ih
    simp only [List.map_append, List.map_cons, List.map_nil, nodeCountAll_append, nodeCountAll,
      Sibling.toFilter, Sibling.toFilters_eq, nodeCount] at ih ⊢
    omega
  · intro r s t condition conditions c before after _ _ _ ih
    simp only [List.map_append, List.map_cons, nodeCountAll_append, nodeCountAll,
      Sibling.toFilter, Sibling.toFilters_eq, nodeCount] at ih ⊢
    omega

theorem nodeCountAll_mergeSiblings_le (c : Connective) (fs : List Filter) :
    nodeCountAll (mergeSiblings c fs) ≤ nodeCountAll fs := by
  obtain ⟨ss, hss, hm⟩ := mergeSiblings_induction (c := c)
    (motive := fun fs ss => nodeCountAll (ss.map Sibling.toFilter) ≤ nodeCountAll fs)
    (by simp) (fun f fs ss hu ih => by
      have added := nodeCountAll_insert_le f c hu
      rw [nodeCountAll_append, nodeCountAll, nodeCountAll]
      omega) fs
  rw [hss]
  exact hm

/-- The nodes of a filter and the hops that its clauses may need. -/
def reach (f : Filter) : Nat := f.nodeCount + Schema.diameter * f.clauses.length

theorem reach_pos (f : Filter) : 0 < f.reach := Nat.add_pos_left f.nodeCount_pos _

theorem reach_link (r : Relationship) (t : LinkTest) (condition : Filter) :
    (link r t condition).reach = Schema.diameter + 1 + condition.reach := by
  simp only [reach, nodeCount, clauses, List.length_cons, Nat.mul_add]
  omega

theorem reach_group_cons (c : Connective) (f : Filter) (fs : List Filter) :
    (group c (f :: fs)).reach = f.reach + (group c fs).reach := by
  simp only [reach, nodeCount, nodeCountAll, clauses, clausesAll, List.length_append, Nat.mul_add]
  omega

theorem reach_lt_of_mem (h : f ∈ fs) : f.reach < (group c fs).reach := by
  induction fs with
  | nil => cases h
  | cons g fs ih =>
    rw [reach_group_cons]
    obtain rfl | h := List.mem_cons.1 h
    · exact Nat.lt_add_of_pos_right (group c fs).reach_pos
    · exact Nat.lt_add_left _ (ih h)

theorem nodeCountAll_normalize_lt (h : ∀ f ∈ fs, (f.normalize k).nodeCount ≤ f.reach) :
    nodeCountAll (fs.map (·.normalize k)) < (group c fs).reach := by
  induction fs with
  | nil => exact (group c []).reach_pos
  | cons f fs ih =>
    obtain ⟨hf, hfs⟩ := List.forall_mem_cons.1 h
    rw [List.map_cons, nodeCountAll, reach_group_cons]
    exact Nat.add_lt_add_of_le_of_lt hf (ih hfs)

theorem nodeCount_normalize_le (f : Filter) (k : Kind) : (f.normalize k).nodeCount ≤ f.reach := by
  induction f using induction generalizing k with
  | empty => exact Nat.le_refl 1
  | test f t =>
    have hops := Schema.length_path_le k f.kind
    rw [normalize, nodeCount_along, reach, clauses, List.length_singleton]
    omega
  | link r t condition ih =>
    have hops := Schema.length_path_le k r.kind
    have inner := ih r.far
    rw [normalize, nodeCount_along, nodeCount, reach_link]
    omega
  | group c fs ih =>
    have children : _ < (group c fs).reach := nodeCountAll_normalize_lt fun f hf => ih f hf k
    have merged := nodeCountAll_mergeSiblings_le c (fs.map (·.normalize k))
    rw [normalize, normalizeAll_eq, nodeCount]
    omega

def object? : Filter → Option Kind
  | test f _ => some f.kind
  | link r _ _ => some r.kind
  | empty | group .. => none

def slotsBy (again : Filter → Kind → Option Filter) (c : Connective) :
    List Filter → Option (List Filter)
  | [] => some []
  | link r t condition :: fs =>
    if t.mergesUnder c then do
      let head ← match conditions r t fs with
        | [] => some (link r t condition)
        | rest => (again (group (t.within c) (condition :: rest)) r.far).map (link r t)
      return head :: (← slotsBy again c (others r t fs))
    else (slotsBy again c fs).map (link r t condition :: ·)
  | f :: fs => (slotsBy again c fs).map (f :: ·)
termination_by fs => fs.length
decreasing_by
  · exact Nat.lt_succ_of_le (List.length_filter_le _ fs)
  · exact Nat.lt_succ_self _
  · exact Nat.lt_succ_self _

/-- Normalizing with no more than so many calls open at a time: a clause of another kind is taken
one hop and normalized there, the children of a group are normalized and placed in slots, and where
a slot has several conditions the group of them is normalized anew. -/
def normalizeWithin : Nat → Filter → Kind → Option Filter
  | 0, _, _ => none
  | n + 1, f, k =>
    match f.object?.bind (Schema.route k) with
    | some via => (normalizeWithin n f via.far).map (link via .hasSome)
    | none =>
      match f with
      | empty => some empty
      | test f t => some (test f t)
      | link r t condition => (normalizeWithin n condition r.far).map (link r t)
      | group c fs => do
        let children ← fs.mapM (normalizeWithin n · k)
        return group c (← slotsBy (normalizeWithin n) c children)

theorem normalize_of_route {via : Relationship} (h : f.object?.bind (Schema.route k) = some via) :
    f.normalize k = link via .hasSome (f.normalize via.far) := by
  cases f with
  | test f t => rw [normalize_test, show Schema.route k f.kind = some via from h]
  | link r t condition => rw [normalize_link, show Schema.route k r.kind = some via from h]
  | _ => cases h

theorem normalizeWithin_of_route {via : Relationship}
    (h : f.object?.bind (Schema.route k) = some via) :
    normalizeWithin (n + 1) f k = (normalizeWithin n f via.far).map (link via .hasSome) := by
  rw [normalizeWithin.eq_def]
  simp [h]

theorem nodeCountAll_split (r : Relationship) (t : LinkTest) (fs : List Filter) :
    nodeCountAll (conditions r t fs) + (conditions r t fs).length + nodeCountAll (others r t fs) =
      nodeCountAll fs := by
  induction fs with
  | nil => rfl
  | cons f fs ih =>
    rw [conditions, others] at ih ⊢
    cases h : f.condition? r t with
    | none =>
      simp only [h, List.filterMap_cons, List.filter_cons, Option.isNone_none, if_true,
        nodeCountAll]
      omega
    | some condition =>
      obtain ⟨s, rfl, -⟩ := condition?_eq_some.1 h
      simp only [h, List.filterMap_cons, List.filter_cons, Option.isNone_some, Bool.false_eq_true,
        if_false, nodeCountAll, nodeCount, List.length_cons]
      omega

theorem slotsBy_eq {again : Filter → Kind → Option Filter} (hn : ∀ f ∈ fs, f.Normal k)
    (h : ∀ d gs l, (∀ g ∈ gs, g.Normal l) → nodeCountAll gs + 2 ≤ n →
      again (group d gs) l = some ((group d gs).normalize l))
    (hle : nodeCountAll fs ≤ n) : slotsBy again c fs = some (slots c fs) := by
  induction fs using slots.induct c with
  | case1 => rw [slotsBy, slots]
  | case2 r t condition fs ht ih =>
    obtain ⟨hf, hfs⟩ := List.forall_mem_cons.1 hn
    have sizes := nodeCountAll_split r t fs
    simp only [nodeCountAll, nodeCount] at hle
    have tail := ih (fun f hf => hfs f (List.mem_filter.1 hf).1) (by omega)
    rw [slotsBy, slots, if_pos ht, if_pos ht, tail, slot]
    cases hc : conditions r t fs with
    | nil => rfl
    | cons second rest =>
      have normal : ∀ g ∈ condition :: second :: rest, g.Normal r.far :=
        hc ▸ List.forall_mem_cons.2 ⟨(normal_link_iff.1 hf).2, normal_conditions hfs⟩
      have smaller : nodeCountAll (condition :: second :: rest) + 2 ≤ n := by
        rw [hc, List.length_cons] at sizes
        rw [nodeCountAll]
        omega
      simp [h _ _ _ normal smaller]
  | case3 r t condition fs ht ih =>
    rw [nodeCountAll] at hle
    rw [slotsBy, slots, if_neg ht, if_neg ht, ih (List.forall_mem_cons.1 hn).2 (by omega)]
    rfl
  | case4 f fs hf ih =>
    rw [nodeCountAll] at hle
    rw [slotsBy, slots, ih (List.forall_mem_cons.1 hn).2 (by omega)]
    · rfl
    · exact hf
    · exact hf

theorem normalizeWithin_link
    (h : normalizeWithin n condition r.far = some (condition.normalize r.far)) :
    normalizeWithin (n + 1) (link r t condition) r.kind =
      some ((link r t condition).normalize r.kind) := by
  simp [normalizeWithin, object?, Schema.route, normalize, along, h]

theorem normalizeWithin_group
    (children : ∀ f ∈ fs, normalizeWithin n f k = some (f.normalize k))
    (again : ∀ d gs l, (∀ g ∈ gs, g.Normal l) → nodeCountAll gs + 2 ≤ n →
      normalizeWithin n (group d gs) l = some ((group d gs).normalize l))
    (hle : nodeCountAll (fs.map (·.normalize k)) ≤ n) :
    normalizeWithin (n + 1) (group c fs) k = some ((group c fs).normalize k) := by
  have normal : ∀ f ∈ fs.map (·.normalize k), f.Normal k :=
    List.forall_mem_map.2 fun f _ => normal_normalize f k
  rw [normalize_group]
  simp [normalizeWithin, object?, Option.mapM_eq_some_map children, slotsBy_eq normal again hle]

/-- Only the children of a group at the top may be left to merge. -/
def Layered (k : Kind) : Filter → Prop
  | group _ fs => ∀ f ∈ fs, f.Normal k
  | f => f.Normal k

theorem Normal.layered (h : f.Normal k) : f.Layered k := by
  cases h with
  | group h => exact h
  | empty => exact .empty
  | test => exact .test
  | link h => exact .link h

theorem normalizeWithin_of_layered (h : f.Layered k) (hn : f.nodeCount ≤ n) :
    normalizeWithin n f k = some (f.normalize k) := by
  induction n generalizing f k with
  | zero => exact absurd (Nat.lt_of_lt_of_le f.nodeCount_pos hn) (Nat.lt_irrefl 0)
  | succ n ih =>
    cases f with
    | empty => rfl
    | test f t =>
      obtain rfl := normal_test_iff.1 h
      simp [normalizeWithin, object?, Schema.route, normalize, along]
    | link r t condition =>
      obtain ⟨rfl, hc⟩ := normal_link_iff.1 h
      rw [nodeCount] at hn
      exact normalizeWithin_link (ih hc.layered (by omega))
    | group c fs =>
      have hfs : ∀ f ∈ fs, f.Normal k := h
      have same : fs.map (·.normalize k) = fs := by
        rw [List.map_congr_left fun f hf => (hfs f hf).normalize_eq, List.map_id']
      rw [nodeCount] at hn
      refine normalizeWithin_group (fun f hf => ih (hfs f hf).layered ?_)
        (fun d gs l hgs hle => ih hgs ?_) (by rw [same]; omega)
      · have := nodeCount_le_of_mem hf
        omega
      · rw [nodeCount]
        omega

theorem normalizeWithin_of_hops {m : Nat} (hl : f.object? = some l)
    (here : ∀ n, m ≤ n → normalizeWithin n f l = some (f.normalize l))
    (hn : (Schema.path k l).length + m ≤ n) : normalizeWithin n f k = some (f.normalize k) := by
  induction hops : Schema.path k l generalizing k n with
  | nil =>
    obtain rfl : k = l := by simpa [hops, Schema.Leads] using Schema.path_leads k l
    exact here n (by omega)
  | cons via onward ih =>
    have first := Schema.path_eq k l
    rw [hops] at first hn
    cases hr : Schema.route k l with
    | none => simp [hr] at first
    | some via' =>
      obtain ⟨rfl, rfl⟩ : via = via' ∧ onward = Schema.path via'.far l := by
        simpa [hr] using first
      obtain ⟨n, rfl⟩ : ∃ n', n = n' + 1 := ⟨n - 1, by rw [List.length_cons] at hn; omega⟩
      have hop : f.object?.bind (Schema.route k) = some via := by rw [hl, Option.bind_some, hr]
      have inner : normalizeWithin n f via.far = _ :=
        ih (by rw [List.length_cons] at hn; omega) rfl
      rw [normalizeWithin_of_route hop, inner, normalize_of_route hop]
      rfl

theorem normalizeWithin_of_reach (h : f.reach ≤ n) :
    normalizeWithin n f k = some (f.normalize k) := by
  induction f using induction generalizing k n with
  | empty => exact normalizeWithin_of_layered (Normal.empty (k := k)).layered h
  | test f t =>
    have hops := Schema.length_path_le k f.kind
    rw [reach, nodeCount, clauses, List.length_singleton] at h
    refine normalizeWithin_of_hops (m := 1) rfl (fun n hn => ?_) (by omega)
    exact normalizeWithin_of_layered (Normal.test (t := t)).layered hn
  | link r t condition ih =>
    have hops := Schema.length_path_le k r.kind
    rw [reach_link] at h
    refine normalizeWithin_of_hops (m := 1 + condition.reach) rfl (fun n hn => ?_) (by omega)
    obtain ⟨n, rfl⟩ : ∃ n', n = n' + 1 := ⟨n - 1, by omega⟩
    exact normalizeWithin_link (ih (by omega))
  | group c fs ih =>
    obtain ⟨n, rfl⟩ : ∃ n', n = n' + 1 :=
      ⟨n - 1, by have := (group c fs).reach_pos; omega⟩
    have size : nodeCountAll (fs.map (·.normalize k)) < (group c fs).reach :=
      nodeCountAll_normalize_lt fun f _ => nodeCount_normalize_le f k
    refine normalizeWithin_group (fun f hf => ih f hf ?_)
      (fun d gs l hgs hle => normalizeWithin_of_layered hgs ?_) (by omega)
    · exact Nat.le_of_lt_succ (Nat.lt_of_lt_of_le (reach_lt_of_mem hf) h)
    · rw [nodeCount]
      omega

/-- With as many calls open at a time as a filter has nodes, and five more for each of its clauses,
normalizing comes to its end, and the normal form has no more nodes than that; for no clause is
farther than five hops from the kind, and siblings that are merged have no more nodes than before.
-/
theorem normalize_ends_within (f : Filter) (k : Kind) :
    (∀ n, normalizeWithin (f.nodeCount + 5 * f.clauses.length + n) f k = some (f.normalize k)) ∧
      (f.normalize k).nodeCount ≤ f.nodeCount + 5 * f.clauses.length ∧
      (∀ l, (along (Schema.path k l) f).nodeCount ≤ f.nodeCount + 5) ∧
      ∀ c fs, (group c (mergeSiblings c fs)).nodeCount ≤ (group c fs).nodeCount := by
  refine ⟨fun n => normalizeWithin_of_reach (Nat.le_add_right f.reach n),
    nodeCount_normalize_le f k, fun l => ?_, fun c fs => ?_⟩
  · have hops : _ ≤ 5 := Schema.length_path_le k l
    rw [nodeCount_along]
    omega
  · rw [nodeCount, nodeCount]
    exact Nat.add_le_add_left (nodeCountAll_mergeSiblings_le c fs) 1

/-- A part of a frame is five hops away from a transcription. -/
example : ((test Schema.Part.role (.string .equals "Agent")).normalize .pronunciation).nodeCount =
    1 + 5 * 1 := rfl

end Filter

end Lexiquery
