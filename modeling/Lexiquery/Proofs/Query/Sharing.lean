import Lexiquery.Proofs.Filter.Sharing
import Lexiquery.Proofs.Query.Finding
import Lexiquery.Proofs.Query.Gathering
import Lexiquery.Proofs.Statement.Counts

/-! Queries of alternatives along one relationship. They find what any of the alternatives finds, as
long as their joins are not too many for one select. -/

namespace Lexiquery

namespace Filter

theorem Scalar.links_eq {k : Kind} {f : Filter} (h : f.Scalar k) : f.links = [] := by
  induction h with
  | empty => rfl
  | test => rfl
  | group _ ih => rw [links, linksAll_eq, List.flatMap_eq_nil_iff.2 ih]

theorem Scalar.lower_eq {k : Kind} {f : Filter} (h : f.Scalar k) (a : Alias) (n : Numbering) :
    f.lower a n = .ofCondition (f.lower a n).condition := by
  induction h generalizing n with
  | empty => rfl
  | test => rfl
  | @group c fs _ ih =>
    have bare : ∀ p ∈ lowerAll fs a n, p = .ofCondition p.condition := by
      intro p hp
      obtain ⟨f, hf, n', rfl⟩ := mem_lowerAll hp
      exact ih f hf n'
    rw [lower, Fragment.all, Fragment.ofCondition, Fragment.mk.injEq]
    simp only [List.flatMap_eq_nil_iff, true_and]
    refine ⟨fun p hp => ?_, fun p hp => ?_, fun p hp => ?_⟩ <;> rw [bare p hp] <;> rfl

structure Alternative (k : Kind) (r : Relationship) (f : Filter) : Prop extends
    f.Plain r.far where
  compacted : f.Compacted
  normalize_eq : f.normalize k = group .and [link r .hasSome f]
  low : ∀ a n, (f.lower a n).condition.height < 6
  few : f.bound.length ≤ 3
  brief : f.Brief

theorem Alternative.within {k : Kind} {r : Relationship} {f : Filter} (h : f.Alternative k r)
    (a : Alias) (n : Numbering) : ((group .and [link r .hasSome f]).lower a n).Within 1 := by
  have one : ((link r .hasSome f).lower a n).Within 1 := by
    rw [lower]
    cases hp : r.passage .hasSome with
    | key =>
      dsimp only
      rw [h.scalar.lower_eq]
      exact Fragment.within_alongKey (h.low _ _) r
    | association assoc =>
      dsimp only
      rw [h.scalar.lower_eq]
      exact Fragment.within_alongAssociation (h.low _ _) r assoc
    | closure => cases Relationship.isTransitive_of_closure hp
  exact Fragment.within_all (List.cons_ne_nil _ _) (List.forall_mem_singleton.2 one)

variable {k : Kind} {r : Relationship} {fs : List Filter}

theorem length_lowerAll (a : Alias) (n : Numbering) : (lowerAll fs a n).length = fs.length := by
  induction fs generalizing n with
  | nil => rfl
  | cons f fs ih => rw [lowerAll, List.length_cons, ih, List.length_cons]

theorem links_anyAlong (h : ∀ f ∈ fs, f.links = []) :
    (anyAlong r fs).links = List.replicate fs.length (r, .hasSome) := by
  rw [anyAlong, links]
  induction fs with
  | nil => rfl
  | cons f fs ih =>
    obtain ⟨hf, hfs⟩ := List.forall_mem_cons.1 h
    simp [links, linksAll, hf, ih hfs, List.replicate_succ]

theorem length_bound_anyAlong (h : ∀ f ∈ fs, f.bound.length ≤ 3) :
    (anyAlong r fs).bound.length ≤ 3 * fs.length := by
  rw [anyAlong, bound]
  induction fs with
  | nil => exact Nat.le_refl _
  | cons f fs ih =>
    obtain ⟨hf, hfs⟩ := List.forall_mem_cons.1 h
    have := ih hfs
    rw [List.map_cons, boundAll, List.length_append, List.length_cons]
    simp only [bound, boundAll, List.append_nil]
    omega

section

variable (h : ∀ f ∈ fs, f.Alternative k r) (hne : fs ≠ [])
include h hne

theorem resolve_eq_anyAlong : (group .or fs).resolve k = anyAlong r fs :=
  resolve_alternatives hne (fun f hf => (h f hf).normalize_eq) fun f hf => (h f hf).compacted

theorem yields_resolve_alternatives {store : Store} {x : Row} (hk : r.kind = k) :
    ((group .or fs).resolve k).Yields store x true ↔
      ((group .or fs).resolve k).Holds store k x := by
  rw [resolve_eq_anyAlong h hne, yields_anyAlong hne fun f hf => (h f hf).scalar.unjoined,
    holds_anyAlong hk hne]
  refine exists_congr fun f => and_congr_right fun hf => exists_congr fun y => ?_
  have hf := h f hf
  exact and_congr_right fun _ => hf.scalar.guarded.yields_iff hf.scalar.normal hf.compacted

theorem within_anyAlong (a : Alias) (n : Numbering) :
    ((anyAlong r fs).lower a n).Within fs.length := by
  have small : ∀ p ∈ lowerAll (fs.map fun f => group .and [link r .hasSome f]) a n,
      p.Within 1 := by
    intro p hp
    obtain ⟨_, hm, n', rfl⟩ := mem_lowerAll hp
    obtain ⟨f, hf, rfl⟩ := List.mem_map.1 hm
    exact (h f hf).within a n'
  have length : (lowerAll (fs.map fun f => group .and [link r .hasSome f]) a n).length =
      fs.length := by
    rw [length_lowerAll, List.length_map]
  have within := Fragment.within_all (c := .or) (List.ne_nil_of_length_pos
    (length ▸ List.length_pos_of_ne_nil hne)) small
  rwa [length, Nat.mul_one] at within

end

end Filter

section

variable {k : Kind} {r : Relationship} {fs : List Filter} (h : ∀ f ∈ fs, f.Alternative k r)
  (hne : fs ≠ [])
include h

theorem Filter.wellFormed_alternatives : (group .or fs).WellFormed :=
  .group fun f hf => (h f hf).wellFormed

theorem Filter.overSchema_alternatives : (group .or fs).OverSchema :=
  .group fun f hf => (h f hf).overSchema

theorem Filter.brief_alternatives : (group .or fs).Brief :=
  .group fun f hf => (h f hf).brief

theorem Filter.sound_alternatives : ((group .or fs).resolve k).Sound :=
  ((wellFormed_alternatives h).sound (overSchema_alternatives h)).resolve k

include hne

namespace Statement

theorem extents_alternatives (hr : r.isDirect = false) (order : Order)
    (limit : Option UInt32) : ∃ e,
    (ofFilter k k.columns ((Filter.group .or fs).resolve k) order limit).extents = [e] ∧
      e.sources = 2 * fs.length + 1 ∧ e.Within fs.length := by
  have links := Filter.links_anyAlong (r := r) fun f hf => (h f hf).scalar.links_eq
  have hs := Filter.sound_alternatives h
  rw [Filter.resolve_eq_anyAlong h hne] at hs ⊢
  obtain ⟨joins, ctes, -⟩ := counts_ofFilter hs k k.columns order limit
  simp only [Filter.joinCost, Filter.cteCost, links] at joins ctes
  have none_hoisted : (ofFilter k k.columns (Filter.anyAlong r fs) order limit).ctes = [] :=
    List.length_eq_zero_iff.1 (ctes.trans (by simp [List.countP_replicate]))
  have length : (ofFilter k k.columns (Filter.anyAlong r fs) order limit).joins.length =
      fs.length * r.joinCost := by
    rw [joinCount_eq, none_hoisted] at joins
    simpa [bodyJoins] using joins
  have within : ∀ e ∈ (ofFilter k k.columns (Filter.anyAlong r fs) order limit).extents,
      e.Within fs.length := within_ofFilter (Filter.within_anyAlong h hne _ _)
  rw [extents, none_hoisted] at within ⊢
  refine ⟨_, rfl, ?_, within _ (by simp)⟩
  rw [extent, Extent.of, length, Relationship.joinCost, hr, Nat.mul_comm]
  rfl

end Statement

end

namespace Query

variable {store : Store} (hs : store.Lexical) {k : Kind} {r : Relationship} {fs : List Filter}
  (h : ∀ f ∈ fs, f.Alternative k r) (hne : fs ≠ []) (hr : r.isDirect = false) {order : Order}
  (ho : order.Sorts k)
include hs h hne hr ho

theorem exists_finds_alternatives (hk : r.kind = k) (hn : 2 * fs.length < maxJoined) :
    ∃ xs, store.Finds k (.group .or fs) order xs ∧ ∀ limit, ∃ q,
      (prepare store k (.group .or fs) order limit).result = .ok q ∧ q.kind = k ∧
        q.Gives store limit xs := by
  refine exists_finds_of_fits hs (Filter.wellFormed_alternatives h)
    (Filter.overSchema_alternatives h)
    (fun x => Filter.yields_resolve_alternatives h hne hk) (fun limit => ?_) ho
  have belongs := (Filter.normal_resolve (.group .or fs) k).belongs
  have wellFormed := (Filter.wellFormed_alternatives h).resolve k
  refine ⟨?_, ?_, Statement.brief_ofFilter belongs wellFormed
    ((Filter.brief_alternatives h).resolve k)⟩
  · obtain ⟨e, he, sources, within⟩ := Statement.extents_alternatives h hne hr order limit
    rw [he, List.forall_mem_singleton, sources]
    have := within.whereHeight
    have := within.fullHeight
    simp only [maxJoined, maxHeight] at hn ⊢
    omega
  · have few := Filter.length_bound_anyAlong (r := r) fun f hf => (h f hf).few
    rw [Statement.length_placeholders_ofFilter belongs wellFormed,
      Filter.resolve_eq_anyAlong h hne]
    simp only [maxJoined, maxPlaceholders] at hn ⊢
    omega

/-- With more alternatives the store refuses the statement, or does not even read it. -/
theorem result_prepare_alternatives (hn : maxJoined ≤ 2 * fs.length) (limit : Option UInt32) :
    ∃ sql, (prepare store k (.group .or fs) order limit).result = .error (.engine
      (if 2 * fs.length < maxSources then .tooManyJoined else .tooManySources) sql) := by
  obtain ⟨e, he, sources, within⟩ := Statement.extents_alternatives h hne hr order limit
  let s : Statement := .ofFilter k k.columns ((Filter.group .or fs).resolve k) order limit
  have refused : s.check store = .error
      (if 2 * fs.length < maxSources then .tooManyJoined else .tooManySources) := by
    split
    · rename_i hread
      have legible : s.Legible := by
        rw [Statement.Legible, he, List.forall_mem_singleton, sources]
        have := within.whereHeight
        have := within.fullHeight
        simp only [maxSources, maxHeight] at hread ⊢
        omega
      have names : s.Names (s.hasColumn store · = true) := Statement.names_ofFilter hs
        (Filter.normal_resolve _ k) (Filter.sound_alternatives h) ho.validate ho.overSchema
      rw [Statement.check_of_legible hs.isValid legible names, he, if_pos]
      simpa [sources] using Nat.lt_succ_of_le hn
    · exact Statement.check_of_illegible he (by omega)
  refine ⟨s.sql, ?_⟩
  rw [prepare, Statement.compile_resolve ho.validate]
  simp only [s] at refused
  simp only [refused]
  rfl

end Query

end Lexiquery
