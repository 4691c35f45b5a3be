import Lexiquery.Proofs.Statement.Selection
import Lexiquery.Proofs.Store.Ordering

/-! The records that a statement selects, arranged: each of them once, in the order of the statement
and up to its limit. Nothing is asked of the filter it was compiled from. -/

namespace Lexiquery

def Fragment.Fresh (p : Fragment) (n : Nat) : Prop := ∀ j ∈ p.joins, n < j.table.number

namespace Fragment

variable {p : Fragment} {n : Numbering} {owner : ColumnRef} {far relation : Alias}

theorem Fresh.mono {m k : Nat} (h : p.Fresh k) (hmk : m ≤ k) : p.Fresh m := fun j hj =>
  Nat.lt_of_le_of_lt hmk (h j hj)

theorem fresh_hoist {k : Kind} {positive : Bool} {body : CteBody} {ctes : List Cte}
    {tables : List Alias} : (hoist owner k positive body ctes tables n).Fresh n.aliases := by
  intro j hj
  obtain rfl := List.mem_singleton.1 hj
  simp only
  omega

theorem fresh_alongKey {r : Relationship} {t : LinkTest} (hf : n.aliases < far.number)
    (h : p.Fresh n.aliases) : (p.alongKey r t owner far n).Fresh n.aliases := by
  rw [alongKey]
  split
  · exact List.forall_mem_cons.2 ⟨hf, h⟩
  · exact fresh_hoist

theorem fresh_alongAssociation {r : Relationship} {assoc : Association} {t : LinkTest}
    (hr : n.aliases < relation.number) (hf : n.aliases < far.number) (h : p.Fresh n.aliases) :
    (p.alongAssociation r assoc t owner relation far n).Fresh n.aliases := by
  rw [alongAssociation]
  split
  · exact List.forall_mem_cons.2 ⟨hr, List.forall_mem_cons.2 ⟨hf, h⟩⟩
  · exact fresh_hoist

end Fragment

theorem Filter.fresh_lower (f : Filter) (a : Alias) (n : Numbering) :
    (f.lower a n).Fresh n.aliases := by
  induction f using induction generalizing a n with
  | empty => exact List.forall_mem_nil _
  | test => exact List.forall_mem_nil _
  | link r t condition ih =>
    rw [lower]
    cases r.passage t with
    | key => exact Fragment.fresh_alongKey (by simp) ((ih _ _).mono (by simp))
    | association =>
      apply Fragment.fresh_alongAssociation (by simp) _ ((ih _ _).mono (by simp))
      dsimp only
      omega
    | closure => exact Fragment.fresh_hoist
  | group c fs ih =>
    have all {fs : List Filter} (h : ∀ f ∈ fs, ∀ a n, (f.lower a n).Fresh n.aliases)
        (n : Numbering) : ∀ p ∈ lowerAll fs a n, p.Fresh n.aliases := by
      induction fs generalizing n with
      | nil => exact List.forall_mem_nil _
      | cons f fs ihs =>
        obtain ⟨hf, hfs⟩ := List.forall_mem_cons.1 h
        refine List.forall_mem_cons.2 ⟨hf a n, fun p hp => ?_⟩
        exact (ihs hfs _ p hp).mono (by simp [Numbering.after])
    intro j hj
    obtain ⟨p, hp, hj⟩ := List.mem_flatMap.1 hj
    exact all ih n p hp j hj

namespace Statement

theorem pairwise_mergeSort (d : Direction) (v : Env → Value) {le : Env → Env → Bool}
    (hle : ∀ e e', le e e' = true ↔ d.Places (v e) (v e')) (es : List Env) :
    (es.mergeSort le).Pairwise fun e e' => d.Places (v e) (v e') := by
  simp only [← hle]
  apply List.pairwise_mergeSort
  · intro e₁ e₂ e₃
    rw [hle, hle, hle]
    exact Direction.Places.trans
  · intro e e'
    rw [Bool.or_eq_true, hle, hle]
    exact d.places_total (v e) (v e')

theorem pairwise_found (store : Store) (s : Statement) :
    (s.found store).Pairwise s.order.Places := by
  rw [found, List.pairwise_map, arrange]
  cases s.order with
  | random => exact List.pairwise_of_forall fun _ _ => trivial
  | «by» f d =>
    simp only [Order.Places, ← get_main]
    cases d with
    | ascending => exact pairwise_mergeSort .ascending _ (fun _ _ => .rfl) _
    | descending => exact pairwise_mergeSort .descending _ (fun _ _ => .rfl) _

/-- The records whose rows a store may return: those that are found, in any way that the order
allows, and no more than the limit. -/
def MayGive (store : Store) (s : Statement) (xs : List Row) : Prop :=
  ∃ ys, ys.Perm (s.found store) ∧ ys.Pairwise s.order.Places ∧
    xs = s.limit.elim ys (ys.take ·.toNat)

theorem exists_mayGive (store : Store) (s : Statement) :
    ∃ xs, s.MayGive store xs ∧
      s.rows store = xs.map fun x => s.columns.map fun c => (c, x.get c) := by
  refine ⟨_, ⟨s.found store, .refl _, s.pairwise_found store, rfl⟩, ?_⟩
  have unlimited : ({ s with limit := none } : Statement).rows store = _ := rows_eq_found rfl
  rw [rows_limit, unlimited]
  cases s.limit with
  | none => rfl
  | some n => exact List.map_take.symm

variable {store : Store} {s : Statement}

theorem MayGive.subset {xs : List Row} (h : s.MayGive store xs) : xs ⊆ s.found store := by
  obtain ⟨ys, hp, -, rfl⟩ := h
  cases s.limit with
  | none => exact hp.subset
  | some n => exact List.Subset.trans (List.take_subset _ _) hp.subset

theorem MayGive.nodup {xs : List Row} (h : s.MayGive store xs) : xs.Nodup := by
  obtain ⟨ys, hp, -, rfl⟩ := h
  have hn : ys.Nodup := hp.nodup_iff.2 nodup_found
  cases s.limit with
  | none => exact hn
  | some n => exact hn.sublist (List.take_sublist _ _)

theorem MayGive.pairwise {xs : List Row} (h : s.MayGive store xs) : xs.Pairwise s.order.Places := by
  obtain ⟨ys, -, ho, rfl⟩ := h
  cases s.limit with
  | none => exact ho
  | some n => exact ho.sublist (List.take_sublist _ _)

theorem MayGive.perm {xs : List Row} (h : MayGive store { s with limit := none } xs) :
    xs.Perm (s.found store) := by
  obtain ⟨ys, hp, -, rfl⟩ := h
  exact hp

section

variable {n : UInt32} {xs xs₀ : List Row} (hl : s.limit = some n) (hx : s.MayGive store xs)
  (hx₀ : MayGive store { s with limit := none } xs₀)
include hl hx hx₀

theorem MayGive.length_eq : xs.length = min n.toNat xs₀.length := by
  obtain ⟨ys, hp, -, rfl⟩ := hx
  rw [hl, Option.elim, List.length_take, (hp.trans hx₀.perm.symm).length_eq]

theorem MayGive.eq_take (ha : ∀ x ∈ s.found store, ∀ y ∈ s.found store,
    s.order.Places x y → s.order.Places y x → x = y) : xs = xs₀.take n.toNat := by
  obtain ⟨ys, hp, ho, rfl⟩ := hx
  -- both are what is found, in an order that allows one arrangement only
  have hys : ys = xs₀ := by
    refine (hp.trans hx₀.perm.symm).eq_of_pairwise (fun x y h h' => ?_) ho hx₀.pairwise
    exact ha x (hp.subset h) y (hx₀.perm.subset h')
  rw [hl, hys]
  rfl

end

end Statement

end Lexiquery
