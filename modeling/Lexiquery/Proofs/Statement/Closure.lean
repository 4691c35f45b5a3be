import Lexiquery.Proofs.Relation

/-! The rounds of a recursive common table expression reach all values that the rows of the relation
lead from, and no others. -/

namespace Lexiquery

namespace ClosureStep

variable {d : Reading} {step : ClosureStep} {base known : List Value}

/-- From each of the values, rows of the relation lead to one of the base. -/
def Sound (d : Reading) (step : ClosureStep) (base known : List Value) : Prop :=
  ∀ v ∈ known, ∀ u, u.Equals v →
    ∃ w ∈ base, Chain (d.rows step.relation.source) step.joinColumn step.foreignJoinColumn u w

def Closed (d : Reading) (step : ClosureStep) (known : List Value) : Prop :=
  ∀ v ∈ step.next d known, v.key ∈ known.map Value.key

theorem mem_next {v : Value} :
    v ∈ step.next d known ↔ ∃ z ∈ d.rows step.relation.source,
      (∃ w ∈ known, (z.get step.foreignJoinColumn).Equals w) ∧ z.get step.joinColumn = v := by
  simp [next, Value.Equals, and_assoc]

theorem Sound.of_keys {new : List Value} (h : Sound d step base known)
    (hk : ∀ v ∈ new, v.key ∈ known.map Value.key) : Sound d step base new := by
  intro v hv u hu
  obtain ⟨w, hw, hk⟩ := List.mem_map.1 (hk v hv)
  exact h w hw u (hu.of_key_eq hk.symm)

theorem Sound.append {new : List Value} (h : Sound d step base known)
    (h' : Sound d step base new) : Sound d step base (known ++ new) := by
  intro v hv
  exact (List.mem_append.1 hv).elim (h v) (h' v)

theorem Sound.next (h : Sound d step base known) : Sound d step base (step.next d known) := by
  intro v hv u hu
  obtain ⟨z, hz, ⟨w, hw, hzw⟩, rfl⟩ := mem_next.1 hv
  obtain ⟨b, hb, hc⟩ := h w hw _ hzw
  exact ⟨b, hb, .step hz hu hc⟩

theorem Sound.union {new : List Value} (h : Sound d step base known)
    (h' : Sound d step base new) : Sound d step base (Value.union known new) := by
  refine (h.append h').of_keys fun v hv => ?_
  rw [List.map_append, List.mem_append, ← Value.mem_keys_union]
  exact List.mem_map_of_mem hv

theorem sound_base : Sound d step base (Value.union [] base) := by
  have self : Sound d step base base := fun v hv u hu => ⟨v, hv, .here hu⟩
  refine self.of_keys fun v hv => ?_
  simpa using Value.mem_keys_union.1 (List.mem_map_of_mem (f := Value.key) hv)

theorem Sound.saturate {n : Nat} (h : Sound d step base known) :
    Sound d step base (step.saturate d n known) := by
  induction n generalizing known with
  | zero => exact h
  | succ n ih =>
    rw [ClosureStep.saturate]
    split
    · exact h
    · apply ih (h.union h.next)

theorem keys_subset_saturate {n : Nat} :
    known.map Value.key ⊆ (step.saturate d n known).map Value.key := by
  induction n generalizing known with
  | zero => exact fun _ h => h
  | succ n ih =>
    rw [ClosureStep.saturate]
    split
    · exact fun _ h => h
    · exact fun _ h => ih (Value.mem_keys_union.2 (.inl h))

theorem countP_lt_countP {α : Type} {p q : α → Bool} {l : List α} {a : α}
    (h : ∀ b ∈ l, p b → q b) (ha : a ∈ l) (hp : p a = false) (hq : q a = true) :
    l.countP p < l.countP q := by
  have hpq : l.countP p = (l.filter q).countP p := by
    rw [List.countP_filter]
    exact List.countP_congr fun b hb => by simpa using h b hb
  rw [hpq, List.countP_eq_length_filter, List.countP_eq_length_filter]
  exact List.length_filter_lt_length_iff_exists.2 ⟨a, List.mem_filter.2 ⟨ha, hq⟩, by simp [hp]⟩

def missing (d : Reading) (step : ClosureStep) (known : List Value) : Nat :=
  (d.rows step.relation.source).countP fun z => !(z.get step.joinColumn).isAmong known

theorem missing_le : missing d step known ≤ (d.rows step.relation.source).length :=
  List.countP_le_length

theorem missing_union_lt (h : ¬ Closed d step known) :
    missing d step (Value.union known (step.next d known)) < missing d step known := by
  simp only [Closed, not_forall] at h
  obtain ⟨v, hv, hk⟩ := h
  obtain ⟨z, hz, -, hzv⟩ := mem_next.1 hv
  refine countP_lt_countP (a := z) (fun y _ hy => ?_) hz ?_ ?_
  · simp only [Bool.not_eq_true', Bool.eq_false_iff, ne_eq, Value.isAmong_iff] at hy ⊢
    exact fun h => hy (Value.mem_keys_union.2 (.inl h))
  · rw [hzv, Bool.not_eq_false', Value.isAmong_iff, Value.mem_keys_union]
    exact .inr (List.mem_map_of_mem hv)
  · simpa only [hzv, Bool.not_eq_true', Bool.eq_false_iff, ne_eq, Value.isAmong_iff] using hk

theorem closed_saturate {n : Nat} (h : missing d step known < n) :
    Closed d step (step.saturate d n known) := by
  induction n generalizing known with
  | zero => exact absurd h (Nat.not_lt_zero _)
  | succ n ih =>
    rw [ClosureStep.saturate]
    split
    · rename_i hl
      exact Value.length_union_eq_iff.1 hl
    · rename_i hl
      refine ih (Nat.lt_of_lt_of_le (missing_union_lt fun hc => hl ?_) (Nat.le_of_lt_succ h))
      exact Value.length_union_eq_iff.2 hc

theorem Closed.complete (h : Closed d step known) {v w : Value} (hw : w.key ∈ known.map Value.key)
    (hc : Chain (d.rows step.relation.source) step.joinColumn step.foreignJoinColumn v w) :
    ∃ u ∈ known, v.Equals u := by
  induction hc with
  | here hv => exact Value.exists_equals_iff.2 ⟨(Value.equals_iff.1 hv).1, hv.key_eq ▸ hw⟩
  | @step v w z hz hv hc ih =>
    have : (z.get step.joinColumn).key ∈ known.map Value.key :=
      h _ (mem_next.2 ⟨z, hz, ih hw, rfl⟩)
    exact Value.exists_equals_iff.2 ⟨(Value.equals_iff.1 hv).1, hv.key_eq ▸ this⟩

/-- A value is in the closure of others if rows of the relation lead from it to one of them. -/
theorem exists_equals_values_closure {base : Select} {v : Value} :
    (∃ u ∈ (CteBody.closure base step).values d, v.Equals u) ↔
      ∃ w ∈ base.values d,
        Chain (d.rows step.relation.source) step.joinColumn step.foreignJoinColumn v w := by
  rw [CteBody.values]
  constructor
  · rintro ⟨u, hu, hv⟩
    exact sound_base.saturate u hu v hv
  · rintro ⟨w, hw, hc⟩
    refine (closed_saturate (Nat.lt_succ_of_le missing_le)).complete (keys_subset_saturate ?_) hc
    exact Value.mem_keys_union.2 (.inr (List.mem_map_of_mem hw))

end ClosureStep

end Lexiquery
