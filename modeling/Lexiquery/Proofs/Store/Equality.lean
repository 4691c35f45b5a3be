import Lexiquery.Statement.Run

/-! When two stored values count as the same. Numbers do by value, whatever way they are stored, and
null is the same as null only where duplicates are dropped: no comparison holds of it. -/

namespace Lexiquery

namespace Value

/-- What two values that count as the same have in common. -/
inductive Key
  | null
  | number (value : Rat)
  | text (bytes : List UInt8)
  | blob (bytes : List UInt8)

def key : Value → Key
  | null => .null
  | integer n => .number n.toInt
  | real q => .number q
  | text s => .text (Utf8.encode s)
  | garbled g => .text g.bytes
  | blob b => .blob b

theorem compareOfLessAndEq_rat {p q : Rat} :
    compareOfLessAndEq p q = .eq ↔ Key.number p = Key.number q := by
  rw [compareOfLessAndEq_eq_eq (fun _ => Rat.le_refl) Rat.not_le, Key.number.injEq]

theorem order_eq_iff {v w : Value} : v.order w = .eq ↔ v.key = w.key := by
  cases v with
  | null | text | garbled | blob => cases w <;> simp [order, key]
  | integer m =>
    cases w with
    | integer n => simp [order, key, Int64.toInt_inj]
    | real q => exact compareOfLessAndEq_rat
    | null | text | garbled | blob => simp [order, key]
  | real p =>
    cases w with
    | integer | real => exact compareOfLessAndEq_rat
    | null | text | garbled | blob => simp [order, key]

theorem isNull_iff {v : Value} : v.isNull = true ↔ v = null := by
  cases v <;> simp [isNull]

theorem key_eq_null_iff {v : Value} : v.key = .null ↔ v = null := by
  cases v <;> simp [key]

theorem key_integer_inj {m n : Int64} : (integer m).key = (integer n).key ↔ m = n := by
  simp [key, Int64.toInt_inj]

def Equals (v w : Value) : Prop := Operator.equals.holds v w = true

instance (v w : Value) : Decidable (v.Equals w) :=
  inferInstanceAs (Decidable (Operator.equals.holds v w = true))

theorem equals_iff {v w : Value} : v.Equals w ↔ v ≠ null ∧ v.key = w.key := by
  have hk : v.key = w.key → (v = null ↔ w = null) := fun h => by
    rw [← key_eq_null_iff, ← key_eq_null_iff, h]
  by_cases hv : v = null
  · simp [Equals, Operator.holds, hv, isNull]
  · by_cases hw : w = null
    · have : v.key ≠ w.key := fun h => hv ((hk h).2 hw)
      simp_all [Equals, Operator.holds, isNull]
    · simp [Equals, Operator.holds, ← isNull_iff, ← order_eq_iff] at hv hw ⊢
      simp [hv, hw]

theorem Equals.key_eq {v w : Value} (h : v.Equals w) : v.key = w.key := (equals_iff.1 h).2

theorem Equals.symm {v w : Value} (h : v.Equals w) : w.Equals v := by
  obtain ⟨hv, hk⟩ := equals_iff.1 h
  refine equals_iff.2 ⟨fun hw => hv ?_, hk.symm⟩
  rw [← key_eq_null_iff, hk, hw, key]

theorem Equals.of_key_eq {v w w' : Value} (h : v.Equals w) (hk : w.key = w'.key) : v.Equals w' :=
  equals_iff.2 ⟨(equals_iff.1 h).1, h.key_eq.trans hk⟩

theorem Equals.trans {u v w : Value} (h : u.Equals v) (h' : v.Equals w) : u.Equals w :=
  h.of_key_eq h'.key_eq

theorem Equals.isNull_right {v w : Value} (h : v.Equals w) : w.isNull = false :=
  Bool.eq_false_iff.2 fun hw => (equals_iff.1 h.symm).1 (isNull_iff.1 hw)

theorem isAmong_iff {v : Value} {vs : List Value} :
    v.isAmong vs = true ↔ v.key ∈ vs.map key := by
  simp only [isAmong, List.any_eq_true, beq_iff_eq, order_eq_iff, List.mem_map]
  exact exists_congr fun w => and_congr_right fun _ => eq_comm

theorem exists_equals_iff {v : Value} {vs : List Value} :
    (∃ w ∈ vs, v.Equals w) ↔ v ≠ null ∧ v.key ∈ vs.map key := by
  simp only [equals_iff, List.mem_map]
  constructor
  · rintro ⟨w, hw, hv, hk⟩
    exact ⟨hv, w, hw, hk.symm⟩
  · rintro ⟨hv, w, hw, hk⟩
    exact ⟨w, hw, hv, hk.symm⟩

theorem union_cons (known new : List Value) (v : Value) :
    union known (v :: new) = union (if v.isAmong known then known else known ++ [v]) new := rfl

theorem mem_keys_union {known new : List Value} {k : Key} :
    k ∈ (union known new).map key ↔ k ∈ known.map key ∨ k ∈ new.map key := by
  induction new generalizing known with
  | nil => simp [union]
  | cons v new ih =>
    rw [union_cons, ih]
    split
    · rename_i h
      rw [isAmong_iff] at h
      simp only [List.map_cons, List.mem_cons]
      constructor
      · rintro (hk | hk)
        · exact .inl hk
        · exact .inr (.inr hk)
      · rintro (hk | rfl | hk)
        · exact .inl hk
        · exact .inl h
        · exact .inr hk
    · simp [or_assoc, eq_comm]

theorem length_le_union (known new : List Value) : known.length ≤ (union known new).length := by
  induction new generalizing known with
  | nil => simp [union]
  | cons v new ih =>
    rw [union_cons]
    refine Nat.le_trans ?_ (ih _)
    split <;> simp

theorem length_union_eq_iff {known new : List Value} :
    (union known new).length = known.length ↔ ∀ v ∈ new, v.key ∈ known.map key := by
  induction new generalizing known with
  | nil => simp [union]
  | cons v new ih =>
    rw [union_cons]
    split
    · rename_i h
      simp [ih, ← isAmong_iff, h]
    · rename_i h
      have := length_le_union (known ++ [v]) new
      simp only [List.length_append, List.length_singleton] at this
      rw [isAmong_iff] at h
      simp only [List.mem_cons, forall_eq_or_imp, h, false_and, iff_false]
      omega

end Value

end Lexiquery
