import Lexiquery.Order
import Lexiquery.Proofs.Store.Equality

/-! The order of stored values: null, then numbers by value, then texts, then blobs. -/

namespace Lexiquery

namespace Value

def AtMost (v w : Value) : Prop := (v.order w).isLE = true

instance (v w : Value) : Decidable (v.AtMost w) :=
  inferInstanceAs (Decidable (_ = true))

def Key.rank : Key → Nat
  | null => 0
  | number _ => 1
  | text _ => 2
  | blob _ => 3

def Key.AtMost : Key → Key → Prop
  | number p, number q => p ≤ q
  | text s, text t | blob s, blob t => (compare s t).isLE = true
  | a, b => a.rank ≤ b.rank

theorem isLE_compareOfLessAndEq_rat {p q : Rat} :
    (compareOfLessAndEq p q).isLE = true ↔ p ≤ q :=
  isLE_compareOfLessAndEq Rat.le_antisymm Rat.not_le fun _ _ => Rat.le_total

theorem atMost_iff {v w : Value} : v.AtMost w ↔ v.key.AtMost w.key := by
  cases v with
  | null | text | garbled | blob => cases w <;> simp [AtMost, order, key, Key.AtMost, Key.rank]
  | integer m =>
    cases w with
    | integer n =>
      simp only [AtMost, order, key, Key.AtMost, Std.isLE_compare, Int64.le_iff_toInt_le,
        Rat.intCast_le_intCast]
    | real q => exact isLE_compareOfLessAndEq_rat
    | null | text | garbled | blob => simp [AtMost, order, key, Key.AtMost, Key.rank]
  | real p =>
    cases w with
    | integer | real => exact isLE_compareOfLessAndEq_rat
    | null | text | garbled | blob => simp [AtMost, order, key, Key.AtMost, Key.rank]

theorem Key.AtMost.rank_le {a b : Key} (h : a.AtMost b) : a.rank ≤ b.rank := by
  cases a <;> cases b
  case number.number | text.text | blob.blob => exact Nat.le_refl _
  all_goals exact h

theorem Key.atMost_of_rank_lt {a b : Key} (h : a.rank < b.rank) : a.AtMost b := by
  cases a <;> cases b
  case number.number | text.text | blob.blob => exact absurd h (Nat.lt_irrefl _)
  all_goals exact Nat.le_of_lt h

theorem Key.AtMost.trans {a b c : Key} (h : a.AtMost b) (h' : b.AtMost c) : a.AtMost c := by
  have hab := h.rank_le
  have hbc := h'.rank_le
  obtain hac | hac := Nat.lt_or_ge a.rank c.rank
  · exact atMost_of_rank_lt hac
  · -- keys of one rank are of one sort
    cases a <;> cases b <;> cases c
    case null.null.null => exact Nat.le_refl _
    case number.number.number => exact Rat.le_trans h h'
    case text.text.text | blob.blob.blob => exact Std.TransCmp.isLE_trans h h'
    all_goals simp only [rank] at hab hbc hac; omega

theorem AtMost.trans {u v w : Value} (h : u.AtMost v) (h' : v.AtMost w) : u.AtMost w :=
  atMost_iff.2 ((atMost_iff.1 h).trans (atMost_iff.1 h'))

theorem Key.atMost_total (a b : Key) : a.AtMost b ∨ b.AtMost a := by
  have bytes (s t : List UInt8) : (compare s t).isLE = true ∨ (compare t s).isLE = true := by
    have swap : compare t s = (compare s t).swap := Std.OrientedCmp.eq_swap
    rw [swap]
    cases compare s t <;> simp
  cases a <;> cases b
  case number.number => exact Rat.le_total
  case text.text s t | blob.blob s t => exact bytes s t
  all_goals exact Nat.le_total _ _

theorem atMost_total (v w : Value) : v.AtMost w ∨ w.AtMost v := by
  rw [atMost_iff, atMost_iff]
  exact v.key.atMost_total w.key

theorem Key.AtMost.antisymm {a b : Key} (h : a.AtMost b) (h' : b.AtMost a) : a = b := by
  have hr := Nat.le_antisymm h.rank_le h'.rank_le
  have bytes {s t : List UInt8} (h : (compare s t).isLE = true) (h' : (compare t s).isLE = true) :
      s = t :=
    Std.LawfulEqCmp.eq_of_compare (Std.OrientedCmp.isLE_antisymm h h')
  cases a <;> cases b
  case null.null => rfl
  case number.number => exact congrArg number (Rat.le_antisymm h h')
  case text.text => exact congrArg text (bytes h h')
  case blob.blob => exact congrArg blob (bytes h h')
  all_goals cases hr

theorem AtMost.key_eq {v w : Value} (h : v.AtMost w) (h' : w.AtMost v) : v.key = w.key :=
  (atMost_iff.1 h).antisymm (atMost_iff.1 h')

theorem null_atMost (v : Value) : null.AtMost v := by
  cases v <;> rfl

theorem atMost_null_iff {v : Value} : v.AtMost null ↔ v = null := by
  cases v <;> simp [AtMost, order]

end Value

def Direction.Places : Direction → Value → Value → Prop
  | ascending, v, w => v.AtMost w
  | descending, v, w => w.AtMost v

theorem Direction.Places.trans {d : Direction} {u v w : Value} (h : d.Places u v)
    (h' : d.Places v w) : d.Places u w := by
  cases d with
  | ascending => exact Value.AtMost.trans h h'
  | descending => exact Value.AtMost.trans h' h

theorem Direction.places_total (d : Direction) (v w : Value) : d.Places v w ∨ d.Places w v := by
  cases d with
  | ascending => exact Value.atMost_total v w
  | descending => exact Value.atMost_total w v

theorem Direction.Places.key_eq {d : Direction} {v w : Value} (h : d.Places v w)
    (h' : d.Places w v) : v.key = w.key := by
  cases d with
  | ascending => exact Value.AtMost.key_eq h h'
  | descending => exact Value.AtMost.key_eq h' h

def Order.Places : Order → Row → Row → Prop
  | random, _, _ => True
  | .by f d, x, y => d.Places (x.get f.column) (y.get f.column)

end Lexiquery
