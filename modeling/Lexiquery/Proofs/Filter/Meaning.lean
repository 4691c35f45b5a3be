import Lexiquery.Proofs.Filter.NormalForm
import Lexiquery.Proofs.Relation

/-! What a filter says of a record. Every child of a group is judged on its own, and what vanishes
when the filter is compacted says nothing. -/

namespace Lexiquery

def Test.Holds (a : Affinity) (v : Value) : Test → Prop
  | integer t n => t.operator.holds v (t.operator.operand a (.integer n)) = true
  | boolean b => Operator.equals.holds v (a.apply (Binding.ofBool b).value) = true
  | string t s => t.operator.holds v (t.operator.operand a (.text s)) = true
  | null t => t.holds v = true

instance (a : Affinity) (v : Value) : DecidablePred (Test.Holds a v)
  | .integer .. | .boolean .. | .string .. | .null .. => inferInstanceAs (Decidable (_ = true))

def Along (store : Store) : List Relationship → (Row → Prop) → Row → Prop
  | [], P, x => P x
  | r :: hops, P, x => ∃ y, r.Relates store x y ∧ Along store hops P y

theorem Along.mono {store : Store} {hops : List Relationship} {P Q : Row → Prop} {x : Row}
    (h : ∀ y, P y → Q y) (hp : Along store hops P x) : Along store hops Q x := by
  induction hops generalizing x with
  | nil => exact h x hp
  | cons r hops ih =>
    obtain ⟨y, hy, hp⟩ := hp
    exact ⟨y, hy, ih hp⟩

namespace Filter

def Vanishes (f : Filter) : Prop := f.compact = empty

instance (f : Filter) : Decidable f.Vanishes :=
  decidable_of_iff (f.compact.isEmpty = true) isEmpty_iff

variable (store : Store)

mutual

/-- Whether a filter holds of a record of kind `k`. A clause on another kind holds if the path to it
leads to some row of which it holds. -/
def Holds : Filter → Kind → Row → Prop
  | empty, _, _ => True
  | test f t, k, x => Along store (Schema.path k f.kind)
      (fun y => t.Holds (store.affinity f.kind.table f.column) (y.get f.column)) x
  | link r t condition, k, x => Along store (Schema.path k r.kind)
      (r.Asks store t (condition.Holds r.far)) x
  | group .and fs, k, x => HoldsAll fs k x
  | group .or fs, k, x => (group .or fs).Vanishes ∨ HoldsAny fs k x

def HoldsAll : List Filter → Kind → Row → Prop
  | [], _, _ => True
  | f :: fs, k, x => f.Holds k x ∧ HoldsAll fs k x

def HoldsAny : List Filter → Kind → Row → Prop
  | [], _, _ => False
  | f :: fs, k, x => (¬ f.Vanishes ∧ f.Holds k x) ∨ HoldsAny fs k x

end

variable {store} {k : Kind} {x : Row}

theorem holdsAll_iff {fs : List Filter} : HoldsAll store fs k x ↔ ∀ f ∈ fs, f.Holds store k x := by
  induction fs with
  | nil => simp [HoldsAll]
  | cons f fs ih => simp [HoldsAll, ih]

theorem holdsAny_iff {fs : List Filter} :
    HoldsAny store fs k x ↔ ∃ f ∈ fs, ¬ f.Vanishes ∧ f.Holds store k x := by
  induction fs with
  | nil => simp [HoldsAny]
  | cons f fs ih => simp [HoldsAny, ih]

theorem holds_and {fs : List Filter} :
    (group .and fs).Holds store k x ↔ ∀ f ∈ fs, f.Holds store k x := holdsAll_iff

theorem holds_or {fs : List Filter} : (group .or fs).Holds store k x ↔
    (group .or fs).Vanishes ∨ ∃ f ∈ fs, ¬ f.Vanishes ∧ f.Holds store k x :=
  or_congr_right holdsAny_iff

theorem holds_test {f : Field} {t : Test} (h : f.kind = k) : (test f t).Holds store k x ↔
    t.Holds (store.affinity k.table f.column) (x.get f.column) := by
  subst h
  simp [Holds, Along]

theorem holds_link {r : Relationship} {t : LinkTest} {condition : Filter} (h : r.kind = k) :
    (link r t condition).Holds store k x ↔ r.Asks store t (condition.Holds store r.far) x := by
  subst h
  simp [Holds, Along]

@[simp] theorem vanishes_empty : empty.Vanishes := rfl

@[simp] theorem not_vanishes_test {f : Field} {t : Test} : ¬ (test f t).Vanishes := nofun

@[simp] theorem not_vanishes_link {r : Relationship} {t : LinkTest} {condition : Filter} :
    ¬ (link r t condition).Vanishes := nofun

@[simp] theorem vanishes_group {c : Connective} {fs : List Filter} :
    (group c fs).Vanishes ↔ ∀ f ∈ fs, f.Vanishes := by
  have : compactAll fs = [] ↔ ∀ f ∈ fs, f.Vanishes := by
    simp [compactAll_eq, List.filter_eq_nil_iff, isEmpty_iff, Vanishes]
  rw [← this, Vanishes]
  by_cases h : compactAll fs = []
  · simp [compact, h]
  · simp [compact_group_of_ne h, h]

@[simp] theorem vanishes_compact {f : Filter} : f.compact.Vanishes ↔ f.Vanishes := by
  rw [Vanishes, compact_compact, Vanishes]

theorem Compacted.not_vanishes {f : Filter} (h : f.Compacted) (hne : f ≠ .empty) :
    ¬ f.Vanishes := by
  rwa [Vanishes, h.compact_eq]

theorem Vanishes.holds {f : Filter} (h : f.Vanishes) : f.Holds store k x := by
  induction f using induction with
  | empty => trivial
  | test => exact absurd h not_vanishes_test
  | link => exact absurd h not_vanishes_link
  | group c fs ih =>
    cases c with
    | and => exact holds_and.2 fun f hf => ih f hf (vanishes_group.1 h f hf)
    | or => exact .inl h

theorem holds_compact {f : Filter} : f.compact.Holds store k x ↔ f.Holds store k x := by
  induction f using induction generalizing k x with
  | empty => rfl
  | test => rfl
  | link r t condition ih =>
    have : condition.compact.Holds store r.far = condition.Holds store r.far :=
      funext fun y => propext ih
    rw [compact, Holds, Holds, this]
  | group c fs ih =>
    by_cases h : (group c fs).Vanishes
    · exact iff_of_true ((vanishes_compact.2 h).holds) h.holds
    · have hne : compactAll fs ≠ [] := fun hc => h (by rw [Vanishes, compact, hc])
      rw [compact_group_of_ne hne]
      cases c with
      | and =>
        simp only [holds_and, mem_compactAll, and_imp, forall_exists_index]
        constructor
        · intro hc f hf
          by_cases hv : f.Vanishes
          · exact hv.holds
          · exact (ih f hf).1 (hc _ f hf rfl hv)
        · rintro hc _ f hf rfl -
          exact (ih f hf).2 (hc f hf)
      | or =>
        have hv : ¬ (group .or (compactAll fs)).Vanishes := by
          rwa [← compact_group_of_ne hne, vanishes_compact]
        simp only [holds_or, h, hv, false_or, mem_compactAll]
        constructor
        · rintro ⟨_, ⟨⟨f, hf, rfl⟩, _⟩, hv, hh⟩
          exact ⟨f, hf, mt vanishes_compact.2 hv, (ih f hf).1 hh⟩
        · rintro ⟨f, hf, hv, hh⟩
          exact ⟨_, ⟨⟨f, hf, rfl⟩, hv⟩, mt vanishes_compact.1 hv, (ih f hf).2 hh⟩

end Filter

end Lexiquery
