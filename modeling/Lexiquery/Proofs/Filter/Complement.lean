import Lexiquery.Proofs.Filter.Guarded
import Lexiquery.Proofs.Filter.Merging
import Lexiquery.Proofs.Filter.Negation

/-! Negation as complement. No record is let in by a filter and by its negation. One may be let in
by neither: a test of a null holds as little as its negation, and a record that some alternative
finds no related row for is lost to all of them. Where no test meets a null and no alternative joins
rows, every record is let in by one of the two. -/

namespace Lexiquery

namespace Operator

def negate : Operator → Operator
  | equals => differs
  | differs => equals
  | atLeast => lessThan
  | lessThan => atLeast
  | greaterThan => atMost
  | atMost => greaterThan
  | like => notLike
  | notLike => like

theorem operand_negate (op : Operator) : op.negate.operand = op.operand := by
  cases op <;> rfl

theorem holds_negate (op : Operator) (v w : Value) :
    op.negate.holds v w = (!(v.isNull || w.isNull) && !op.holds v w) := by
  cases hn : v.isNull || w.isNull with
  | true => simp [holds, hn]
  | false => cases op <;> simp [negate, holds, hn, bne]

theorem not_holds_negate {op : Operator} {v w : Value} (h : op.holds v w = true) :
    ¬ op.negate.holds v w = true := by
  simp [holds_negate, h]

theorem holds_or_holds_negate (op : Operator) {v w : Value} (hv : v.isNull = false)
    (hw : w.isNull = false) : op.holds v w = true ∨ op.negate.holds v w = true := by
  rw [holds_negate, hv, hw]
  cases op.holds v w <;> simp

end Operator

theorem IntegerTest.operator_negate (t : IntegerTest) : t.negate.operator = t.operator.negate := by
  cases t <;> rfl

theorem StringTest.operator_negate (t : StringTest) : t.negate.operator = t.operator.negate := by
  cases t <;> rfl

theorem NullTest.holds_negate (t : NullTest) (v : Value) : t.negate.holds v = !t.holds v := by
  cases t <;> simp [negate, holds]

theorem Value.isNull_ofReal (q : Rat) : (ofReal q).isNull = false := by
  rw [ofReal]
  split <;> rfl

theorem Value.isNull_ofNumeral (n : Numeral) : (ofNumeral n).isNull = false := by
  rw [ofNumeral]
  split
  · rfl
  · exact isNull_ofReal _

theorem Affinity.isNull_apply (a : Affinity) (v : Value) : (a.apply v).isNull = v.isNull := by
  cases a with
  | text => cases v <;> rfl
  | integer =>
    cases v with
    | text s =>
      rw [apply]
      cases Numeral.ofText? s with
      | none => rfl
      | some n => exact Value.isNull_ofNumeral n
    | real q => exact Value.isNull_ofReal q
    | null | integer | garbled | blob => rfl

theorem Operator.isNull_operand (op : Operator) (a : Affinity) (v : Value) :
    (op.operand a v).isNull = v.isNull := by
  cases op <;> first | exact a.isNull_apply v | rfl

namespace Test

variable {a : Affinity} {v : Value} {t : Test}

theorem not_holds_negate (h : t.Holds a v) : ¬ t.negate.Holds a v := by
  cases t with
  | integer t n =>
    rw [negate, Holds, IntegerTest.operator_negate, Operator.operand_negate]
    exact Operator.not_holds_negate h
  | string t s =>
    rw [negate, Holds, StringTest.operator_negate, Operator.operand_negate]
    exact Operator.not_holds_negate h
  | null t => simpa [Holds, negate, NullTest.holds_negate] using h
  | boolean b =>
    intro h'
    have hk : (a.apply (Binding.ofBool b).value).key = (a.apply (Binding.ofBool !b).value).key :=
      (Value.Equals.key_eq h).symm.trans (Value.Equals.key_eq h')
    rw [← Value.order_eq_iff] at hk
    cases a <;> cases b <;> exact absurd hk (by decide)

theorem holds_or_holds_negate (hv : v ≠ .null)
    (hb : ∀ b, t = boolean b → a = .integer ∧ (v = .integer 0 ∨ v = .integer 1)) :
    t.Holds a v ∨ t.negate.Holds a v := by
  have hn : v.isNull = false := Bool.eq_false_iff.2 (mt Value.isNull_iff.1 hv)
  cases t with
  | integer t n =>
    rw [negate, Holds, Holds, IntegerTest.operator_negate, Operator.operand_negate]
    exact Operator.holds_or_holds_negate _ hn (Operator.isNull_operand _ _ _)
  | string t s =>
    rw [negate, Holds, Holds, StringTest.operator_negate, Operator.operand_negate]
    exact Operator.holds_or_holds_negate _ hn (Operator.isNull_operand _ _ _)
  | null t =>
    rw [negate, Holds, Holds, NullTest.holds_negate]
    cases t.holds v <;> simp
  | boolean b =>
    obtain ⟨rfl, rfl | rfl⟩ := hb b rfl <;> cases b <;> decide

end Test

theorem Relationship.asks_negate {store : Store} {r : Relationship} {t : LinkTest} {P : Row → Prop}
    {x : Row} : r.Asks store t.negate P x ↔ ¬ r.Asks store t P x := by
  cases t <;> simp [LinkTest.negate, Asks]

namespace Filter

variable {store : Store} {k : Kind} {x : Row}

theorem not_yields_negated {f : Filter} (hc : f.Compacted) (hne : f ≠ empty)
    (h : f.Yields store x true) : ¬ f.negated.Yields store x true := by
  induction hc with
  | empty => contradiction
  | test => simpa [Yields, negated] using Test.not_holds_negate (by simpa [Yields] using h)
  | link =>
    rw [negated, yields_link, Relationship.asks_negate]
    exact not_not_intro (yields_link.1 h)
  | @group c fs hfs hne' _ ih =>
    have hneg : fs.map negated ≠ [] := by simpa using hfs
    rw [negated, negatedAll_eq]
    cases c with
    | and =>
      rw [Connective.flip, yields_or hneg]
      rintro ⟨-, _, hm, hy⟩
      obtain ⟨g, hg, rfl⟩ := List.mem_map.1 hm
      exact ih g hg (hne' g hg) (yields_and.1 h g hg) hy
    | or =>
      obtain ⟨-, g, hg, hy⟩ := (yields_or hfs).1 h
      rw [Connective.flip, yields_and, List.forall_mem_map]
      exact fun hn => ih g hg (hne' g hg) hy (hn g hg)

variable (store k) in
/-- A link that asks for a related row, or a test of a column in which no record of the kind has a
null, nor anything but 0 and 1 if it is boolean. -/
def Determinate : Filter → Prop
  | link _ t _ => t.isPositive = true
  | test f _ => ∀ x ∈ store.records k, x.get f.column ≠ .null ∧
      (f.isBoolean = true → x.get f.column = .integer 0 ∨ x.get f.column = .integer 1)
  | empty | group .. => False

variable (store k) in
/-- Whether the filter is one link, or asks for determinate clauses only, and for all of them. -/
def Exhaustive : Filter → Prop
  | link .. => True
  | group .and fs => ∀ f ∈ fs, f.Determinate store k
  | empty | test .. | group .or _ => False

theorem determinate_insert {f : Filter} {c : Connective} {ss : List Sibling}
    (hu : ∀ s ∈ ss, s.Under c) (hf : f.Determinate store k)
    (hss : ∀ s ∈ ss, s.toFilter.Determinate store k) :
    ∀ s ∈ Sibling.insert f c ss, s.toFilter.Determinate store k := by
  refine Sibling.insert_induction (motive := fun f _ ss ss' => f.Determinate store k →
    (∀ s ∈ ss, s.toFilter.Determinate store k) → ∀ s ∈ ss', s.toFilter.Determinate store k)
    ?_ ?_ ?_ f c ss hu hf hss
  · intro f c ss _ hf hss
    simpa [or_imp, forall_and, Sibling.toFilter, hf] using hss
  · intro r s t condition first c before after _ _ _ _ _ hss
    simpa [or_imp, forall_and, Sibling.toFilter, Determinate] using hss
  · intro r s t condition conditions c before after _ _ _ _ _ hss
    simpa [or_imp, forall_and, Sibling.toFilter, Determinate] using hss

theorem determinate_mergeSiblings {c : Connective} {fs : List Filter}
    (h : ∀ f ∈ fs, f.Determinate store k) : ∀ f ∈ mergeSiblings c fs, f.Determinate store k := by
  obtain ⟨ss, hss, hm⟩ := mergeSiblings_induction (c := c)
    (motive := fun fs ss => (∀ f ∈ fs, f.Determinate store k) →
      ∀ s ∈ ss, s.toFilter.Determinate store k)
    (by simp) (fun f fs ss hu ih h => by
      simp only [List.forall_mem_append, List.forall_mem_singleton] at h
      exact determinate_insert hu h.2 (ih h.1)) fs
  rw [hss, List.forall_mem_map]
  exact hm h

theorem Determinate.normalize {f : Filter} (h : f.Determinate store k) (hk : f.foreign? k = none) :
    (f.normalize k).Determinate store k := by
  match f with
  | link r t condition =>
    obtain rfl : r.kind = k := by simpa [foreign?] using hk
    rw [Filter.normalize, Schema.path_self]
    exact h
  | test f t =>
    obtain rfl : f.kind = k := by simpa [foreign?] using hk
    simpa [Filter.normalize, along] using h

theorem Determinate.compact {f : Filter} (h : f.Determinate store k) :
    f.compact.Determinate store k := by
  match f with
  | link .. | test .. => exact h

theorem Determinate.unjoined_negated {f : Filter} (h : f.Determinate store k) :
    f.negated.Unjoined := by
  match f with
  | link r t condition =>
    have ht : t.isPositive = true := h
    exact .link (by simp [ht])
  | test .. => exact .test

theorem Determinate.yields {f : Filter} (h : f.Determinate store k) (hs : store.Lexical)
    (hn : f.Normal k) (hf : f.OverSchema) (hw : f.WellFormed) (hx : x ∈ store.records k) :
    f.Yields store x true ∨ f.negated.Yields store x true := by
  match f with
  | link r t condition =>
    rw [negated, yields_link, yields_link, Relationship.asks_negate]
    exact em _
  | test f t =>
    obtain rfl := normal_test_iff.1 hn
    obtain ⟨hv, hb⟩ := h x hx
    simp only [Yields, negated, true_iff]
    refine Test.holds_or_holds_negate hv fun b ht => ?_
    have hfb : f.isBoolean = true := by
      cases hw with
      | test ha => rwa [ht] at ha
    exact ⟨hs.affinity_of_isIntegral ((every_test.1 hf).isIntegral_of_isBoolean hfb), hb hfb⟩

theorem yields_group_of_determinate {fs : List Filter} (hfs : fs ≠ []) (hs : store.Lexical)
    (hd : ∀ f ∈ fs, f.Determinate store k) (hn : ∀ f ∈ fs, f.Normal k)
    (hf : ∀ f ∈ fs, f.OverSchema) (hw : ∀ f ∈ fs, f.WellFormed) (hx : x ∈ store.records k) :
    (group .and fs).Yields store x true ∨ (group .and fs).negated.Yields store x true := by
  by_cases h : ∀ f ∈ fs, f.Yields store x true
  · exact .inl (yields_and.2 h)
  · -- negated, the links to related rows join nothing, so one alternative is enough
    obtain ⟨f, hm, hy⟩ := not_forall₂.1 h
    have hneg : fs.map negated ≠ [] := by simpa using hfs
    have hu : ∀ f ∈ fs.map negated, f.Unjoined :=
      List.forall_mem_map.2 fun f hm => (hd f hm).unjoined_negated
    refine .inr ?_
    rw [negated, negatedAll_eq, Connective.flip, yields_or_of_unjoined hneg fun _ => hu]
    exact ⟨_, List.mem_map_of_mem hm,
      ((hd f hm).yields hs (hn f hm) (hf f hm) (hw f hm) hx).resolve_left hy⟩

theorem resolve_ne_empty {f : Filter} (hv : ¬ f.Vanishes) : f.resolve k ≠ empty :=
  fun h => hv (vanishes_normalize.1 h)

theorem yields_resolve_of_determinate {fs : List Filter}
    (hd : ∀ f ∈ fs, f.Determinate store k) (hs : store.Lexical) (hw : (group .and fs).WellFormed)
    (hf : (group .and fs).OverSchema) (hv : ¬ (group .and fs).Vanishes)
    (hk : (group .and fs).foreign? k = none) (hx : x ∈ store.records k) :
    ((group .and fs).resolve k).Yields store x true ∨
      ((group .and fs).resolve k).negated.Yields store x true := by
  have hd : ∀ f ∈ compactAll (mergeSiblings .and (normalizeAll fs k)), f.Determinate store k := by
    intro f hf
    obtain ⟨⟨g, hg, rfl⟩, -⟩ := mem_compactAll.1 hf
    refine (determinate_mergeSiblings ?_ g hg).compact
    rw [normalizeAll_eq, List.forall_mem_map]
    exact fun f hm => (hd f hm).normalize (foreignAny?_eq_none.1 hk f hm)
  have hne : compactAll (mergeSiblings .and (normalizeAll fs k)) ≠ [] := fun hc =>
    resolve_ne_empty hv (by rw [resolve, normalize, compact, hc])
  have hg : (group .and fs).resolve k =
      group .and (compactAll (mergeSiblings .and (normalizeAll fs k))) := by
    rw [resolve, normalize, compact_group_of_ne hne]
  have hn := (group .and fs).normal_resolve k
  have hf := ((hw.sound hf).resolve k).overSchema
  have hw := hw.resolve k
  rw [hg] at hn hf hw ⊢
  exact yields_group_of_determinate hne hs hd (normal_group_iff.1 hn).1 (every_group.1 hf)
    (wellFormed_group.1 hw) hx

theorem Exhaustive.yields {f : Filter} (h : f.Exhaustive store k) (hs : store.Lexical)
    (hw : f.WellFormed) (hf : f.OverSchema) (hv : ¬ f.Vanishes) (hk : f.foreign? k = none)
    (hx : x ∈ store.records k) :
    (f.resolve k).Yields store x true ∨ (f.resolve k).negated.Yields store x true := by
  cases f with
  | empty => exact h.elim
  | test => exact h.elim
  | link r t condition =>
    obtain rfl : r.kind = k := by simpa [foreign?] using hk
    rw [resolve, normalize, Schema.path_self, along, List.foldr_nil, compact, negated, yields_link,
      yields_link, Relationship.asks_negate]
    exact em _
  | group c fs =>
    cases c with
    | and => exact yields_resolve_of_determinate h hs hw hf hv hk hx
    | or => exact h.elim

end Filter

end Lexiquery
