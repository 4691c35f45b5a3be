import Lexiquery.Metrics.Report

/-! What the counters come to when events are recorded one after the other. -/

namespace Lexiquery

def sumOf {α : Type} (f : α → Nat) (as : List α) : Nat :=
  as.foldr (fun a n => f a + n) 0

theorem sumOf_add {α : Type} (f g : α → Nat) (as : List α) :
    sumOf (fun a => f a + g a) as = sumOf f as + sumOf g as := by
  induction as with
  | nil => rfl
  | cons a as ih =>
    simp only [sumOf, List.foldr_cons] at ih ⊢
    omega

theorem le_sumOf {α : Type} (f : α → Nat) {as : List α} {a : α} (h : a ∈ as) :
    f a ≤ sumOf f as := by
  induction as with
  | nil => cases h
  | cons b as ih =>
    simp only [sumOf, List.foldr_cons] at ih ⊢
    cases h with
    | head => omega
    | tail _ h => have := ih h; omega

theorem sumOf_congr {α : Type} {f g : α → Nat} {as : List α} (h : ∀ a ∈ as, f a = g a) :
    sumOf f as = sumOf g as := by
  induction as with
  | nil => rfl
  | cons a as ih =>
    simp only [sumOf, List.foldr_cons] at ih ⊢
    rw [h a List.mem_cons_self, ih fun b hb => h b (List.mem_cons_of_mem _ hb)]

theorem sumOf_filterMap {α β : Type} (f : β → Nat) (g : α → Option β) (as : List α) :
    sumOf f (as.filterMap g) = sumOf (fun a => (g a).elim 0 f) as := by
  induction as with
  | nil => rfl
  | cons a as ih =>
    simp only [List.filterMap_cons]
    cases h : g a with
    | none => simpa [sumOf, h] using ih
    | some b => simpa [sumOf, h] using ih

namespace Count

/-- What a counter shows once that many have been counted. -/
def ofSum (n : Nat) : Count := if n < UInt64.size then .ofNat n else Count.max

theorem toNat_max : Count.max.toNat = UInt64.size - 1 := rfl

theorem add_zero (c : Count) : c.add 0 = c := by
  rw [add, if_pos (by simpa using c.toNat_lt_size)]
  simp

theorem toNat_ofSum_of_lt {n : Nat} (h : n < UInt64.size) : (ofSum n).toNat = n := by
  rw [ofSum, if_pos h, UInt64.toNat_ofNat_of_lt' h]

theorem lt_of_ofSum_ne {n : Nat} (h : ofSum n ≠ Count.max) : n < UInt64.size := by
  by_cases lt : n < UInt64.size
  · exact lt
  · exact absurd (if_neg lt) h

theorem add_ofSum (n m : Nat) : (ofSum n).add m = ofSum (n + m) := by
  by_cases lt : n < UInt64.size
  · rw [add, toNat_ofSum_of_lt lt]
    simp only [ofSum, if_pos lt, UInt64.ofNat_add]
  · have top : ofSum n = Count.max := if_neg lt
    have exceeded : ofSum (n + m) = Count.max := if_neg (by omega)
    rw [top, exceeded]
    by_cases zero : m = 0
    · rw [zero, add_zero]
    · refine if_neg ?_
      rw [toNat_max]
      omega

end Count

namespace Event

def joins : Event → Nat
  | statementCompiled _ joins _ => joins
  | _ => 0

def ctes : Event → Nat
  | statementCompiled _ _ ctes => ctes
  | _ => 0

def databaseErrors : Event → Nat
  | databaseError _ => 1
  | _ => 0

end Event

namespace Totals

variable (t : Totals) (e : Event)

theorem joinsEmitted_record : (t.record e).joinsEmitted = t.joinsEmitted.add e.joins := by
  cases e <;> simp [record, Event.joins, Count.add_zero]

theorem ctesEmitted_record : (t.record e).ctesEmitted = t.ctesEmitted.add e.ctes := by
  cases e <;> simp [record, Event.ctes, Count.add_zero]

theorem databaseErrors_record :
    (t.record e).databaseErrors = t.databaseErrors.add e.databaseErrors := by
  cases e <;> simp [record, Event.databaseErrors, Count.add_zero]

end Totals

inductive Tally
  | statementsCompiled
  | queriesExecuted
  | rowsLoaded
  | emptyFirst
  | hydrations

namespace Tally

def total : Tally → Totals → Count
  | statementsCompiled, t => t.statementsCompiled
  | queriesExecuted, t => t.queriesExecuted
  | rowsLoaded, t => t.rowsLoaded
  | emptyFirst, t => t.emptyFirst
  | hydrations, t => t.hydrations

def ofKind : Tally → KindCounters → Count
  | statementsCompiled, c => c.statementsCompiled
  | queriesExecuted, c => c.queriesExecuted
  | rowsLoaded, c => c.rowsLoaded
  | emptyFirst, c => c.emptyFirst
  | hydrations, c => c.hydrations

def amount : Tally → Event → Nat
  | statementsCompiled, .statementCompiled .. => 1
  | queriesExecuted, .queryStart _ => 1
  | rowsLoaded, .queryFinish _ rows => rows
  | emptyFirst, .emptyFirst _ => 1
  | hydrations, .hydration _ => 1
  | _, _ => 0

theorem total_record (tally : Tally) (t : Totals) (e : Event) :
    tally.total (t.record e) = (tally.total t).add (tally.amount e) := by
  cases tally <;> cases e <;> simp [total, Totals.record, amount, Count.add_zero]

theorem ofKind_record (tally : Tally) (c : KindCounters) (e : Event) :
    tally.ofKind (c.record e) = (tally.ofKind c).add (tally.amount e) := by
  cases tally <;> cases e <;> simp [ofKind, KindCounters.record, amount, Count.add_zero]

theorem amount_of_not_isPerKind (tally : Tally) {e : Event} (h : Counters.isPerKind e = false) :
    tally.amount e = 0 := by
  cases e with
  | databaseError k => cases tally <;> rfl
  | _ => simp [Counters.isPerKind] at h

end Tally

namespace Counters

theorem lookup_setKind (kinds : List (Kind × KindCounters)) (k l : Kind) (c : KindCounters) :
    (setKind kinds k c).lookup l = if k = l then some c else kinds.lookup l := by
  have alone (m : Kind) (d : KindCounters) (rest : List (Kind × KindCounters)) :
      ((m, d) :: rest).lookup l = if m = l then some d else rest.lookup l := by
    by_cases h : m = l
    · simp [h]
    · simp [List.lookup_cons, h, beq_eq_false_iff_ne.mpr (Ne.symm h)]
  induction kinds with
  | nil => rw [setKind, alone]
  | cons first rest ih =>
    obtain ⟨m, d⟩ := first
    rw [setKind, alone m d]
    by_cases hm : m = k
    · subst hm
      rw [if_pos rfl, alone]
      by_cases h : m = l <;> simp [h]
    · rw [if_neg hm, alone, ih]
      by_cases h : m = l
      · simp [h, Ne.symm (h ▸ hm)]
      · simp [h]

theorem ofKind?_record (c : Counters) (e : Event) (k : Kind) :
    (c.record e).ofKind? k =
      if isPerKind e ∧ e.kind = k then some (((c.ofKind? k).getD {}).record e)
      else c.ofKind? k := by
  cases per : isPerKind e with
  | false => simp [ofKind?, record, per]
  | true =>
    simp only [ofKind?, record, per, if_pos, lookup_setKind, true_and]
    by_cases h : e.kind = k
    · simp [h]
    · simp [h]

def ofKind (c : Counters) (tally : Tally) (k : Kind) : Count :=
  tally.ofKind ((c.ofKind? k).getD {})

theorem ofKind_record (c : Counters) (tally : Tally) (e : Event) (k : Kind) :
    (c.record e).ofKind tally k =
      (c.ofKind tally k).add (if e.kind = k then tally.amount e else 0) := by
  rw [ofKind, ofKind?_record]
  by_cases h : e.kind = k
  · cases per : isPerKind e with
    | false =>
      simp [ofKind, tally.amount_of_not_isPerKind per, Count.add_zero]
    | true => simp [h, ofKind, Tally.ofKind_record]
  · simp [h, ofKind, Count.add_zero]

theorem total_recordAll {total : Totals → Count} {amount : Event → Nat}
    (step : ∀ t e, total (t.record e) = (total t).add (amount e)) (es : List Event) {c : Counters}
    {n : Nat} (h : total c.totals = .ofSum n) :
    total (c.recordAll es).totals = .ofSum (n + sumOf amount es) := by
  induction es generalizing c n with
  | nil => exact h
  | cons e es ih =>
    have first : total (c.record e).totals = .ofSum (n + amount e) := by
      rw [show (c.record e).totals = c.totals.record e from rfl, step, h, Count.add_ofSum]
    rw [show c.recordAll (e :: es) = (c.record e).recordAll es from rfl, ih first]
    simp [sumOf, Nat.add_assoc]

theorem ofKind_recordAll (tally : Tally) (k : Kind) (es : List Event) {c : Counters} {n : Nat}
    (h : c.ofKind tally k = .ofSum n) :
    (c.recordAll es).ofKind tally k =
      .ofSum (n + sumOf (fun e => if e.kind = k then tally.amount e else 0) es) := by
  induction es generalizing c n with
  | nil => exact h
  | cons e es ih =>
    have step : (c.record e).ofKind tally k =
        .ofSum (n + if e.kind = k then tally.amount e else 0) := by
      rw [ofKind_record, h, Count.add_ofSum]
    rw [show c.recordAll (e :: es) = (c.record e).recordAll es from rfl, ih step]
    simp [sumOf, Nat.add_assoc]

theorem isSome_ofKind?_recordAll (k : Kind) (es : List Event) (c : Counters) :
    ((c.recordAll es).ofKind? k).isSome =
      ((c.ofKind? k).isSome || es.any fun e => isPerKind e && e.kind = k) := by
  induction es generalizing c with
  | nil => simp [recordAll]
  | cons e es ih =>
    rw [show c.recordAll (e :: es) = (c.record e).recordAll es from rfl, ih, ofKind?_record]
    by_cases h : isPerKind e ∧ e.kind = k
    · simp [h]
    · have : (isPerKind e && decide (e.kind = k)) = false := by simpa using h
      simp [h, this]

end Counters

theorem sumOf_kinds (k : Kind) (n : Nat) :
    sumOf (fun l => if k = l then n else 0) Kind.all = n := by
  cases k <;> simp [sumOf, Kind.all]

theorem sumOf_kinds_sumOf (f : Event → Nat) (es : List Event) :
    sumOf (fun k => sumOf (fun e => if e.kind = k then f e else 0) es) Kind.all = sumOf f es := by
  induction es with
  | nil => rfl
  | cons e es ih =>
    calc
      sumOf (fun k => sumOf (fun e => if e.kind = k then f e else 0) (e :: es)) Kind.all =
          sumOf (fun k => if e.kind = k then f e else 0) Kind.all +
            sumOf (fun k => sumOf (fun e => if e.kind = k then f e else 0) es) Kind.all :=
        sumOf_add _ _ _
      _ = f e + sumOf f es := by rw [sumOf_kinds, ih]

namespace Counters

theorem sumOf_entries (c : Counters) (tally : Tally) :
    sumOf (fun (_, d) => (tally.ofKind d).toNat) c.entries =
      sumOf (fun k => (c.ofKind tally k).toNat) Kind.all := by
  rw [entries, sumOf_filterMap]
  refine sumOf_congr fun k _ => ?_
  cases h : c.ofKind? k with
  | none => cases tally <;> simp [ofKind, h, Tally.ofKind]
  | some d => simp [ofKind, h]

section

variable (es : List Event)

theorem total_eq {total : Totals → Count} {amount : Event → Nat}
    (step : ∀ t e, total (t.record e) = (total t).add (amount e)) (zero : total {} = 0) :
    total (recordAll {} es).totals = .ofSum (sumOf amount es) := by
  have := total_recordAll step es (c := {}) (n := 0) zero
  rwa [Nat.zero_add] at this

theorem ofKind_eq (tally : Tally) (k : Kind) : (recordAll {} es).ofKind tally k =
    .ofSum (sumOf (fun e => if e.kind = k then tally.amount e else 0) es) := by
  have := ofKind_recordAll tally k es (c := {}) (n := 0) (by cases tally <;> rfl)
  rwa [Nat.zero_add] at this

end

theorem tally_eq (tally : Tally) (es : List Event) :
    tally.total (recordAll {} es).totals = .ofSum (sumOf tally.amount es) :=
  total_eq es tally.total_record (by cases tally <;> rfl)

/-- A total that has not reached the greatest count is the sum of the counts of the kinds. -/
theorem toNat_total_recordAll (tally : Tally) (es : List Event)
    (h : tally.total (recordAll {} es).totals ≠ Count.max) :
    (tally.total (recordAll {} es).totals).toNat =
      sumOf (fun (_, d) => (tally.ofKind d).toNat) (recordAll {} es).entries := by
  rw [tally_eq] at h
  have bound (k : Kind) :
      sumOf (fun e => if e.kind = k then tally.amount e else 0) es < UInt64.size :=
    calc
      sumOf (fun e => if e.kind = k then tally.amount e else 0) es ≤ sumOf tally.amount es := by
        rw [← sumOf_kinds_sumOf tally.amount es]
        exact le_sumOf (fun k => sumOf (fun e => if e.kind = k then tally.amount e else 0) es)
          (Kind.mem_all k)
      _ < UInt64.size := Count.lt_of_ofSum_ne h
  rw [tally_eq, Count.toNat_ofSum_of_lt (Count.lt_of_ofSum_ne h), sumOf_entries,
    ← sumOf_kinds_sumOf]
  exact sumOf_congr fun k _ => by rw [ofKind_eq, Count.toNat_ofSum_of_lt (bound k)]

theorem kinds_entries (c : Counters) :
    c.entries.map (·.1) = Kind.all.filter fun k => (c.ofKind? k).isSome := by
  rw [entries]
  induction Kind.all with
  | nil => rfl
  | cons k ks ih => cases h : c.ofKind? k <;> simp [h, ih]

theorem kinds_summaries_recordAll (es : List Event) :
    (recordAll {} es).summaries.map (·.kind) =
      Kind.all.filter fun k => es.any fun e => isPerKind e && e.kind = k := by
  have summarized (c : Counters) : c.summaries.map (·.kind) = c.entries.map (·.1) := by
    simp [summaries]
  rw [summarized, kinds_entries]
  refine List.filter_congr fun k _ => ?_
  rw [isSome_ofKind?_recordAll]
  simp [ofKind?]

end Counters

end Lexiquery
