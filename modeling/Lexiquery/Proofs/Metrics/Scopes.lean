import Mathlib.Data.List.Nodup
import Lexiquery.Metrics.Sinks
import Lexiquery.Proofs.Metrics.Totals

/-! Scopes that take the events recorded inside them, however they are left, and what the
counters are left with. -/

namespace Lexiquery

inductive Moment
  | record (e : Event)
  | reset
  | enter
  | leave

/-- What has happened on a thread, the latest first. -/
abbrev Past := List Moment

def Sinks.after (s : Sinks) : Moment → Sinks
  | .record e => s.record e
  | .reset => s.reset
  | .enter => s.openCapture
  | .leave => s.closeCapture.2

namespace Past

def sinks : Past → Sinks
  | [] => {}
  | m :: past => (sinks past).after m

/-- The open scopes, the innermost first. A scope is known by the number of moments before it. -/
def scopes : Past → List Nat
  | [] => []
  | .enter :: past => past.length :: scopes past
  | .leave :: past => (scopes past).tail
  | .record _ :: past | .reset :: past => scopes past

def left : Past → List Nat
  | [] => []
  | .leave :: past => (scopes past).take 1 ++ left past
  | .enter :: past | .record _ :: past | .reset :: past => left past

def recorded : Past → List Event
  | [] => []
  | .record e :: past => recorded past ++ [e]
  | .enter :: past | .leave :: past | .reset :: past => recorded past

/-- The events recorded, each with the innermost scope that was open. -/
def deliveries : Past → List (Option Nat × Event)
  | [] => []
  | .record e :: past => deliveries past ++ [((scopes past).head?, e)]
  | .enter :: past | .leave :: past | .reset :: past => deliveries past

def deliveredTo (past : Past) (scope : Nat) : List Event :=
  past.deliveries.filterMap fun (sink, e) => if sink = some scope then some e else none

/-- The events recorded outside all scopes since the last reset. -/
def counted : Past → List Event
  | [] => []
  | .record e :: past => if scopes past = [] then counted past ++ [e] else counted past
  | .reset :: _ => []
  | .enter :: past | .leave :: past => counted past

def handedOut : Past → List (Nat × List Event)
  | [] => []
  | .leave :: past =>
    (scopes past).head?.toList.map (·, (sinks past).closeCapture.1) ++ handedOut past
  | .enter :: past | .record _ :: past | .reset :: past => handedOut past

theorem scopes_leave (past : Past) :
    (scopes (.leave :: past) ++ left (.leave :: past)).Perm (scopes past ++ left past) := by
  cases h : scopes past with
  | nil => simp [scopes, left, h]
  | cons i is => simp [scopes, left, h]

theorem scopes_lt (past : Past) : ∀ i ∈ scopes past ++ left past, i < past.length := by
  induction past with
  | nil => simp [scopes, left]
  | cons m past ih =>
    intro i hi
    rw [List.length_cons]
    suffices i = past.length ∨ i ∈ scopes past ++ left past by
      rcases this with rfl | mem
      · omega
      · exact Nat.lt_succ_of_lt (ih i mem)
    cases m with
    | record e => exact .inr hi
    | reset => exact .inr hi
    | enter => simpa [scopes, left] using hi
    | leave => exact .inr ((scopes_leave past).mem_iff.mp hi)

theorem nodup_scopes (past : Past) : (scopes past ++ left past).Nodup := by
  induction past with
  | nil => exact List.nodup_nil
  | cons m past ih =>
    cases m with
    | record e => exact ih
    | reset => exact ih
    | enter =>
      refine List.nodup_cons.mpr ⟨fun mem => ?_, ih⟩
      exact Nat.lt_irrefl _ (scopes_lt past _ mem)
    | leave => exact (scopes_leave past).nodup_iff.mpr ih

theorem mem_scopes_of_delivered {past : Past} {i : Nat} {e : Event}
    (h : (some i, e) ∈ deliveries past) : i ∈ scopes past ++ left past := by
  induction past with
  | nil => cases h
  | cons m past ih =>
    cases m with
    | record f =>
      rcases List.mem_append.mp h with old | new
      · exact ih old
      · have inner : (scopes past).head? = some i := by
          simpa [eq_comm] using congrArg Prod.fst (List.mem_singleton.mp new)
        exact List.mem_append_left _ (List.mem_of_head? inner)
    | reset => exact ih h
    | enter => exact List.mem_cons_of_mem _ (ih h)
    | leave => exact (scopes_leave past).mem_iff.mpr (ih h)

theorem map_deliveries (past : Past) : (deliveries past).map (·.2) = recorded past := by
  induction past with
  | nil => rfl
  | cons m past ih => cases m <;> simp [deliveries, recorded, ih]

theorem deliveredTo_record (past : Past) (e : Event) (i : Nat) :
    deliveredTo (.record e :: past) i =
      deliveredTo past i ++ if (scopes past).head? = some i then [e] else [] := by
  by_cases h : (scopes past).head? = some i <;> simp [deliveredTo, deliveries, h]

theorem deliveredTo_fresh (past : Past) : deliveredTo past past.length = [] := by
  refine List.filterMap_eq_nil_iff.mpr fun (sink, e) mem => if_neg ?_
  rintro rfl
  exact Nat.lt_irrefl _ (scopes_lt past _ (mem_scopes_of_delivered mem))

theorem captures_sinks (past : Past) :
    (sinks past).captures = (scopes past).map (deliveredTo past) := by
  induction past with
  | nil => rfl
  | cons m past ih =>
    cases m with
    | record e =>
      have apart := (List.nodup_append.mp (nodup_scopes past)).1
      cases h : scopes past with
      | nil => simp [sinks, Sinks.after, Sinks.record, scopes, ih, h]
      | cons i is =>
        have outer : is.map (deliveredTo (.record e :: past)) = is.map (deliveredTo past) := by
          refine List.map_congr_left fun j mem => ?_
          have ne : i ≠ j := fun eq => (List.nodup_cons.mp (h ▸ apart)).1 (eq ▸ mem)
          simp [deliveredTo_record, h, ne]
        have inner : deliveredTo (.record e :: past) i = deliveredTo past i ++ [e] := by
          simp [deliveredTo_record, h]
        simp [sinks, Sinks.after, Sinks.record, scopes, ih, h, outer, inner]
    | reset => exact ih
    | enter =>
      rw [scopes, List.map_cons]
      exact congr (congrArg _ (deliveredTo_fresh past).symm) ih
    | leave =>
      rw [scopes, List.map_tail]
      exact congrArg List.tail ih

theorem handedOut_eq (past : Past) :
    handedOut past = (left past).map fun i => (i, deliveredTo past i) := by
  induction past with
  | nil => rfl
  | cons m past ih =>
    cases m with
    | record e =>
      refine ih.trans (List.map_congr_left fun i mem => ?_)
      have ne : (scopes past).head? ≠ some i := fun inner =>
        (List.nodup_append.mp (nodup_scopes past)).2.2 i (List.mem_of_head? inner) i mem rfl
      simp [deliveredTo_record, ne]
    | reset => exact ih
    | enter => exact ih
    | leave =>
      have held : (sinks past).closeCapture.1 =
          ((scopes past).map (deliveredTo past)).headD [] := by
        rw [← captures_sinks]
        rfl
      rw [handedOut, held, ih, left, List.map_append]
      congr 1
      cases scopes past <;> rfl

theorem counters_sinks (past : Past) :
    (sinks past).counters = Counters.recordAll {} (counted past) := by
  induction past with
  | nil => rfl
  | cons m past ih =>
    cases m with
    | record e =>
      have held := captures_sinks past
      cases h : scopes past with
      | nil =>
        have : (sinks past).captures = [] := by rw [held, h]; rfl
        simp [sinks, Sinks.after, Sinks.record, counted, this, h, ih, Counters.recordAll]
      | cons i is =>
        have : (sinks past).captures = deliveredTo past i :: is.map (deliveredTo past) := by
          rw [held, h]; rfl
        simp [sinks, Sinks.after, Sinks.record, counted, this, h, ih]
    | reset => rfl
    | enter => exact ih
    | leave => exact ih

end Past

/-- What a thread does, as far as its sinks are concerned. It may panic in any scope, and an
attempt goes on where its body panics. -/
inductive Program
  | skip
  | record (e : Event)
  | reset
  | panic
  | seq (p q : Program)
  | scope (body : Program)
  | attempt (body : Program)

/-- A thread with the slot that names the scope whose sink is in effect, none for the counters. -/
structure Thread where
  past : Past := []
  slot : Option Nat := none
  delivered : List (Option Nat × Event) := []

namespace Program

def panics : Program → Bool
  | skip | record _ | reset | attempt _ => false
  | panic => true
  | seq p q => p.panics || q.panics
  | scope body => body.panics

def moments : Program → Past
  | skip | panic => []
  | record e => [.record e]
  | reset => [.reset]
  | seq p q => if p.panics then p.moments else q.moments ++ p.moments
  | scope body => .leave :: (body.moments ++ [.enter])
  | attempt body => body.moments

/-- The events recorded by the program, each with the scope written around it, where the program
itself stands inside `around` and starts after `n` moments. -/
def emits (around : Option Nat) (n : Nat) : Program → List (Option Nat × Event)
  | skip | reset | panic => []
  | record e => [(around, e)]
  | seq p q =>
    if p.panics then p.emits around n
    else p.emits around n ++ q.emits around (n + p.moments.length)
  | scope body => body.emits (some n) (n + 1)
  | attempt body => body.emits around n

/-- Runs the program and tells whether it panics. A scope fills the slot, and on every way out puts
back what it found there. -/
def run : Program → Thread → Bool × Thread
  | skip, t => (false, t)
  | record e, t =>
    (false, { t with past := .record e :: t.past, delivered := t.delivered ++ [(t.slot, e)] })
  | reset, t => (false, { t with past := .reset :: t.past })
  | panic, t => (true, t)
  | seq p q, t =>
    match p.run t with
    | (true, u) => (true, u)
    | (false, u) => q.run u
  | scope body, t =>
    let found := t.slot
    let (panicked, u) := body.run { t with past := .enter :: t.past, slot := some t.past.length }
    (panicked, { u with past := .leave :: u.past, slot := found })
  | attempt body, t => (false, (body.run t).2)

theorem scopes_moments (p : Program) (past : Past) :
    Past.scopes (p.moments ++ past) = past.scopes := by
  induction p generalizing past with
  | skip | panic | record _ | reset => rfl
  | seq p q ihp ihq =>
    rw [moments]
    split
    · exact ihp past
    · rw [List.append_assoc, ihq, ihp]
  | scope body ih =>
    have := ih (.enter :: past)
    simp [moments, Past.scopes, this]
  | attempt body ih => exact ih past

theorem deliveries_moments (p : Program) (past : Past) :
    Past.deliveries (p.moments ++ past) =
      past.deliveries ++ p.emits past.scopes.head? past.length := by
  induction p generalizing past with
  | skip | panic | reset => exact (List.append_nil _).symm
  | record e => rfl
  | seq p q ihp ihq =>
    rw [moments, emits]
    split
    · exact ihp past
    · rw [List.append_assoc, ihq, ihp, scopes_moments, List.append_assoc, List.length_append,
        Nat.add_comm]
  | scope body ih =>
    have := ih (.enter :: past)
    simpa [moments, emits, Past.deliveries, Past.scopes] using this
  | attempt body ih => exact ih past

theorem captures_moments (p : Program) (past : Past) :
    (Past.sinks (p.moments ++ past)).captures.tail = past.sinks.captures.tail := by
  induction p generalizing past with
  | skip | panic | reset => rfl
  | record e =>
    cases h : past.sinks.captures <;>
      simp [moments, Past.sinks, Sinks.after, Sinks.record, h]
  | seq p q ihp ihq =>
    rw [moments]
    split
    · exact ihp past
    · rw [List.append_assoc, ihq, ihp]
  | scope body ih =>
    have inner : (Past.sinks (body.moments ++ .enter :: past)).captures.tail =
        past.sinks.captures := ih (.enter :: past)
    simp [moments, Past.sinks, Sinks.after, Sinks.closeCapture, inner]
  | attempt body ih => exact ih past

end Program

def Past.thread (past : Past) : Thread := ⟨past, past.scopes.head?, past.deliveries⟩

theorem Program.run_thread (p : Program) (past : Past) :
    p.run past.thread = (p.panics, Past.thread (p.moments ++ past)) := by
  induction p generalizing past with
  | skip | panic | record _ | reset => rfl
  | seq p q ihp ihq =>
    rw [run, ihp, panics, moments]
    cases p.panics with
    | true => rfl
    | false => simpa using ihq (p.moments ++ past)
  | scope body ih =>
    have found : (past.scopes).head? = (Past.scopes (body.scope.moments ++ past)).head? := by
      rw [scopes_moments]
    have inner : body.run ⟨.enter :: past, some past.length, past.deliveries⟩ =
        (body.panics, Past.thread (body.moments ++ .enter :: past)) := ih (.enter :: past)
    simp only [run, Past.thread, inner, panics]
    rw [found]
    simp [moments, Past.deliveries]
  | attempt body ih => rw [run, ih]; rfl

/-- Whatever has happened on a thread: every event went to one sink, that of the innermost open
scope or else the counters, which hold what was recorded outside all scopes since the last reset:
each count is what those events add to it, in total and for each kind, up to the greatest count. A
total that has not reached it is the sum of the counts of the kinds, and the kinds summarized are
those with an event of their own. Whatever program runs next, the slot it fills and puts back always
names the scope written around an event, and once a scope is left, by a panic or not, the sinks
around it are as they were before it. -/
theorem Past.sinks_account (past : Past) :
    past.deliveries.map (·.2) = past.recorded ∧
    (past.scopes ++ past.left).Nodup ∧
    (∀ i e, (some i, e) ∈ past.deliveries → i ∈ past.scopes ++ past.left) ∧
    past.sinks.captures = past.scopes.map past.deliveredTo ∧
    past.handedOut = past.left.map (fun i => (i, past.deliveredTo i)) ∧
    past.sinks.counters = Counters.recordAll {} past.counted ∧
    (∀ tally : Tally,
      tally.total past.sinks.counters.totals = .ofSum (sumOf tally.amount past.counted) ∧
      (∀ k, past.sinks.counters.ofKind tally k =
        .ofSum (sumOf (fun e => if e.kind = k then tally.amount e else 0) past.counted)) ∧
      (tally.total past.sinks.counters.totals ≠ Count.max →
        (tally.total past.sinks.counters.totals).toNat =
          sumOf (fun (_, d) => (tally.ofKind d).toNat) past.sinks.counters.entries)) ∧
    (past.sinks.counters.totals.joinsEmitted = .ofSum (sumOf Event.joins past.counted) ∧
      past.sinks.counters.totals.ctesEmitted = .ofSum (sumOf Event.ctes past.counted) ∧
      past.sinks.counters.totals.databaseErrors =
        .ofSum (sumOf Event.databaseErrors past.counted)) ∧
    past.sinks.counters.summaries.map (·.kind) = Kind.all.filter
      (fun k => past.counted.any fun e => Counters.isPerKind e && e.kind = k) ∧
    ∀ p : Program,
      p.run past.thread = (p.panics, Past.thread (p.moments ++ past)) ∧
      Past.deliveries (p.moments ++ past) =
        past.deliveries ++ p.emits past.scopes.head? past.length ∧
      Past.scopes (p.moments ++ past) = past.scopes ∧
      (Past.sinks (p.scope.moments ++ past)).captures = past.sinks.captures := by
  refine ⟨map_deliveries past, nodup_scopes past, fun i e => mem_scopes_of_delivered,
    captures_sinks past, handedOut_eq past, counters_sinks past, fun tally => ?_, ?_, ?_,
    fun p => ?_⟩
  · rw [counters_sinks]
    exact ⟨Counters.tally_eq tally past.counted, Counters.ofKind_eq past.counted tally,
      Counters.toNat_total_recordAll tally past.counted⟩
  · rw [counters_sinks]
    exact ⟨Counters.total_eq past.counted Totals.joinsEmitted_record rfl,
      Counters.total_eq past.counted Totals.ctesEmitted_record rfl,
      Counters.total_eq past.counted Totals.databaseErrors_record rfl⟩
  · rw [counters_sinks]
    exact Counters.kinds_summaries_recordAll past.counted
  · refine ⟨p.run_thread past, p.deliveries_moments past, p.scopes_moments past, ?_⟩
    have inner : (Past.sinks (p.moments ++ .enter :: past)).captures.tail = past.sinks.captures :=
      p.captures_moments (.enter :: past)
    simpa [Program.moments, sinks, Sinks.after, Sinks.closeCapture] using inner

/-- Of three hydrations one is recorded inside a scope, and the counters hold the other two. -/
theorem Past.sinks_account_hydrations :
    let past : Past := [.record (.hydration .word), .leave, .record (.hydration .form), .enter,
      .record (.hydration .notion)]
    past.sinks.counters.totals.hydrations = 2 ∧
      past.sinks.counters.ofKind .hydrations .word = 1 ∧
      past.sinks.counters.ofKind .hydrations .form = 0 ∧
      past.sinks.counters.totals.hydrations ≠ Count.max ∧
      sumOf (fun (_, d) => d.hydrations.toNat) past.sinks.counters.entries = 2 := by
  intro past
  obtain ⟨total, ofKind, sum⟩ := (Past.sinks_account past).2.2.2.2.2.2.1 .hydrations
  have below : past.sinks.counters.totals.hydrations ≠ Count.max := by decide
  exact ⟨total, ofKind .word, ofKind .form, below, (sum below).symm.trans (congrArg _ total)⟩

end Lexiquery
