import Lexiquery.Entity.Relation

/-! A load that is made again until it succeeds and is not made any more then, and the events that
tell how often it was made. -/

namespace Lexiquery

def Event.isHydration : Event → Bool
  | hydration _ => true
  | _ => false

def Kind.relations : Kind → List Relation
  | notion => [.words]
  | word => .notion :: .group :: Enumeration.all.map .inflections
  | group => [.words, .frames]
  | frame => [.group, .parts]
  | part => [.frame]
  | form => [.pronunciations]
  | pronunciation => [.forms]

theorem Entity.exists_load?_iff {e : Entity} {σ : Relation} :
    (∃ load, e.load? σ = some load) ↔ σ ∈ e.kind.relations := by
  rw [← Option.isSome_iff_exists]
  have mem_all (i : Inflection) : i ∈ Enumeration.all := by cases i <;> decide
  cases e <;> cases σ <;> simp [load?, related, kind, Kind.relations, mem_all]

theorem Entity.load?_eq_none_iff {e : Entity} {σ : Relation} :
    e.load? σ = none ↔ σ ∉ e.kind.relations := by
  rw [← exists_load?_iff, Option.eq_none_iff_forall_ne_some, not_exists]

namespace Logged

variable {α β : Type} {a : Logged α}

def succeeded (a : Logged α) : Bool := a.result.toBool

def hydrations (as : List (Logged α)) : Nat :=
  (as.flatMap (·.events)).countP Event.isHydration

def Quiet (a : Logged α) : Prop := a.events.countP Event.isHydration = 0

theorem hydrations_cons (as : List (Logged α)) :
    hydrations (a :: as) = a.events.countP Event.isHydration + hydrations as := by
  rw [hydrations, List.flatMap_cons, List.countP_append, hydrations]

@[simp]
theorem result_map (f : α → β) : (f <$> a).result = a.result.map f := by
  change (a.andThen (ok ∘ f)).result = _
  rw [andThen]
  cases a.result <;> rfl

theorem map_report (f : α → β) (events : List Event) :
    (f <$> do report events; a) = (do report events; f <$> a) := by
  obtain ⟨result, events'⟩ := a
  cases result with
  | error e => rfl
  | ok x => exact congrArg (Logged.mk (.ok (f x))) (List.append_assoc ..)

theorem Quiet.bind {f : α → Logged β} (h : a.Quiet) (hf : ∀ x, (f x).Quiet) : (a >>= f).Quiet := by
  change (a.andThen f).Quiet
  unfold Quiet andThen
  cases a.result with
  | error e => exact h
  | ok x => rw [List.countP_append, h, hf x]

theorem quiet_ok (x : α) : (ok x).Quiet := rfl

theorem quiet_prepare (store : Store) (k : Kind) (f : Filter) (order : Order)
    (limit : Option UInt32) : (Query.prepare store k f order limit).Quiet := by
  rw [Query.prepare]
  split
  · rfl
  · dsimp only
    split <;> rfl

theorem quiet_execute (q : Query) (store : Store) (take : List Row → List Row) :
    (q.execute store take).Quiet := by
  rw [Query.execute]
  split
  · rfl
  · split <;> rfl

theorem quiet_first (q : Query) (store : Store) : (q.first store).Quiet := by
  apply (quiet_execute ..).bind
  intro es
  cases es <;> rfl

end Logged

namespace Load

open Logged

variable {load : Load} {k : Kind} {s : Store} {stores : List Store}

theorem quiet_run (load : Load) (s : Store) : (load.run s).Quiet := by
  cases load with
  | many k f order =>
    apply (quiet_prepare ..).bind
    intro q
    exact quiet_execute q s id
  | one k id =>
    apply (quiet_prepare ..).bind
    intro q
    apply (quiet_first q s).bind
    intro e
    exact quiet_ok [e]
  | nothing => rfl

def attempt (load : Load) (k : Kind) (s : Store) : Logged (List Entity) := do
  .report [.hydration k]
  load.run s

/-- What is answered in one store after the other: the load is attempted until it succeeds, and what
it then gave is answered ever after, whatever the store, without any event. -/
def serve (load : Load) (k : Kind) : List Store → List (Logged (List Entity))
  | [] => []
  | s :: stores =>
    load.attempt k s :: match (load.attempt k s).result with
      | .ok es => stores.map fun _ => .ok es
      | .error _ => load.serve k stores

theorem events_attempt : (load.attempt k s).events = .hydration k :: (load.run s).events := rfl

theorem result_attempt : (load.attempt k s).result = (load.run s).result := rfl

theorem serve_cons_of_ok {es : List Entity} (h : (load.run s).result = .ok es) :
    load.serve k (s :: stores) = load.attempt k s :: stores.map fun _ => .ok es := by
  rw [serve, result_attempt, h]

theorem serve_cons_of_error {e : Error} (h : (load.run s).result = .error e) :
    load.serve k (s :: stores) = load.attempt k s :: load.serve k stores := by
  rw [serve, result_attempt, h]

theorem hydrations_serve : hydrations (load.serve k stores) =
    (load.serve k stores).countP (!·.succeeded) +
      if (load.serve k stores).any succeeded then 1 else 0 := by
  have told (s : Store) : (load.attempt k s).events.countP Event.isHydration = 1 := by
    rw [events_attempt, List.countP_cons, quiet_run load s]
    rfl
  induction stores with
  | nil => rfl
  | cons s stores ih =>
    cases h : (load.run s).result with
    | ok es =>
      have hs : (load.attempt k s).succeeded = true := by rw [succeeded, result_attempt, h]; rfl
      have hok : (ok es).succeeded = true := rfl
      have silent : hydrations (stores.map fun _ => ok es) = 0 := by simp [hydrations, ok]
      rw [serve_cons_of_ok h, hydrations_cons, told, silent]
      simp [hs, hok]
    | error e =>
      have hs : (load.attempt k s).succeeded = false := by rw [succeeded, result_attempt, h]; rfl
      rw [serve_cons_of_error h, hydrations_cons, told, ih]
      simp [hs]
      omega

end Load

end Lexiquery
