import Lexiquery.Proofs.Query.Ordering

/-! What the events of queries tell. They come in blocks, a log that is made of blocks is made of
them in one way only, and how a query went decides which blocks tell of it. -/

namespace Lexiquery

inductive EventBlock
  | compiled (kind : Kind) (joins ctes : Nat)
  /-- A statement was compiled that the engine does not take. -/
  | refused (kind : Kind) (joins ctes : Nat)
  | finished (kind : Kind) (rows : Nat)
  | failed (kind : Kind)
  | foundNothing (kind : Kind)
  | hydrated (kind : Kind)
  deriving DecidableEq

namespace EventBlock

def events : EventBlock → List Event
  | compiled k joins ctes => [.statementCompiled k joins ctes]
  | refused k joins ctes => [.statementCompiled k joins ctes, .databaseError k]
  | finished k rows => [.queryStart k, .queryFinish k rows]
  | failed k => [.queryStart k, .databaseError k, .queryFinish k 0]
  | foundNothing k => [.queryStart k, .queryFinish k 0, .emptyFirst k]
  | hydrated k => [.hydration k]

def log (bs : List EventBlock) : List Event := bs.flatMap events

variable {b b' : EventBlock} {bs bs' : List EventBlock} {k : Kind} {es : List Event}

@[simp]
theorem log_nil : log [] = [] := rfl

@[simp]
theorem log_cons : log (b :: bs) = b.events ++ log bs := rfl

@[simp]
theorem log_append : log (bs ++ bs') = log bs ++ log bs' := List.flatMap_append

theorem log_ne_databaseError : log bs ≠ .databaseError k :: es := by
  cases bs with
  | nil => nofun
  | cons b bs => cases b <;> simp [events]

theorem log_ne_emptyFirst : log bs ≠ .emptyFirst k :: es := by
  cases bs with
  | nil => nofun
  | cons b bs => cases b <;> simp [events]

theorem events_append_inj (h : b.events ++ log bs = b'.events ++ log bs') :
    b = b' ∧ log bs = log bs' := by
  cases b <;> cases b' <;> simp_all [events, log_ne_databaseError, log_ne_emptyFirst,
    log_ne_databaseError.symm, log_ne_emptyFirst.symm]

/-- No block is part of another or overlaps with one, so a log tells its blocks. -/
theorem log_injective (h : log bs = log bs') : bs = bs' := by
  induction bs generalizing bs' with
  | nil =>
    cases bs' with
    | nil => rfl
    | cons b' bs' => cases b' <;> simp [events] at h
  | cons b bs ih =>
    cases bs' with
    | nil => cases b <;> simp [events] at h
    | cons b' bs' =>
      obtain ⟨rfl, hb⟩ := events_append_inj h
      rw [ih hb]

end EventBlock

/-- Which blocks may tell of a computation, by its result. -/
abbrev Account (α : Type) := Except Error α → List EventBlock → Prop

namespace Account

variable {α β : Type}

inductive Silent (a : α) : Account α
  | mk : Silent a (.ok a) []

inductive AndThen (T : Account α) (U : α → Account β) : Account β
  | stopped {e : Error} {bs : List EventBlock} : T (.error e) bs → AndThen T U (.error e) bs
  | wentOn {a : α} {r : Except Error β} {bs bs' : List EventBlock} : T (.ok a) bs → U a r bs' →
    AndThen T U r (bs ++ bs')

end Account

def Logged.Tells {α : Type} (a : Logged α) (T : Account α) : Prop :=
  ∃ bs, a.events = EventBlock.log bs ∧ T a.result bs

namespace Logged

variable {α β : Type} {a : Logged α} {f : α → Logged β} {T : Account α} {U : α → Account β}

theorem tells_ok (x : α) : (ok x).Tells (.Silent x) := ⟨[], rfl, .mk⟩

theorem Tells.bind (ha : a.Tells T) (hf : ∀ x, (f x).Tells (U x)) :
    (a >>= f).Tells (T.AndThen U) := by
  obtain ⟨bs, he, ht⟩ := ha
  change (a.andThen f).Tells _
  rw [andThen]
  cases hr : a.result with
  | error e => exact ⟨bs, he, .stopped (hr ▸ ht)⟩
  | ok x =>
    obtain ⟨bs', he', hu⟩ := hf x
    exact ⟨bs ++ bs', by simp [he, he'], .wentOn (hr ▸ ht) hu⟩

end Logged

theorem Except.exists_of_mapM_eq_error {α β ε : Type} {f : α → Except ε β} {as : List α} {e : ε}
    (h : as.mapM f = .error e) : ∃ a ∈ as, f a = .error e := by
  induction as with
  | nil => simp [pure, Except.pure] at h
  | cons a as ih =>
    rw [List.mapM_cons] at h
    cases ha : f a with
    | error e' =>
      obtain rfl : e' = e := by simpa [ha, bind, Except.bind] using h
      exact ⟨a, by simp, ha⟩
    | ok b =>
      cases hm : as.mapM f with
      | error e' =>
        obtain rfl : e' = e := by simpa [ha, hm, bind, Except.bind] using h
        obtain ⟨a', hmem, ha'⟩ := ih hm
        exact ⟨a', List.mem_cons_of_mem a hmem, ha'⟩
      | ok bs => simp [ha, hm, bind, Except.bind, pure, Except.pure] at h

namespace Query

variable (store : Store)

/-- Of a query call: nothing if the filter does not compile, else that it did, and that the engine
does not take the statement if it does not. -/
inductive Prepared (k : Kind) (f : Filter) (order : Order) (limit : Option UInt32) : Account Query
  | uncompiled {e : CompileError} :
    Statement.compile k k.columns (f.resolve k) order limit = .error e →
    Prepared k f order limit (.error (.compile e)) []
  | refused {s : Statement} {e : EngineError} :
    Statement.compile k k.columns (f.resolve k) order limit = .ok s → s.check store = .error e →
    Prepared k f order limit (.error (.engine e s.sql)) [.refused k s.joinCount s.cteCount]
  | compiled {s : Statement} :
    Statement.compile k k.columns (f.resolve k) order limit = .ok s → s.check store = .ok () →
    Prepared k f order limit (.ok ⟨k, f.resolve k, s⟩) [.compiled k s.joinCount s.cteCount]

/-- Of running a query for all its rows: how many records were handed back, none if one of the rows
does not decode or the engine fails. -/
inductive RanAll (q : Query) : Account (List Entity)
  | failed {e : EngineError} : q.statement.run store = .error e →
    RanAll q (.error (q.databaseError e)) [.failed q.kind]
  | undecoded {rows : List Row} {row : Row} {e : DecodeError} : q.statement.run store = .ok rows →
    row ∈ rows → Entity.decode q.kind row = .error e →
    RanAll q (.error (.decode e)) [.finished q.kind 0]
  | found {rows : List Row} {es : List Entity} : q.statement.run store = .ok rows →
    rows.map (Entity.decode q.kind) = es.map .ok → RanAll q (.ok es) [.finished q.kind es.length]

inductive RanFirst (q : Query) : Account Entity
  | failed {e : EngineError} : q.statement.run store = .error e →
    RanFirst q (.error (q.databaseError e)) [.failed q.kind]
  | nothing : q.statement.run store = .ok [] →
    RanFirst q (.error (.response (.notFound q.kind))) [.foundNothing q.kind]
  | undecoded {row : Row} {rows : List Row} {e : DecodeError} :
    q.statement.run store = .ok (row :: rows) → Entity.decode q.kind row = .error e →
    RanFirst q (.error (.decode e)) [.finished q.kind 0]
  | found {row : Row} {rows : List Row} {e : Entity} : q.statement.run store = .ok (row :: rows) →
    Entity.decode q.kind row = .ok e → RanFirst q (.ok e) [.finished q.kind 1]

theorem tells_prepare (k : Kind) (f : Filter) (order : Order) (limit : Option UInt32) :
    (prepare store k f order limit).Tells (Prepared store k f order limit) := by
  rw [prepare]
  cases hs : Statement.compile k k.columns (f.resolve k) order limit with
  | error e => exact ⟨[], rfl, .uncompiled hs⟩
  | ok s =>
    dsimp only
    cases hc : s.check store with
    | error e => exact ⟨[.refused k s.joinCount s.cteCount], rfl, .refused hs hc⟩
    | ok => exact ⟨[.compiled k s.joinCount s.cteCount], rfl, .compiled hs hc⟩

theorem tells_all (q : Query) : (q.all store).Tells (RanAll store q) := by
  rw [all, execute]
  cases hr : q.statement.run store with
  | error e => exact ⟨[.failed q.kind], rfl, .failed hr⟩
  | ok rows =>
    dsimp only [id]
    cases hm : rows.mapM (Entity.decode q.kind) with
    | error e =>
      obtain ⟨row, hrow, he⟩ := Except.exists_of_mapM_eq_error hm
      exact ⟨[.finished q.kind 0], rfl, .undecoded hr hrow he⟩
    | ok es => exact ⟨[.finished q.kind es.length], rfl, .found hr (Except.mapM_eq_ok_iff.1 hm)⟩

theorem tells_first (q : Query) : (q.first store).Tells (RanFirst store q) := by
  rw [first, execute]
  cases hr : q.statement.run store with
  | error e => exact ⟨[.failed q.kind], rfl, .failed hr⟩
  | ok rows =>
    cases rows with
    | nil => exact ⟨[.foundNothing q.kind], rfl, .nothing hr⟩
    | cons row rows =>
      dsimp only [List.take_succ_cons, List.take_zero]
      cases he : Entity.decode q.kind row with
      | error e =>
        have hm : [row].mapM (Entity.decode q.kind) = .error e := by
          simp [he, bind, Except.bind]
        rw [hm]
        exact ⟨[.finished q.kind 0], rfl, .undecoded hr he⟩
      | ok e =>
        have hm : [row].mapM (Entity.decode q.kind) = .ok [e] := by
          simp [he, bind, Except.bind, pure, Except.pure]
        rw [hm]
        exact ⟨[.finished q.kind 1], rfl, .found hr he⟩

end Query

end Lexiquery
