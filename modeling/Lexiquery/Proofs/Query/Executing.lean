import Lexiquery.Proofs.Entity.Decoding
import Lexiquery.Proofs.Query.Ordering

/-! What the calls of a prepared query hand back: every row decoded or the first fault among them,
or the first row alone. No call sees anything of those before it, whether they read all rows, broke
off or failed. -/

namespace Lexiquery

/-- A prepared statement as the engine holds it. A run under way goes on where it was left. -/
structure Handle where
  query : Query
  pending : Option (List Row)

inductive Request
  | all
  | first

inductive Returned
  | all (found : Logged (List Entity))
  | first (found : Logged Entity)

def Request.cap : Request → Option Nat
  | all => none
  | first => some 1

namespace Query

def head (k : Kind) : List Entity → Logged Entity
  | e :: _ => return e
  | [] => do
    .report [.emptyFirst k]
    .fail (.response (.notFound k))

theorem first_eq (q : Query) (store : Store) :
    q.first store = q.execute store (·.take 1) >>= head q.kind :=
  rfl

def answer (q : Query) (store : Store) : Request → Returned
  | .all => .all (q.all store)
  | .first => .first (q.first store)

end Query

def Request.conclude (k : Kind) (found : Logged (List Entity)) : Request → Returned
  | all => .all found
  | first => .first (found >>= Query.head k)

def Query.handle (q : Query) : Handle := ⟨q, none⟩

namespace Handle

def reset (h : Handle) : Handle := { h with pending := none }

def begin (h : Handle) (store : Store) : Except EngineError (List Row) :=
  match h.pending with
  | some rows => .ok rows
  | none => h.query.statement.run store

/-- Decodes one row after the other, until none is left, one does not decode, or there are as many
records as asked for. The rows that are left come with what was found. -/
def fetch (k : Kind) (cap : Option Nat) (found : List Entity) :
    List Row → Except DecodeError (List Entity) × List Row
  | [] => (.ok found, [])
  | row :: rows =>
    match Entity.decode k row with
    | .error e => (.error e, rows)
    | .ok e =>
      if cap.any (· ≤ (found ++ [e]).length) then (.ok (found ++ [e]), rows)
      else fetch k cap (found ++ [e]) rows

/-- Runs the statement for no more records than asked for, and resets it however that ends. -/
def execute (h : Handle) (store : Store) (cap : Option Nat) : Logged (List Entity) × Handle :=
  let k := h.query.kind
  match h.begin store with
  | .error e =>
    let events := [.queryStart k, .databaseError k, .queryFinish k 0]
    (⟨.error (h.query.databaseError e), events⟩, h.reset)
  | .ok rows =>
    let fetched := fetch k cap [] rows
    let after := { h with pending := some fetched.2 }.reset
    match fetched.1 with
    | .ok es => (⟨.ok es, [.queryStart k, .queryFinish k es.length]⟩, after)
    | .error e => (⟨.error (.decode e), [.queryStart k, .queryFinish k 0]⟩, after)

def answers : Handle → List (Request × Store) → List Returned
  | _, [] => []
  | h, (request, store) :: calls =>
    let (found, after) := h.execute store request.cap
    request.conclude h.query.kind found :: after.answers calls

variable {h : Handle} {store : Store} {cap : Option Nat}

def upTo (cap : Option Nat) (n : Nat) (rows : List Row) : List Row :=
  match cap with
  | none => rows
  | some m => rows.take (max 1 (m - n))

theorem upTo_nil (cap : Option Nat) (n : Nat) : upTo cap n [] = [] := by
  cases cap <;> simp [upTo]

theorem upTo_cons (cap : Option Nat) (n : Nat) (row : Row) (rows : List Row) :
    upTo cap n (row :: rows) =
      row :: if cap.any (· ≤ n + 1) then [] else upTo cap (n + 1) rows := by
  cases cap with
  | none => simp [upTo]
  | some m =>
    by_cases hm : m ≤ n + 1
    · have one : max 1 (m - n) = 1 := by omega
      simp [upTo, one, hm]
    · have more : max 1 (m - n) = max 1 (m - (n + 1)) + 1 := by omega
      simp [upTo, more, hm]

theorem fetch_fst (k : Kind) (cap : Option Nat) (found : List Entity) (rows : List Row) :
    (fetch k cap found rows).1 =
      (found ++ ·) <$> (upTo cap found.length rows).mapM (Entity.decode k) := by
  induction rows generalizing found with
  | nil => simp [fetch, upTo_nil, Functor.map, Except.map, pure, Except.pure]
  | cons row rows ih =>
    rw [fetch, upTo_cons, List.mapM_cons]
    cases Entity.decode k row with
    | error e => rfl
    | ok e =>
      dsimp only
      rw [List.length_append, List.length_singleton]
      split
      · rfl
      · rw [ih, List.length_append, List.length_singleton]
        cases (upTo cap (found.length + 1) rows).mapM (Entity.decode k) <;>
          simp [Functor.map, Except.map, bind, Except.bind, pure, Except.pure]

theorem execute_eq (hp : h.pending = none) :
    h.execute store cap = (h.query.execute store (upTo cap 0), h) := by
  obtain ⟨q, _⟩ := h
  obtain rfl := hp
  have fetched (rows : List Row) : (fetch q.kind cap [] rows).1 =
      (upTo cap 0 rows).mapM (Entity.decode q.kind) := by
    rw [fetch_fst]
    cases (upTo cap 0 rows).mapM (Entity.decode q.kind) <;> rfl
  simp only [execute, Query.execute, begin, reset]
  cases q.statement.run store with
  | error e => rfl
  | ok rows =>
    simp only [fetched]
    cases (upTo cap 0 rows).mapM (Entity.decode q.kind) <;> rfl

theorem answers_eq {calls : List (Request × Store)} (hp : h.pending = none) :
    h.answers calls = calls.map fun c => h.query.answer c.2 c.1 := by
  induction calls with
  | nil => rfl
  | cons c calls ih =>
    obtain ⟨request, store⟩ := c
    simp only [answers, execute_eq hp, ih, List.map_cons]
    cases request <;> rfl

end Handle

namespace Statement

variable {store : Store} {s : Statement} {rows : List Row}

/-- The order of a statement leaves nothing open: whatever records a store may give for it, these
are the rows. -/
def Determines (store : Store) (s : Statement) (rows : List Row) : Prop :=
  ∀ xs, s.MayGive store xs → (xs.map fun x => s.columns.map fun c => (c, x.get c)) = rows

theorem Determines.rows_eq (h : s.Determines store rows) : s.rows store = rows := by
  obtain ⟨xs, hx, hr⟩ := exists_mayGive store s
  rw [hr, h xs hx]

theorem determines_of_pairwise {xs : List Row} (hx : ((s.selected store).map s.record).Perm xs)
    (ho : xs.Pairwise s.order.Places)
    (ha : ∀ x ∈ xs, ∀ y ∈ xs, s.order.Places x y → s.order.Places y x → x = y) :
    s.Determines store ((s.limit.elim xs (xs.take ·.toNat)).map fun x =>
      s.columns.map fun c => (c, x.get c)) := by
  rintro _ ⟨ys, hp, hy, rfl⟩
  have perm : ys.Perm xs := hp.trans (((s.arrange_perm _).map _).trans hx)
  have same : ys = xs := perm.eq_of_pairwise (fun x y h => ha x (perm.subset h) y) hy ho
  rw [same]

end Statement

namespace Query

variable {store : Store} {q : Query} {rows : List Row}

theorem result_all (h : q.statement.run store = .ok rows) :
    (q.all store).result = (rows.mapM (Entity.decode q.kind)).mapError .decode := by
  rw [all, execute, h]
  simp only [id]
  cases rows.mapM (Entity.decode q.kind) <;> rfl

theorem result_first_nil (h : q.statement.run store = .ok []) :
    (q.first store).result = .error (.response (.notFound q.kind)) := by
  rw [first_eq, execute, h]
  rfl

theorem result_first_cons {row : Row} (h : q.statement.run store = .ok (row :: rows)) :
    (q.first store).result = (Entity.decode q.kind row).mapError .decode := by
  rw [first_eq, execute, h]
  simp only [List.take_succ_cons, List.take_zero, List.mapM_cons, List.mapM_nil]
  cases Entity.decode q.kind row <;> rfl

theorem all_eq_ok_iff (h : q.statement.run store = .ok rows) {es : List Entity} :
    (q.all store).result = .ok es ↔ rows.map (Entity.decode q.kind) = es.map .ok := by
  rw [result_all h, Except.mapError_eq_ok_iff, Except.mapM_eq_ok_iff]

theorem all_eq_error_iff (h : q.statement.run store = .ok rows) {e : Error} :
    (q.all store).result = .error e ↔ ∃ before row after fault, rows = before ++ row :: after ∧
      (∀ r ∈ before, ∃ x, Entity.decode q.kind r = .ok x) ∧ q.kind.fault? row = some fault ∧
        e = .decode fault := by
  have fails := Except.FailsWith.mapM (Entity.decode_fails q.kind) rows
  simp only [result_all h, Except.mapError_eq_error_iff, fails _, List.findSome?_eq_some_iff,
    (Entity.decode_fails q.kind _).exists_ok_iff]
  constructor
  · rintro ⟨fault, ⟨before, row, after, hr, hf, hb⟩, rfl⟩
    exact ⟨before, row, after, fault, hr, hb, hf, rfl⟩
  · rintro ⟨before, row, after, fault, hr, hb, hf, rfl⟩
    exact ⟨fault, ⟨before, row, after, hr, hf, hb⟩, rfl⟩

theorem first_eq_ok_iff {row : Row} (h : q.statement.run store = .ok (row :: rows)) {x : Entity} :
    (q.first store).result = .ok x ↔ Entity.decode q.kind row = .ok x := by
  rw [result_first_cons h, Except.mapError_eq_ok_iff]

theorem first_eq_error_iff {row : Row} (h : q.statement.run store = .ok (row :: rows)) {e : Error} :
    (q.first store).result = .error e ↔ ∃ fault, q.kind.fault? row = some fault ∧
      e = .decode fault := by
  rw [result_first_cons h, Except.mapError_eq_error_iff]
  exact exists_congr fun fault => and_congr (Entity.decode_fails q.kind row fault) eq_comm

theorem first_eq_notFound_iff (h : q.statement.run store = .ok rows) :
    (q.first store).result = .error (.response (.notFound q.kind)) ↔ rows = [] := by
  cases rows with
  | nil => simp [result_first_nil h]
  | cons row rows => simp [first_eq_error_iff h]

theorem first_eq_ok_iff_of_all {es : List Entity} (h : q.statement.run store = .ok rows)
    (ha : (q.all store).result = .ok es) {x : Entity} :
    (q.first store).result = .ok x ↔ es.head? = some x := by
  have decoded := (all_eq_ok_iff h).1 ha
  cases rows with
  | nil =>
    obtain rfl : es = [] := by simpa using decoded.symm
    simp [result_first_nil h]
  | cons row rows =>
    rw [first_eq_ok_iff h]
    cases es with
    | nil => cases decoded
    | cons e es => simp [(List.cons.inj decoded).1]

/-- Of rows in a fixed order, a call for all hands back every one decoded, or else what is wrong
with the first that does not decode, which is what is wrong with the first such column of it; and a
call for the first decodes that one alone, and finds nothing only if there is none. So the two agree
where all rows decode. And each call of a prepared query is answered as if it were the only one, on
the store as it is by then. -/
theorem calls_answered (q : Query) :
    (∀ store rows, q.statement.check store = .ok () → q.statement.Determines store rows →
      (∀ es, (q.all store).result = .ok es ↔ rows.map (Entity.decode q.kind) = es.map .ok) ∧
      (∀ e, (q.all store).result = .error e ↔ ∃ before row after fault,
        rows = before ++ row :: after ∧ (∀ r ∈ before, ∃ x, Entity.decode q.kind r = .ok x) ∧
          q.kind.fault? row = some fault ∧ e = .decode fault) ∧
      ((q.first store).result = .error (.response (.notFound q.kind)) ↔ rows = []) ∧
      (∀ row rest, rows = row :: rest →
        (∀ x, (q.first store).result = .ok x ↔ Entity.decode q.kind row = .ok x) ∧
        ∀ e, (q.first store).result = .error e ↔ ∃ fault, q.kind.fault? row = some fault ∧
          e = .decode fault) ∧
      ∀ es, (q.all store).result = .ok es → ∀ x, (q.first store).result = .ok x ↔
        es.head? = some x) ∧
    ∀ calls, q.handle.answers calls = calls.map fun c => q.answer c.2 c.1 := by
  refine ⟨fun store rows hc hd => ?_, fun calls => Handle.answers_eq rfl⟩
  have run : q.statement.run store = .ok rows := by rw [Statement.run_of_check hc, hd.rows_eq]
  refine ⟨fun es => all_eq_ok_iff run, fun e => all_eq_error_iff run, first_eq_notFound_iff run,
    fun row rest hr => ?_, fun es ha x => first_eq_ok_iff_of_all run ha⟩
  rw [hr] at run
  exact ⟨fun x => first_eq_ok_iff run, fun e => first_eq_error_iff run⟩

/-- The last of the words has a text for its lemma. -/
def torn : Store :=
  Store.sample.insertAll "words" [[.integer 4, .integer 1, .text "cat", .null, .null, .null]]

/-- The third word is there for a call for the first, and a call for all fails at the fourth; after
that the query serves another store. -/
theorem torn_calls_answered : ∃ q,
    (prepare torn .word (.test Schema.Word.id (.integer .atLeast 3))
      (.ascending Schema.Word.id) none).result = .ok q ∧
    (q.first torn).result = .ok (.word ⟨3, 1, 3, none, none, none⟩) ∧
    (q.all torn).result = .error (.decode (.invalidType .word 2 .text)) ∧
    q.handle.answers [(.first, torn), (.all, torn), (.all, .sample)] =
      [.first (q.first torn), .all (q.all torn), .all (q.all .sample)] := by
  let s := Statement.ofFilter .word Kind.word.columns
    ((Filter.test Schema.Word.id (.integer .atLeast 3)).resolve .word)
    (.ascending Schema.Word.id) none
  have hc : s.check torn = .ok () := by decide +kernel
  let row (id : Int64) (lemmaId : Value) : Row :=
    Kind.word.columns.zip [.integer id, .integer 1, lemmaId, .null, .null, .null]
  let rows := [row 3 (.integer 3), row 4 (.text "cat")]
  have hd : s.Determines torn (rows.map Kind.word.project) := by
    have hx : (s.selected torn).map s.record = rows := by decide +kernel
    refine Statement.determines_of_pairwise (.of_eq hx) ?_ ?_
    · change rows.Pairwise fun x y => (x.get "word_id").AtMost (y.get "word_id")
      decide +kernel
    · change ∀ x ∈ rows, ∀ y ∈ rows, (x.get "word_id").AtMost (y.get "word_id") →
        (y.get "word_id").AtMost (x.get "word_id") → x = y
      decide +kernel
  refine ⟨⟨.word, _, s⟩, prepare_eq_ok_iff.2 ⟨rfl, hc, rfl⟩, ?_⟩
  obtain ⟨h, ha⟩ := calls_answered ⟨.word, _, s⟩
  obtain ⟨-, fails, -, alone, -⟩ := h torn _ hc hd
  refine ⟨?_, ?_, ha _⟩
  · exact ((alone _ _ rfl).1 _).2 (by decide +kernel)
  · refine (fails _).2 ⟨[_], _, [], _, rfl, ?_, ?_, rfl⟩
    · exact List.forall_mem_singleton.2 ⟨.word ⟨3, 1, 3, none, none, none⟩, by decide +kernel⟩
    · decide +kernel

end Query

end Lexiquery
