import Lexiquery.Proofs.Entity.History
import Lexiquery.Proofs.Query.Accounts

/-! Sessions: calls of the library, one after the other, each in the store of its moment. The log of
a session is made of blocks, and how the calls went decides which. -/

namespace Lexiquery

@[simp]
theorem Logged.events_map {α β : Type} (f : α → β) (a : Logged α) :
    (f <$> a).events = a.events := by
  change (a.andThen (ok ∘ f)).events = _
  rw [andThen]
  cases a.result with
  | error e => rfl
  | ok x => exact List.append_nil _

theorem Store.tells_all (store : Store) (k : Kind) : (store.all k).Tells
    ((Query.Prepared store k .empty (.ascending (Schema.idField k)) none).AndThen
      fun q => q.RanAll store) :=
  (Query.tells_prepare ..).bind fun q => q.tells_all store

def Load.Ran (store : Store) : Load → Account (List Entity)
  | .many k f order =>
    (Query.Prepared store k f (.ascending order) none).AndThen fun q => q.RanAll store
  | .one k id =>
    (Query.Prepared store k (.idEquals k id) (.ascending (Schema.idField k)) (some 1)).AndThen
      fun q => (q.RanFirst store).AndThen fun e => .Silent [e]
  | .nothing => .Silent []

theorem Load.tells_run (store : Store) (load : Load) : (load.run store).Tells (load.Ran store) := by
  cases load with
  | many k f order => exact (Query.tells_prepare ..).bind fun q => q.tells_all store
  | one k id =>
    apply (Query.tells_prepare ..).bind
    intro q
    exact (q.tells_first store).bind fun e => Logged.tells_ok [e]
  | nothing => exact Logged.tells_ok []

namespace Record

variable (store : Store)

/-- Of asking for the records along a relation: nothing if they are kept, else that they are loaded
and what tells of the load. -/
inductive Asked (r : Record) (σ : Relation) : Account (List Record)
  | kept {rs : List Record} : r.loaded? σ = some rs → Asked r σ (.ok rs) []
  | loaded {load : Load} {result : Except Error (List Entity)} {bs : List EventBlock} :
    r.loaded? σ = none → r.entity.load? σ = some load → load.Ran store result bs →
    Asked r σ (result.map (List.map ofEntity)) (.hydrated r.entity.kind :: bs)

/-- Of a walk: every time a relation is asked for on the way, what tells of that. -/
inductive Walked : Record → List Step → List EventBlock → Prop
  | stays {r : Record} {path : List Step} : Step.first? path = none → Walked r path []
  | asks {r : Record} {path : List Step} {σ : Relation} {result : Except Error (List Record)}
    {bs : List EventBlock} : Step.first? path = some σ → Asked store r σ result bs →
    (∀ rs σ i rest, result = .ok rs → Step.pick? path = some ((σ, i), rest) → rs[i]? = none) →
    Walked r path bs
  | goesOn {r n : Record} {path rest : List Step} {σ : Relation} {i : Nat} {rs : List Record}
    {bs bs' : List EventBlock} : Step.pick? path = some ((σ, i), rest) →
    Asked store r σ (.ok rs) bs → rs[i]? = some n → Walked n rest bs' → Walked r path (bs ++ bs')

def PassesOn (r : Record) (σ : Relation) (rs : List Record) : Prop :=
  ∃ a, r.ask store σ = some a ∧ a.result = .ok rs

/-- Of a walk: it comes to where no step is possible. -/
inductive Strays : Record → List Step → Prop
  | unlisted {r : Record} {i : Nat} {path : List Step} : Strays r (.index i :: path)
  | unrelated {r : Record} {path : List Step} {σ : Relation} : Step.first? path = some σ →
    r.loaded? σ = none → σ ∉ r.entity.kind.relations → Strays r path
  /-- A list is to be gone on from as if it were a record. -/
  | unplaced {r : Record} {step : Step} {path : List Step} {σ : Relation} {rs : List Record} :
    σ.isList = true → (∀ i, step ≠ .index i) → r.PassesOn store σ rs →
    Strays r (.relation σ :: step :: path)
  | beyond {r : Record} {i : Nat} {path : List Step} {σ : Relation} {rs : List Record} :
    σ.isList = true → r.PassesOn store σ rs → rs.length ≤ i →
    Strays r (.relation σ :: .index i :: path)
  | goesOn {r n : Record} {path rest : List Step} {σ : Relation} {i : Nat} {rs : List Record} :
    Step.pick? path = some ((σ, i), rest) → r.PassesOn store σ rs → rs[i]? = some n →
    Strays n rest → Strays r path

variable {store} {r n : Record} {σ : Relation} {rs : List Record} {path rest : List Step} {i : Nat}

theorem ask_eq_none_iff :
    r.ask store σ = none ↔ r.loaded? σ = none ∧ σ ∉ r.entity.kind.relations := by
  cases hr : r.loaded? σ with
  | some rs => simp [ask_of_loaded hr]
  | none => simp [ask, related?, hr, Entity.load?_eq_none_iff]

theorem PassesOn.found_walk (h : r.PassesOn store σ rs) (hf : Step.first? path = some σ) :
    (r.walk store path).found = none ↔ (onward store path rs).found = none := by
  obtain ⟨a, ha, hr⟩ := h
  rw [walk_of_first? hf, walkRelation_of_ok ha hr, Walk.precede, Walk.found_map,
    Option.map_eq_none_iff]

theorem PassesOn.found_walk_of_pick? (h : r.PassesOn store σ rs)
    (hp : Step.pick? path = some ((σ, i), rest)) (hn : rs[i]? = some n) :
    (r.walk store path).found = none ↔ (n.walk store rest).found = none := by
  rw [h.found_walk (Step.first?_of_pick? hp), onward_of_pick? hp hn, Walk.found_map]

theorem Strays.found_walk (h : r.Strays store path) : (r.walk store path).found = none := by
  induction h with
  | unlisted => rfl
  | unrelated hf hr hσ => rw [walk_of_first? hf, walkRelation_of_none (ask_eq_none_iff.2 ⟨hr, hσ⟩)]
  | @unplaced r step path σ rs hσ hstep h =>
    rw [h.found_walk rfl]
    cases step with
    | index i => exact absurd rfl (hstep i)
    | relation τ => simp [onward, hσ, walkList]
    | baseForm => simp [onward, hσ, walkList]
  | beyond hσ h hi =>
    rw [h.found_walk rfl]
    simp [onward, hσ, walkList, List.getElem?_eq_none hi]
  | goesOn hp h hn _ ih => rwa [h.found_walk_of_pick? hp hn]

theorem PassesOn.strays (h : r.PassesOn store σ rs) (hf : Step.first? path = some σ)
    (hp : ∀ i rest, Step.pick? path = some ((σ, i), rest) → rs[i]? = none)
    (ho : (onward store path rs).found = none) : r.Strays store path := by
  cases path with
  | nil => cases hf
  | cons step path =>
    cases step with
    | index i => cases hf
    | relation τ =>
      obtain rfl : τ = σ := Option.some.inj hf
      cases hτ : τ.isList with
      | true =>
        cases path with
        | nil => simp [onward, hτ, walkList] at ho
        | cons step path =>
          cases step with
          | index i =>
            have short : rs[i]? = none := hp i path (by simp [Step.pick?, hτ])
            exact .beyond hτ h (List.getElem?_eq_none_iff.1 short)
          | relation _ => exact .unplaced hτ (by simp) h
          | baseForm => exact .unplaced hτ (by simp) h
      | false =>
        obtain rfl : rs = [] := by simpa using hp 0 path (by simp [Step.pick?, hτ])
        simp [onward, hτ, walkHead] at ho
    | baseForm =>
      obtain rfl : .inflections .base = σ := Option.some.inj hf
      obtain rfl : rs = [] := by simpa using hp 0 path rfl
      simp [onward, walkHead] at ho

theorem tells_ask {a : Logged (List Record)} (h : r.ask store σ = some a) :
    a.Tells (Asked store r σ) := by
  cases hr : r.loaded? σ with
  | some rs =>
    obtain rfl : Logged.ok rs = a := by simpa [ask_of_loaded hr] using h
    exact ⟨[], rfl, .kept hr⟩
  | none =>
    cases hl : r.entity.load? σ with
    | none => simp [ask, related?, hr, hl] at h
    | some load =>
      obtain rfl : List.map ofEntity <$> load.attempt r.entity.kind store = a := by
        simpa [ask_of_load hl hr] using h
      obtain ⟨bs, he, ht⟩ := load.tells_run store
      refine ⟨.hydrated r.entity.kind :: bs, ?_, ?_⟩
      · rw [Logged.events_map, Load.events_attempt, he]
        rfl
      · rw [Logged.result_map, Load.result_attempt]
        exact .loaded hr hl ht

/-- A walk leads somewhere, and tells of what is asked for on the way, or it strays. -/
theorem walked_or_strays (r : Record) (path : List Step) :
    (∃ a bs, (r.walk store path).found = some a ∧ a.events = EventBlock.log bs ∧
      Walked store r path bs) ∨ r.Strays store path := by
  cases hf : Step.first? path with
  | none =>
    cases path with
    | nil => exact .inl ⟨_, [], rfl, rfl, .stays hf⟩
    | cons step path =>
      cases step with
      | index i => exact .inr .unlisted
      | relation σ => cases hf
      | baseForm => cases hf
  | some σ =>
    cases hq : r.ask store σ with
    | none =>
      obtain ⟨hr, hσ⟩ := ask_eq_none_iff.1 hq
      exact .inr (.unrelated hf hr hσ)
    | some q =>
      obtain ⟨bs, he, ht⟩ := tells_ask hq
      cases hr : q.result with
      | error e =>
        refine .inl ⟨⟨.error e, q.events⟩, bs, ?_, he, .asks hf (hr ▸ ht) (by simp)⟩
        rw [walk_of_first? hf, walkRelation_of_error hq hr]
      | ok rs =>
        have passes : r.PassesOn store σ rs := ⟨q, hq, hr⟩
        have found : (r.walk store path).found =
            (onward store path rs).found.map (fun b => do .report q.events; b) := by
          rw [walk_of_first? hf, walkRelation_of_ok hq hr, Walk.precede, Walk.found_map]
        by_cases hp : ∃ τ i rest n, Step.pick? path = some ((τ, i), rest) ∧ rs[i]? = some n
        · obtain ⟨τ, i, rest, n, hp, hn⟩ := hp
          obtain rfl : τ = σ := Option.some.inj ((Step.first?_of_pick? hp).symm.trans hf)
          have := Step.length_of_pick? hp
          rw [onward_of_pick? hp hn, Walk.found_map] at found
          obtain ⟨b, bs', hb, he', hw⟩ | hs := walked_or_strays n rest
          · refine .inl ⟨_, bs ++ bs', by rw [found, hb]; rfl, ?_, .goesOn hp (hr ▸ ht) hn hw⟩
            change q.events ++ b.events = _
            rw [he, he', EventBlock.log_append]
          · exact .inr (.goesOn hp passes hn hs)
        · have stops (τ i rest) (h : Step.pick? path = some ((τ, i), rest)) : rs[i]? = none :=
            Option.eq_none_iff_forall_ne_some.2 fun n hn => hp ⟨τ, i, rest, n, h, hn⟩
          cases ho : (onward store path rs).found with
          | none => exact .inr (passes.strays hf (stops σ) ho)
          | some b =>
            have silent : b.events = [] := (onward_of_stops stops).2 b ho
            refine .inl ⟨_, bs, by rw [found, ho]; rfl, ?_, .asks hf (hr ▸ ht) ?_⟩
            · change q.events ++ b.events = _
              rw [silent, List.append_nil, he]
            · rintro _ τ i rest ⟨rfl⟩
              exact stops τ i rest
termination_by path.length

end Record

inductive Call
  | query (kind : Kind) (filter : Filter) (order : Order) (limit : Option UInt32)
  | all (query : Query)
  | first (query : Query)
  | everything (kind : Kind)
  | walk (record : Nat) (path : List Step)

namespace Call

variable (store : Store)

def handed : Except Error (List Entity) → List Record
  | .ok es => es.map .ofEntity
  | .error _ => []

/-- What a call records, and the records that are held after it. A walk that strays is none. -/
def perform (held : List Record) : Call → List Event × List Record
  | .query k f order limit => ((Query.prepare store k f order limit).events, held)
  | .all q => ((q.all store).events, held ++ handed (q.all store).result)
  | .first q => ((q.first store).events, held ++ handed ((q.first store).result.map ([·])))
  | .everything k => ((store.all k).events, held ++ handed (store.all k).result)
  | .walk i path =>
    match held[i]? with
    | none => ([], held)
    | some r =>
      match (r.walk store path).found with
      | none => ([], held)
      | some a => (a.events, held.set i (r.visit ⟨store, path⟩))

inductive Told (held : List Record) : Call → List EventBlock → Prop
  | query {k : Kind} {f : Filter} {order : Order} {limit : Option UInt32} {bs : List EventBlock} :
    Query.Prepared store k f order limit (Query.prepare store k f order limit).result bs →
    Told held (.query k f order limit) bs
  | all {q : Query} {bs : List EventBlock} : q.RanAll store (q.all store).result bs →
    Told held (.all q) bs
  | first {q : Query} {bs : List EventBlock} : q.RanFirst store (q.first store).result bs →
    Told held (.first q) bs
  | everything {k : Kind} {bs : List EventBlock} :
    (Query.Prepared store k .empty (.ascending (Schema.idField k)) none).AndThen
      (fun q => q.RanAll store) (store.all k).result bs → Told held (.everything k) bs
  | walk {i : Nat} {path : List Step} {r : Record} {bs : List EventBlock} : held[i]? = some r →
    r.Walked store path bs → Told held (.walk i path) bs
  | unheld {i : Nat} {path : List Step} : held.length ≤ i → Told held (.walk i path) []
  | strays {i : Nat} {path : List Step} {r : Record} : held[i]? = some r → r.Strays store path →
    Told held (.walk i path) []

variable {store} {held : List Record}

theorem exists_told (call : Call) :
    ∃ bs, (call.perform store held).1 = EventBlock.log bs ∧ call.Told store held bs := by
  cases call with
  | query k f order limit =>
    obtain ⟨bs, he, ht⟩ := Query.tells_prepare store k f order limit
    exact ⟨bs, he, .query ht⟩
  | all q =>
    obtain ⟨bs, he, ht⟩ := q.tells_all store
    exact ⟨bs, he, .all ht⟩
  | first q =>
    obtain ⟨bs, he, ht⟩ := q.tells_first store
    exact ⟨bs, he, .first ht⟩
  | everything k =>
    obtain ⟨bs, he, ht⟩ := store.tells_all k
    exact ⟨bs, he, .everything ht⟩
  | walk i path =>
    rw [perform]
    cases hr : held[i]? with
    | none => exact ⟨[], rfl, .unheld (List.getElem?_eq_none_iff.1 hr)⟩
    | some r =>
      dsimp only
      obtain ⟨a, bs, ha, he, hw⟩ | hs := r.walked_or_strays path
      · rw [ha]
        exact ⟨bs, he, .walk hr hw⟩
      · rw [hs.found_walk]
        exact ⟨[], rfl, .strays hr hs⟩

end Call

namespace Session

def log : List Record → List (Store × Call) → List Event
  | _, [] => []
  | held, (store, call) :: calls =>
    (call.perform store held).1 ++ log (call.perform store held).2 calls

inductive Told : List Record → List (Store × Call) → List EventBlock → Prop
  | nil {held : List Record} : Told held [] []
  | cons {held : List Record} {store : Store} {call : Call} {calls : List (Store × Call)}
    {bs bs' : List EventBlock} : call.Told store held bs →
    Told (call.perform store held).2 calls bs' → Told held ((store, call) :: calls) (bs ++ bs')

/-- Whatever is called in whatever stores, with whatever failures: the log is made of blocks, those
that tell of the calls in turn, and it is made of blocks in no other way. -/
theorem log_made_of_blocks (held : List Record) (calls : List (Store × Call)) :
    ∃ bs, Told held calls bs ∧ log held calls = EventBlock.log bs ∧
      ∀ bs', log held calls = EventBlock.log bs' → bs' = bs := by
  have made : ∃ bs, Told held calls bs ∧ log held calls = EventBlock.log bs := by
    induction calls generalizing held with
    | nil => exact ⟨[], .nil, rfl⟩
    | cons c calls ih =>
      obtain ⟨store, call⟩ := c
      obtain ⟨bs, he, ht⟩ := call.exists_told
      obtain ⟨bs', ht', he'⟩ := ih (call.perform store held).2
      exact ⟨bs ++ bs', .cons ht ht', by rw [log, he, he', EventBlock.log_append]⟩
  obtain ⟨bs, ht, he⟩ := made
  exact ⟨bs, ht, he, fun bs' h => EventBlock.log_injective (h.symm.trans he)⟩

end Session

end Lexiquery
