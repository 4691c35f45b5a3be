import Lexiquery.Entity.Record

/-! What one visit leaves of a record. It touches what is kept along the relation it asks for first
and, of the records there, only the one it goes on from. -/

namespace Lexiquery

structure Visit where
  store : Store
  path : List Step

def Step.relation? : Step → Option Relation
  | relation σ => some σ
  | baseForm => some (.inflections .base)
  | index _ => none

def Step.shown : Step → List Record → Logged Found
  | relation σ, rs => .ok (if σ.isList then .list rs else rs.head?.elim .absent .single)
  | baseForm, rs => rs.head?.elim (.fail (.response (.notFound .form))) (.ok ∘ .single)
  | index i, rs => .ok (rs[i]?.elim .absent .single)

def Step.first? (path : List Step) : Option Relation := path.head?.bind relation?

/-- The relation and the position that the first steps of a path pick, and the steps after these. -/
def Step.pick? : List Step → Option ((Relation × Nat) × List Step)
  | .relation σ :: path =>
    match σ.isList, path with
    | true, .index i :: path => some ((σ, i), path)
    | true, _ => none
    | false, path => some ((σ, 0), path)
  | .baseForm :: path => some ((.inflections .base, 0), path)
  | _ => none

theorem Step.first?_of_pick? {σ : Relation} {i : Nat} {path rest : List Step}
    (h : pick? path = some ((σ, i), rest)) : first? path = some σ := by
  unfold pick? at h
  split at h
  · split at h <;> simp_all [first?, relation?]
  · simp_all [first?, relation?]
  · simp at h

theorem Step.length_of_pick? {q : Relation × Nat} {path rest : List Step}
    (h : pick? path = some (q, rest)) : rest.length < path.length := by
  match path with
  | .relation σ :: path =>
    cases hσ : σ.isList with
    | true =>
      match path with
      | .index i :: path =>
        simp only [pick?, hσ, Option.some.injEq, Prod.mk.injEq] at h
        obtain ⟨rfl, rfl⟩ := h
        simp only [List.length_cons]
        omega
      | [] | .relation _ :: _ | .baseForm :: _ => simp [pick?, hσ] at h
    | false => simp_all [pick?]
  | .baseForm :: path => simp_all [pick?]
  | [] | .index _ :: _ => simp [pick?] at h

@[simp]
theorem Walk.found_map {α β : Type} (f : α → β) (w : Walk α) : (w.map f).found = w.found := rfl

@[simp]
theorem Walk.precede_nil {α : Type} (w : Walk α) : w.precede [] = w := by
  have report_nil (a : Logged Found) : (do .report []; a) = a := rfl
  simp [precede, report_nil]

namespace Record

variable {r n : Record} {s : Store} {σ τ : Relation} {rs rs' : List Record} {i : Nat}
  {path rest : List Step} {v : Visit} {a : Logged (List Record)} {e : Error}

@[simp]
theorem entity_keep : (r.keep σ rs).entity = r.entity := rfl

theorem lookup_filter_of_ne (h : τ ≠ σ) (kept : List (Relation × List Record)) :
    (kept.filter (·.1 ≠ σ)).lookup τ = kept.lookup τ := by
  induction kept with
  | nil => rfl
  | cons x kept ih =>
    rw [List.filter_cons]
    split
    · rw [List.lookup_cons, List.lookup_cons, ih]
    · have hx : (τ == x.1) = false := by simp_all
      rw [ih, List.lookup_cons, hx]

@[simp]
theorem loaded?_keep_self : (r.keep σ rs).loaded? σ = some rs := by
  simp [loaded?, loaded, keep]

theorem loaded?_keep_of_ne (h : τ ≠ σ) : (r.keep σ rs).loaded? τ = r.loaded? τ := by
  have hτ : (τ == σ) = false := by simp [h]
  rw [loaded?, keep, loaded, List.lookup_cons, hτ]
  exact lookup_filter_of_ne h r.loaded

@[simp]
theorem keep_keep : (r.keep σ rs).keep σ rs' = r.keep σ rs' := by
  simp [keep, loaded, entity]

/-- What is passed on when a relation is asked for. -/
def ask (r : Record) (s : Store) (σ : Relation) : Option (Logged (List Record)) :=
  (r.related? s σ).map (·.1)

theorem ask_of_loaded (h : r.loaded? σ = some rs) : r.ask s σ = some (.ok rs) := by
  rw [ask, related?, h]
  rfl

def visit (r : Record) (v : Visit) : Record :=
  (r.walk v.store v.path).after

/-- How a path goes on from the records along the relation it asks for first. -/
def onward (s : Store) : List Step → List Record → Walk (List Record)
  | .relation σ :: path => fun rs =>
    if σ.isList then walkList s path rs else walkHead (walk s path) (.ok .absent) rs
  | .baseForm :: path => walkHead (walk s path) (.fail (.response (.notFound .form)))
  | _ => fun rs => ⟨none, rs⟩

theorem walk_of_first? (h : Step.first? path = some σ) :
    r.walk s path = r.walkRelation s σ (onward s path) := by
  match path with
  | [] => simp [Step.first?] at h
  | .relation τ :: path =>
    obtain rfl : τ = σ := by simpa [Step.first?, Step.relation?] using h
    rfl
  | .baseForm :: path =>
    obtain rfl : .inflections .base = σ := by simpa [Step.first?, Step.relation?] using h
    rfl
  | .index i :: path => simp [Step.first?, Step.relation?] at h

theorem visit_of_first?_eq_none (h : Step.first? v.path = none) : r.visit v = r := by
  obtain ⟨s, path⟩ := v
  match path with
  | [] => rfl
  | .relation τ :: path => simp [Step.first?, Step.relation?] at h
  | .baseForm :: path => simp [Step.first?, Step.relation?] at h
  | .index i :: path => rfl

theorem related?_of_ask (h : r.ask s σ = some a) : ∃ r', r.related? s σ = some (a, r') ∧
    (∀ e, a.result = .error e → r' = r) ∧
    ∀ rs, a.result = .ok rs → ∀ rs', r'.keep σ rs' = r.keep σ rs' := by
  cases hr : r.loaded? σ with
  | some rs =>
    obtain rfl : Logged.ok rs = a := by simpa [ask_of_loaded hr] using h
    refine ⟨r, by simp only [related?, hr], ?_, fun _ _ _ => rfl⟩
    intro e he
    simp [Logged.ok] at he
  | none =>
    rw [ask, Option.map_eq_some_iff] at h
    obtain ⟨⟨a, r'⟩, hr', rfl⟩ := h
    refine ⟨r', hr', ?_⟩
    simp only [related?, hr, Option.map_eq_some_iff, Prod.mk.injEq] at hr'
    obtain ⟨load, -, ha, rfl⟩ := hr'
    rw [ha]
    constructor
    · intro e (he : a.result = .error e)
      simp only [he]
    · intro rs (hrs : a.result = .ok rs) rs'
      simp only [hrs, keep_keep]

theorem walkRelation_of_ok {k : List Record → Walk (List Record)} (h : r.ask s σ = some a)
    (ha : a.result = .ok rs) :
    r.walkRelation s σ k = ((k rs).map (r.keep σ ·)).precede a.events := by
  obtain ⟨r', hr, -, hk⟩ := related?_of_ask h
  simp only [walkRelation, hr, ha, hk rs ha]

theorem walkRelation_of_error {k : List Record → Walk (List Record)} (h : r.ask s σ = some a)
    (ha : a.result = .error e) : r.walkRelation s σ k = ⟨some ⟨.error e, a.events⟩, r⟩ := by
  obtain ⟨r', hr, he, -⟩ := related?_of_ask h
  simp only [walkRelation, hr, ha, he e ha]

theorem walkRelation_of_none {k : List Record → Walk (List Record)} (h : r.ask s σ = none) :
    r.walkRelation s σ k = ⟨none, r⟩ := by
  rw [ask, Option.map_eq_none_iff] at h
  rw [walkRelation, h]

theorem visit_of_ok (h : Step.first? v.path = some σ) (ha : r.ask v.store σ = some a)
    (hr : a.result = .ok rs) : r.visit v = r.keep σ (onward v.store v.path rs).after := by
  rw [visit, walk_of_first? h, walkRelation_of_ok ha hr]
  rfl

theorem visit_of_error (h : Step.first? v.path = some σ) (ha : r.ask v.store σ = some a)
    (hr : a.result = .error e) : r.visit v = r := by
  rw [visit, walk_of_first? h, walkRelation_of_error ha hr]

/-- A visit changes nothing unless it finds records along the relation it asks for, and then it
keeps them, as they are after what it did with them. -/
theorem visit_cases (h : Step.first? v.path = some σ) : r.visit v = r ∨ ∃ a rs,
    r.ask v.store σ = some a ∧ a.result = .ok rs ∧
      r.visit v = r.keep σ (onward v.store v.path rs).after := by
  cases ha : r.ask v.store σ with
  | none => exact .inl (by rw [visit, walk_of_first? h, walkRelation_of_none ha])
  | some a =>
    cases hr : a.result with
    | error e => exact .inl (visit_of_error h ha hr)
    | ok rs => exact .inr ⟨a, rs, rfl, hr, visit_of_ok h ha hr⟩

@[simp]
theorem entity_visit : (r.visit v).entity = r.entity := by
  cases h : Step.first? v.path with
  | none => rw [visit_of_first?_eq_none h]
  | some σ =>
    obtain hv | ⟨a, rs, -, -, hv⟩ := visit_cases (r := r) h <;> rw [hv]
    exact entity_keep

theorem loaded?_visit_of_ne (h : Step.first? v.path ≠ some σ) :
    (r.visit v).loaded? σ = r.loaded? σ := by
  cases hv : Step.first? v.path with
  | none => rw [visit_of_first?_eq_none hv]
  | some τ =>
    have hτ : σ ≠ τ := fun he => h (he ▸ hv)
    obtain hv | ⟨a, rs, -, -, hv⟩ := visit_cases (r := r) hv <;> rw [hv]
    exact loaded?_keep_of_ne hτ

theorem onward_of_pick? (h : Step.pick? path = some ((σ, i), rest)) (hn : rs[i]? = some n) :
    onward s path rs = (n.walk s rest).map (rs.set i ·) := by
  match path with
  | .relation τ :: path =>
    cases hτ : τ.isList with
    | true =>
      match path with
      | .index j :: path =>
        simp only [Step.pick?, hτ, Option.some.injEq, Prod.mk.injEq] at h
        obtain ⟨⟨rfl, rfl⟩, rfl⟩ := h
        simp [onward, hτ, walkList, hn]
      | [] | .relation _ :: _ | .baseForm :: _ => simp [Step.pick?, hτ] at h
    | false =>
      simp only [Step.pick?, hτ, Option.some.injEq, Prod.mk.injEq] at h
      obtain ⟨⟨rfl, rfl⟩, rfl⟩ := h
      obtain ⟨rs, rfl⟩ := List.head?_eq_some_iff.1 (List.head?_eq_getElem?.trans hn)
      simp [onward, hτ, walkHead]
  | .baseForm :: path =>
    simp only [Step.pick?, Option.some.injEq, Prod.mk.injEq] at h
    obtain ⟨⟨rfl, rfl⟩, rfl⟩ := h
    obtain ⟨rs, rfl⟩ := List.head?_eq_some_iff.1 (List.head?_eq_getElem?.trans hn)
    simp [onward, walkHead]
  | [] | .index _ :: _ => simp [Step.pick?] at h

/-- A path that goes on from none of the records leaves them alone, and nothing happens. -/
theorem onward_of_stops (h : ∀ σ i rest, Step.pick? path = some ((σ, i), rest) → rs[i]? = none) :
    (onward s path rs).after = rs ∧ ∀ b ∈ (onward s path rs).found, b.events = [] := by
  match path with
  | .relation τ :: path =>
    cases hτ : τ.isList with
    | true =>
      match path with
      | .index j :: path => simp [onward, hτ, walkList, h τ j path (by simp [Step.pick?, hτ])]
      | [] | .relation _ :: _ | .baseForm :: _ => simp [onward, hτ, walkList, Logged.ok]
    | false =>
      obtain rfl : rs = [] := by simpa using h τ 0 path (by simp [Step.pick?, hτ])
      simp [onward, hτ, walkHead, Logged.ok]
  | .baseForm :: path =>
    obtain rfl : rs = [] := by simpa using h _ 0 path rfl
    simp [onward, walkHead, Logged.fail]
  | [] | .index _ :: _ => simp [onward]

theorem onward_cases (s : Store) (path : List Step) (rs : List Record) :
    (onward s path rs).after = rs ∨ ∃ σ i rest n,
    Step.pick? path = some ((σ, i), rest) ∧ rs[i]? = some n ∧
    (onward s path rs).after = rs.set i (n.visit ⟨s, rest⟩) := by
  cases hp : Step.pick? path with
  | none => exact .inl (onward_of_stops (by simp [hp])).1
  | some p =>
    obtain ⟨⟨σ, i⟩, rest⟩ := p
    cases hn : rs[i]? with
    | none => exact .inl (onward_of_stops (by simp_all)).1
    | some n => exact .inr ⟨σ, i, rest, n, rfl, hn, by rw [onward_of_pick? hp hn]; rfl⟩

theorem getElem?_onward (h : ∀ σ rest, Step.pick? path ≠ some ((σ, i), rest)) :
    (onward s path rs).after[i]? = rs[i]? := by
  obtain ho | ⟨σ, j, rest, n, hp, -, ho⟩ := onward_cases s path rs <;> rw [ho]
  have hj : j ≠ i := fun he => h σ rest (he ▸ hp)
  exact List.getElem?_set_ne hj

theorem map_entity_onward : (onward s path rs).after.map entity = rs.map entity := by
  obtain ho | ⟨σ, i, rest, n, -, hn, ho⟩ := onward_cases s path rs <;> rw [ho]
  obtain ⟨hi, rfl⟩ := List.getElem?_eq_some_iff.1 hn
  rw [List.map_set, entity_visit, ← List.getElem_map entity (h := by simpa using hi),
    List.set_getElem_self]

end Record

end Lexiquery
