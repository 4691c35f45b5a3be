import Lexiquery.Proofs.Entity.Loading
import Lexiquery.Proofs.Entity.Places
import Lexiquery.Proofs.Store.Lexical

/-! Records over time. The store may be another at each visit, what a relation answers depends only
on the stores in which it was asked for up to its first success, and on nothing else that was done
with the record or with others. -/

namespace Lexiquery

def Visit.storesAlong (σ : Relation) (h : List Visit) : List Store :=
  (h.filter (Step.first? ·.path = some σ)).map (·.store)

namespace Record

def after (r : Record) (h : List Visit) : Record := h.foldl visit r

def answers (σ : Relation) : Record → List Visit → List (Logged (List Entity))
  | _, [] => []
  | r, v :: h =>
    if Step.first? v.path = some σ then
      ((r.ask v.store σ).map (List.map entity <$> ·)).toList ++ answers σ (r.visit v) h
    else answers σ (r.visit v) h

variable {r n : Record} {s : Store} {σ : Relation} {rs : List Record} {p : Place} {load : Load}
  {path rest : List Step} {step : Step} {v : Visit} {h : List Visit}

theorem after_cons : r.after (v :: h) = (r.visit v).after h := rfl

theorem ask_of_load (hl : r.entity.load? σ = some load) (hr : r.loaded? σ = none) :
    r.ask s σ = some (List.map ofEntity <$> load.attempt r.entity.kind s) := by
  rw [ask, related?, hr, hl, Load.attempt, Logged.map_report]
  rfl

theorem map_entity_ofEntity (es : List Entity) : (es.map ofEntity).map entity = es := by
  simp [ofEntity, entity, Function.comp_def]

theorem map_entity_map_ofEntity (a : Logged (List Entity)) :
    (List.map entity <$> List.map ofEntity <$> a) = a := by
  obtain ⟨result, events⟩ := a
  cases result with
  | error e => rfl
  | ok es =>
    change Logged.mk (.ok ((es.map ofEntity).map entity)) ((events ++ []) ++ []) = _
    rw [map_entity_ofEntity, List.append_nil, List.append_nil]

theorem answers_of_loaded (hr : r.loaded? σ = some rs) :
    r.answers σ h = (Visit.storesAlong σ h).map fun _ => .ok (rs.map entity) := by
  induction h generalizing r rs with
  | nil => rfl
  | cons v h ih =>
    obtain ⟨rs', hr', he, -⟩ := loaded?_visit (v := v) hr
    by_cases hv : Step.first? v.path = some σ
    · simp [answers, Visit.storesAlong, hv, ask_of_loaded hr, ih hr', he]
      rfl
    · simp [answers, Visit.storesAlong, hv, ih hr', he]

theorem answers_eq_serve (hl : r.entity.load? σ = some load) (hr : r.loaded? σ = none) :
    r.answers σ h = load.serve r.entity.kind (Visit.storesAlong σ h) := by
  induction h generalizing r with
  | nil => rfl
  | cons v h ih =>
    by_cases hv : Step.first? v.path = some σ
    · have ha := ask_of_load (s := v.store) hl hr
      have hs : Visit.storesAlong σ (v :: h) = v.store :: Visit.storesAlong σ h := by
        simp [Visit.storesAlong, hv]
      rw [answers, if_pos hv, hs, ha, Option.map_some, map_entity_map_ofEntity]
      have result : (List.map ofEntity <$> load.attempt r.entity.kind v.store).result =
          (load.run v.store).result.map (List.map ofEntity) := Logged.result_map ..
      cases hx : (load.run v.store).result with
      | error e =>
        -- nothing is kept, so the rest of the visits finds the record as this one did
        rw [hx] at result
        rw [Load.serve_cons_of_error hx, visit_of_error hv ha result, ih hl hr]
        rfl
      | ok es =>
        rw [hx] at result
        obtain ⟨rs, hrs, he⟩ : ∃ rs, (r.visit v).loaded? σ = some rs ∧ rs.map entity = es := by
          rw [visit_of_ok hv ha result, loaded?_keep_self]
          exact ⟨_, rfl, map_entity_onward.trans (map_entity_ofEntity es)⟩
        rw [Load.serve_cons_of_ok hx, answers_of_loaded hrs, he]
        rfl
    · have hr' : (r.visit v).loaded? σ = none := by rw [loaded?_visit_of_ne hv, hr]
      rw [answers, if_neg hv, ih (entity_visit.symm ▸ hl) hr', entity_visit]
      simp [Visit.storesAlong, hv]

theorem answers_concat (hv : Step.first? v.path = some σ) : r.answers σ (h ++ [v]) =
    r.answers σ h ++ (((r.after h).ask v.store σ).map (List.map entity <$> ·)).toList := by
  induction h generalizing r with
  | nil => simp [answers, hv, after]
  | cons w h ih =>
    rw [List.cons_append, answers, answers, ih, after_cons]
    split
    · rw [List.append_assoc]
    · rfl

theorem exists_ask (hl : r.entity.load? σ = some load) : ∃ a, r.ask s σ = some a := by
  cases hr : r.loaded? σ with
  | none => exact ⟨_, ask_of_load hl hr⟩
  | some rs => exact ⟨_, ask_of_loaded hr⟩

theorem at?_after (hn : r.at? p = some n) :
    (r.after h).at? p = some (n.after (h.filterMap (Visit.beyond p))) := by
  induction h generalizing r n with
  | nil => exact hn
  | cons v h ih =>
    rw [after_cons, List.filterMap_cons, ih (at?_visit hn)]
    cases v.beyond p <;> rfl

theorem entity_after : (r.after h).entity = r.entity := by
  induction h generalizing r with
  | nil => rfl
  | cons v h ih => rw [after_cons, ih, entity_visit]

theorem found_onward_single (hs : step.relation? = some σ) :
    (onward s [step] rs).found = some (step.shown rs) := by
  cases step with
  | relation τ =>
    cases hτ : τ.isList with
    | true => simp [onward, hτ, walkList, Step.shown]
    | false => cases rs <;> simp [onward, hτ, walkHead, walk, Step.shown]
  | baseForm => cases rs <;> rfl
  | index i => cases hs

theorem found_walk_single (hs : step.relation? = some σ) :
    (r.walk s [step]).found = (r.ask s σ).map (· >>= step.shown) := by
  have hf : Step.first? [step] = some σ := hs
  rw [walk_of_first? hf]
  cases ha : r.ask s σ with
  | none => rw [walkRelation_of_none ha]; rfl
  | some a =>
    obtain ⟨result, events⟩ := a
    cases result with
    | error e => rw [walkRelation_of_error ha rfl]; rfl
    | ok rs =>
      rw [walkRelation_of_ok ha rfl, Walk.precede, Walk.found_map, found_onward_single hs]
      rfl

/-- Whatever is done with a record and the records inside it, and whatever becomes of the store
between: a record at a place is as if it had had the visits that come to it alone. What it answers
along a relation not loaded so far is what its load would give, attempted until it succeeds and no
more then; the hydrations told of are the failures and, if there is one, the success. A step along
the relation ends with the next such answer, for the base form with the first of it. A visit that
asks for another relation leaves alone what is kept along this one. -/
theorem serves_at (hn : r.at? p = some n) (hσ : σ ∈ n.entity.kind.relations)
    (hr : n.loaded? σ = none) (h : List Visit) :
    let seen := h.filterMap (Visit.beyond p)
    let stores := Visit.storesAlong σ seen
    let answers := n.answers σ seen
    (r.after h).at? p = some (n.after seen) ∧ ∃ load, n.entity.load? σ = some load ∧
      answers = load.serve n.entity.kind stores ∧
      Logged.hydrations answers = answers.countP (!·.succeeded) +
        (if answers.any Logged.succeeded then 1 else 0) ∧
      (∀ s, ∃ answer, (n.after seen).ask s σ = some answer ∧
        (load.serve n.entity.kind (stores ++ [s])).getLast? = some (List.map entity <$> answer) ∧
        ∀ path step, Step.beyond p path = some [step] → step.relation? = some σ →
          ((r.after h).walk s path).found = some (answer >>= step.shown)) ∧
      ∀ v, Step.first? v.path ≠ some σ →
        ((n.after seen).visit v).loaded? σ = (n.after seen).loaded? σ := by
  intro seen stores answers
  obtain ⟨load, hl⟩ := Entity.exists_load?_iff.2 hσ
  have served : answers = load.serve n.entity.kind stores := answers_eq_serve hl hr
  have hat : (r.after h).at? p = some (n.after seen) := at?_after hn
  refine ⟨hat, load, hl, served, ?_, ?_, ?_⟩
  · rw [served]
    exact Load.hydrations_serve
  · intro s
    obtain ⟨answer, ha⟩ := exists_ask (r := n.after seen) (s := s) (entity_after.symm ▸ hl)
    refine ⟨answer, ha, ?_, ?_⟩
    · have asked : Visit.storesAlong σ (seen ++ [⟨s, [.relation σ]⟩]) = stores ++ [s] := by
        simp [Visit.storesAlong, Step.first?, Step.relation?, stores]
      rw [← asked, ← answers_eq_serve hl hr, answers_concat rfl, ha]
      exact List.getLast?_concat
    · intro path step hp hs
      rw [found_walk hat hp, found_walk_single hs, ha]
      rfl
  · intro v hv
    exact loaded?_visit_of_ne hv

def unspelled : Store :=
  Store.sample.insertAll "words" [[.integer 4, .integer 2, .integer 4, .null, .null, .null]]

def spelled : Store :=
  (unspelled.insertAll "forms"
      [[.integer 1, .text "cat", .integer 1, .integer 0, .integer 3]]).insertAll "lemmas_forms"
      [[.integer 4, .integer 1, .integer (Enumeration.code Inflection.base)]]

/-- Visits that ask for the base form of the word, first where the table of forms is missing, then
where it is empty, then where it is not. -/
def spellings : List Visit :=
  [unspelled.drop "forms", unspelled, spelled].map fun s =>
    ⟨s, [.relation .words, .index 0, .baseForm]⟩

/-- The failure is not kept, but it is kept that there are no forms. -/
theorem spellings_serve_at : ∃ word load,
    ((ofEntity (.notion ⟨2, .noun, none, none⟩)).visit ⟨unspelled, [.relation .words]⟩).at?
      [(.words, 0)] = some word ∧
    word.entity.load? (.inflections .base) = some load ∧
    (load.run spelled).result.toOption ≠ some [] ∧
    let answers := word.answers (.inflections .base)
      (spellings.filterMap (Visit.beyond [(.words, 0)]))
    answers.map (·.result.toOption) = [none, some [], some []] ∧
      Logged.hydrations answers = 2 := by
  let cat : Entity := .word ⟨4, 2, 4, none, none, none⟩
  have fresh : (((ofEntity (.notion ⟨2, .noun, none, none⟩)).visit
      ⟨unspelled, [.relation .words]⟩).at? [(.words, 0)]).map
      (fun n => (n.entity, (n.loaded? (.inflections .base)).isNone)) = some (cat, true) := by
    decide +kernel
  obtain ⟨word, hw, hf⟩ := Option.map_eq_some_iff.1 fresh
  obtain ⟨he, hr⟩ := Prod.mk.inj hf
  have hσ : .inflections .base ∈ word.entity.kind.relations := by rw [he]; decide
  obtain ⟨-, load, hl, served, told, -⟩ :=
    serves_at hw hσ (Option.isNone_iff_eq_none.1 hr) spellings
  obtain rfl : load = .many .form (.link (Schema.Form.words .base) .hasSome cat.identityFilter)
      (Schema.idField .form) := by
    rw [he] at hl
    exact (Option.some.inj hl).symm
  refine ⟨word, _, hw, hl, by decide +kernel, ?_⟩
  rw [he] at served
  rw [served] at told ⊢
  dsimp only
  rw [told]
  decide +kernel

end Record

end Lexiquery
