import Lexiquery.Proofs.Entity.Keeping

/-! Records inside records. Each keeps what was loaded along its own relations, so a visit comes to
at most one of them after the other, and what it does to one is what a visit from there would do. -/

namespace Lexiquery

/-- How to come to a record along what is loaded: a relation and a position among its records, and
on from there. -/
abbrev Place := List (Relation × Nat)

def Step.beyond : Place → List Step → Option (List Step)
  | [], path => some path
  | q :: p, path => (pick? path).bind fun (q', rest) => if q' = q then beyond p rest else none

def Visit.beyond (p : Place) (v : Visit) : Option Visit :=
  (Step.beyond p v.path).map (⟨v.store, ·⟩)

theorem Visit.beyond_cons_of_pick? {q : Relation × Nat} {p : Place} {v : Visit} {rest : List Step}
    (h : Step.pick? v.path = some (q, rest)) : v.beyond (q :: p) = beyond p ⟨v.store, rest⟩ := by
  simp [beyond, Step.beyond, h]

theorem Visit.beyond_cons_of_not {q : Relation × Nat} {p : Place} {v : Visit}
    (h : ∀ rest, Step.pick? v.path ≠ some (q, rest)) : v.beyond (q :: p) = none := by
  rw [beyond, Step.beyond, Option.map_eq_none_iff, Option.bind_eq_none_iff]
  rintro ⟨q', rest⟩ hp
  apply if_neg
  rintro rfl
  exact h rest hp

namespace Record

def at? : Place → Record → Option Record
  | [], r => some r
  | (σ, i) :: p, r => (r.loaded? σ).bind fun rs => rs[i]?.bind (at? p)

variable {r n : Record} {s : Store} {σ : Relation} {rs : List Record} {i : Nat} {p : Place}
  {path rest : List Step} {v : Visit}

/-- What is loaded stays loaded. Of the records there, only the one picked may change, and that only
in what it keeps itself. -/
theorem loaded?_visit (hr : r.loaded? σ = some rs) :
    ∃ rs', (r.visit v).loaded? σ = some rs' ∧ rs'.map entity = rs.map entity ∧
      ∀ i, (∀ rest, Step.pick? v.path ≠ some ((σ, i), rest)) → rs'[i]? = rs[i]? := by
  by_cases hv : Step.first? v.path = some σ
  · rw [visit_of_ok hv (ask_of_loaded hr) rfl, loaded?_keep_self]
    refine ⟨_, rfl, map_entity_onward, ?_⟩
    intro i hi
    apply getElem?_onward
    intro τ rest hp
    obtain rfl : τ = σ := Option.some.inj ((Step.first?_of_pick? hp).symm.trans hv)
    exact hi rest hp
  · exact ⟨rs, by rw [loaded?_visit_of_ne hv, hr], rfl, fun _ _ => rfl⟩

theorem walk_of_pick? (hp : Step.pick? path = some ((σ, i), rest)) (hr : r.loaded? σ = some rs)
    (hn : rs[i]? = some n) :
    r.walk s path = (n.walk s rest).map fun n' => r.keep σ (rs.set i n') := by
  rw [walk_of_first? (Step.first?_of_pick? hp), walkRelation_of_ok (ask_of_loaded hr) rfl,
    onward_of_pick? hp hn]
  exact Walk.precede_nil _

/-- A visit does to the record at a place what the part of it beyond does to that record alone. -/
theorem at?_visit (hn : r.at? p = some n) :
    (r.visit v).at? p = some ((v.beyond p).elim n n.visit) := by
  induction p generalizing r v with
  | nil => exact congrArg some (Option.some.inj hn ▸ rfl)
  | cons q p ih =>
    obtain ⟨σ, i⟩ := q
    obtain ⟨rs, hr, hn⟩ := Option.bind_eq_some_iff.1 hn
    obtain ⟨n', hi, hn⟩ := Option.bind_eq_some_iff.1 hn
    by_cases hp : ∃ rest, Step.pick? v.path = some ((σ, i), rest)
    · obtain ⟨rest, hp⟩ := hp
      have hv : r.visit v = r.keep σ (rs.set i (n'.visit ⟨v.store, rest⟩)) := by
        rw [visit, walk_of_pick? hp hr hi]
        rfl
      have hi' : i < rs.length := (List.getElem?_eq_some_iff.1 hi).1
      rw [Visit.beyond_cons_of_pick? hp, ← ih hn, hv, at?, loaded?_keep_self, Option.bind_some,
        List.getElem?_set_self hi', Option.bind_some]
    · rw [not_exists] at hp
      obtain ⟨rs', hr', -, hi'⟩ := loaded?_visit (v := v) hr
      rw [Visit.beyond_cons_of_not hp, at?, hr', Option.bind_some, hi' i hp, hi]
      exact hn

theorem found_walk (hn : r.at? p = some n) (h : Step.beyond p path = some rest) :
    (r.walk s path).found = (n.walk s rest).found := by
  induction p generalizing r path with
  | nil =>
    obtain rfl : r = n := Option.some.inj hn
    obtain rfl : path = rest := Option.some.inj h
    rfl
  | cons q p ih =>
    obtain ⟨σ, i⟩ := q
    obtain ⟨rs, hr, hn⟩ := Option.bind_eq_some_iff.1 hn
    obtain ⟨n', hi, hn⟩ := Option.bind_eq_some_iff.1 hn
    obtain ⟨⟨q, path'⟩, hp, h⟩ := Option.bind_eq_some_iff.1 h
    obtain ⟨rfl, hrest⟩ : q = (σ, i) ∧ Step.beyond p path' = some rest := by simpa using h
    rw [walk_of_pick? hp hr hi]
    exact ih hn hrest

end Record

end Lexiquery
