import Lexiquery.Proofs.Filter.Gathering
import Lexiquery.Proofs.Query.Complement
import Lexiquery.Proofs.Query.Union

/-! Queries of several links that ask the same of the same related rows. -/

namespace Lexiquery

structure Filter.Plain (k : Kind) (f : Filter) : Prop where
  wellFormed : f.WellFormed
  overSchema : f.OverSchema
  scalar : f.Scalar k

theorem Store.Selects.project_mem_iff {store : Store} {k : Kind} {P : Row → Prop} {rows : List Row}
    (h : store.Selects k P rows) (hs : store.Lexical) {x : Row} (hx : x ∈ store.records k) :
    k.project x ∈ rows ↔ P x := by
  rw [h.mem_iff]
  constructor
  · rintro ⟨y, hy, hp, he⟩
    exact hs.eq_of_project hx hy he ▸ hp
  · exact fun hp => ⟨x, hx, hp, rfl⟩

namespace Filter

variable {r : Relationship} {t : LinkTest} {first : Filter} {rest : List Filter}

theorem every_gather {p : Field → Test → Prop} {q : Relationship → LinkTest → Prop} (hq : q r t)
    (h : ∀ f ∈ first :: rest, f.Every p q) : (gather r t first rest).Every p q := by
  have links : ∀ f ∈ (first :: rest).map (link r t), f.Every p q :=
    List.forall_mem_map.2 fun f hf => .link hq (h f hf)
  cases rest with
  | nil => exact links (link r t first) (by simp)
  | cons second rest => exact gather_cons second ▸ .group links

theorem plain_empty {k : Kind} : empty.Plain k := ⟨.empty, .empty, .empty⟩

theorem plain_id {n : Int64} : (test Schema.Word.id (.integer .equals n)).Plain .word :=
  ⟨.test rfl, .test Schema.Word.declares_id, .test rfl⟩

end Filter

theorem mem_gathered_iff {store : Store} (hs : store.Lexical) {k : Kind} {t : LinkTest}
    {fs : List Filter} (hne : fs ≠ []) {P : Filter → Row → Prop} {rows : List Row}
    {found : Filter → List Row} (h : store.Selects k (fun x => t.Gathers fs (P · x)) rows)
    (hf : ∀ f ∈ fs, store.Selects k (P f) (found f)) (row : Row) :
    row ∈ rows ↔ t.Gathers fs (row ∈ found ·) := by
  have record {x : Row} (hx : x ∈ store.records k) :
      k.project x ∈ rows ↔ t.Gathers fs (k.project x ∈ found ·) := by
    rw [h.project_mem_iff hs hx]
    exact LinkTest.Gathers.congr fun f hm => ((hf f hm).project_mem_iff hs hx).symm
  constructor
  · intro hr
    obtain ⟨x, hx, -, rfl⟩ := h.mem_iff.1 hr
    exact (record hx).1 hr
  · intro hg
    obtain ⟨f, hm, hr⟩ : ∃ f ∈ fs, row ∈ found f := by
      obtain ⟨f, hm⟩ := List.exists_mem_of_ne_nil fs hne
      rw [LinkTest.Gathers] at hg
      split at hg
      · exact hg
      · exact ⟨f, hm, hg f hm⟩
    obtain ⟨x, hx, -, rfl⟩ := (hf f hm).mem_iff.1 hr
    exact (record hx).2 hg

namespace Store

/-- Links that ask for some related row gather under `|` what each of them selects by itself, and
links that ask for none gather under `&` what all of them select. A condition that says nothing
counts only where none of them says anything. -/
theorem answers_gather {store : Store} (hs : store.Lexical) {r : Relationship} {t : LinkTest}
    (hr : Schema.Declares r.field) (ht : (Comparison.link t).accepts r = true)
    {first : Filter} {rest : List Filter} (h : ∀ f ∈ first :: rest, f.Plain r.far)
    {order order' : Order} (ho : order.validate r.kind = .ok ())
    (ho' : order'.validate r.kind = .ok ()) :
    ∃ (rows : List Row) (found : Filter → List Row),
      store.Answers r.kind (.gather r t first rest) order rows ∧
      (∀ f ∈ first :: rest, store.Answers r.kind (.link r t f) order' (found f)) ∧
      (∀ row, row ∈ rows ↔ t.Gathers (Filter.telling (first :: rest)) (row ∈ found ·)) ∧
      ((∀ f ∈ first :: rest, f.Vanishes) ∨ (∀ f ∈ first :: rest, ¬ f.Vanishes) →
        ∀ row, row ∈ rows ↔ t.Gathers (first :: rest) (row ∈ found ·)) := by
  obtain ⟨rows, ha, hsel⟩ := exists_answers hs
    (Filter.wellFormed_iff.2 (Filter.every_gather ht fun f hf =>
      Filter.wellFormed_iff.1 (h f hf).wellFormed))
    (Filter.every_gather hr fun f hf => (h f hf).overSchema) ho
  choose! found hfound hlink using fun f (hf : f ∈ first :: rest) => exists_answers hs
    (f := .link r t f) (.link ht (h f hf).wellFormed) (.link hr (h f hf).overSchema) ho'
  have gathers := mem_gathered_iff hs (Filter.telling_ne_nil (by simp))
    (hsel.congr fun x _ => Filter.yields_gather fun f hf => (h f hf).scalar)
    fun f hf => hlink f (Filter.telling_subset hf)
  refine ⟨rows, found, ha, hfound, gathers, fun hv => ?_⟩
  rwa [Filter.telling_eq_self hv] at gathers

theorem sample_answers_gather : ∃ rows rows₁ rows₂,
    sample.Answers .word (.synonym .hasSome 2 ||| .synonym .hasSome 3) .random rows ∧
    sample.Answers .word (.synonym .hasSome 2) .random rows₁ ∧
    sample.Answers .word (.synonym .hasSome 3) .random rows₂ ∧
    ∀ row, row ∈ rows ↔ row ∈ rows₁ ∨ row ∈ rows₂ := by
  let id (n : Int64) : Filter := .test Schema.Word.id (.integer .equals n)
  have hp : ∀ f ∈ [id 2, id 3], f.Plain .word := by simp [id, Filter.plain_id]
  have ho : Order.random.validate .word = .ok () := rfl
  obtain ⟨rows, found, ha, hf, -, h⟩ := answers_gather (r := Schema.Word.synonyms) (t := .hasSome)
    lexical_sample Schema.Word.declares_synonyms rfl hp ho ho
  refine ⟨rows, _, _, ha, hf (id 2) (by simp), hf (id 3) (by simp), fun row => ?_⟩
  rw [h (.inr (by simp [id])) row]
  simp [LinkTest.Gathers, LinkTest.isPositive]

def Gathers (store : Store) (r : Relationship) (t : LinkTest) (first : Filter)
    (rest : List Filter) : Prop :=
  store.Lexical → Schema.Declares r.field → (Comparison.link t).accepts r = true →
    (∀ f ∈ first :: rest, f.Plain r.far) → ∀ order order' rows (found : Filter → List Row),
      store.Answers r.kind (.gather r t first rest) order rows →
        (∀ f ∈ first :: rest, store.Answers r.kind (.link r t f) order' (found f)) →
          ∀ row, row ∈ rows ↔ t.Gathers (first :: rest) (row ∈ found ·)

theorem Gathers.select {store : Store} {r : Relationship} {t : LinkTest} {first : Filter}
    {rest : List Filter} (h : store.Gathers r t first rest) (hs : store.Lexical)
    (hr : Schema.Declares r.field) (ht : (Comparison.link t).accepts r = true)
    (hp : ∀ f ∈ first :: rest, f.Plain r.far) (row : Row) :
    row ∈ store.select r.kind (.gather r t first rest) ↔
      t.Gathers (first :: rest) fun f => row ∈ store.select r.kind (.link r t f) := by
  have ho : Order.random.validate r.kind = .ok () := rfl
  have hw := Filter.wellFormed_iff.2 (Filter.every_gather ht fun f hf =>
    Filter.wellFormed_iff.1 (hp f hf).wellFormed)
  simp only [mem_select_iff]
  exact h hs hr ht hp .random .random _ _ (answers_ofFilter hs hw
    (Filter.every_gather hr fun f hf => (hp f hf).overSchema) ho) (fun f hf =>
      answers_ofFilter hs (.link ht (hp f hf).wellFormed) (.link hr (hp f hf).overSchema) ho) row

/-- Beside a condition that asks for a certain row, one that any row satisfies does not count. -/
theorem sample_not_gathers :
    ¬ sample.Gathers Schema.Word.synonyms .hasSome .empty
      [.test Schema.Word.id (.integer .equals 1)] ∧
    ¬ sample.Gathers Schema.Word.synonyms .hasNone .empty
      [.test Schema.Word.id (.integer .equals 1)] := by
  have hp : ∀ f ∈ [.empty, .test Schema.Word.id (.integer .equals 1)], Filter.Plain .word f := by
    simp [Filter.plain_id, Filter.plain_empty]
  let word (n : Nat) : Row := Kind.word.project (sample.records .word)[n]!
  refine ⟨fun h => ?_, fun h => ?_⟩
  · have h := h.select lexical_sample Schema.Word.declares_synonyms rfl hp (word 0)
    simp only [LinkTest.Gathers, LinkTest.isPositive, reduceIte] at h
    exact absurd h (by decide +kernel)
  · have h := h.select lexical_sample Schema.Word.declares_synonyms rfl hp (word 0)
    simp only [LinkTest.Gathers, LinkTest.isPositive, Bool.false_eq_true, reduceIte] at h
    exact absurd h (by decide +kernel)

end Store

end Lexiquery
