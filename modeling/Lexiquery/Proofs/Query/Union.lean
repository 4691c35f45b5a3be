import Lexiquery.Proofs.Filter.Alternatives
import Lexiquery.Proofs.Query.Answers

/-! Queries of alternatives. -/

namespace Lexiquery

namespace Filter

variable {f g : Filter} {k : Kind}

/-- The filters that a further alternative is put beside. -/
def alternatives : Filter → List Filter
  | group .or fs => fs
  | f => [f]

def Offers (f : Filter) (fs : List Filter) : Prop := f = group .or fs ∨ fs = [f]

theorem offers_alternatives (f : Filter) : f.Offers f.alternatives := by
  match f with
  | group .or _ => exact .inl rfl
  | empty | test .. | link .. | group .and _ => exact .inr rfl

namespace Offers

variable {fs : List Filter} (h : f.Offers fs)
include h

theorem vanishes_iff : (∀ f ∈ fs, f.Vanishes) ↔ f.Vanishes := by
  obtain rfl | rfl := h
  · exact vanishes_group.symm
  · exact List.forall_mem_singleton

theorem sound (hs : f.Sound) : ∀ f ∈ fs, f.Sound := by
  obtain rfl | rfl := h
  · exact every_group.1 hs
  · exact List.forall_mem_singleton.2 hs

theorem holds_iff {store : Store} {x : Row} :
    (group .or fs).Holds store k x ↔ f.Holds store k x := by
  obtain rfl | rfl := h
  · rfl
  · exact holds_group_singleton

theorem guarded (hg : (group .or fs).compact.Guarded) : f.compact.Guarded := by
  obtain rfl | rfl := h
  · exact hg
  · exact (guarded_compact_group.1 hg).1 f (by simp)

theorem yields {store : Store} {x : Row} (hy : (group .or fs).compact.Yields store x true) :
    f.compact.Yields store x true := by
  obtain rfl | rfl := h
  · exact hy
  · exact yields_compact_singleton.1 hy

end Offers

theorem or_eq (hf : ¬ f.Vanishes) : f ||| g = group .or (f.alternatives ++ [g]) := by
  match f with
  | empty => exact absurd vanishes_empty hf
  | test .. | link .. | group .or _ | group .and _ => rfl

theorem WellFormed.or (hf : f.WellFormed) (hg : g.WellFormed) : (f ||| g).WellFormed :=
  hf.combine .or hg

theorem OverSchema.or (hf : f.OverSchema) (hg : g.OverSchema) : (f ||| g).OverSchema :=
  hf.combine .or hg

theorem offers_siblings (f : Filter) (k : Kind) : (f.normalize k).Offers
    ((siblings .or (f.alternatives.map (·.normalize k))).map Sibling.toFilter) := by
  rw [← mergeSiblings_eq]
  obtain h | h := f.offers_alternatives
  · left
    rw [← normalizeAll_eq, ← normalize, ← h]
  · right
    rw [h, List.map_singleton, mergeSiblings_eq_self (List.pairwise_singleton _ _)]

/-- What holds wherever a filter meets the alternatives of another, which come before it when both
are normalized. -/
def OnMeeting (p : LinkTest → List Sibling → Filter → Prop) (k : Kind) (f g : Filter) : Prop :=
  ∀ s ∈ siblings .or (f.alternatives.map (·.normalize k)), s.Meets p .or (g.normalize k)

/-- Where two filters meet, they ask for some related row. -/
def MeetPositively : Kind → Filter → Filter → Prop :=
  OnMeeting fun t _ _ => t.isPositive = true

/-- Where two filters meet, both ask for any related row or neither does. -/
def MeetEvenly : Kind → Filter → Filter → Prop :=
  OnMeeting fun _ ss g => Alike (ss.map Sibling.toFilter) g

section

variable (hf : f.Sound) (hg : g.Sound) (hfv : ¬ f.Vanishes)
include hf hg hfv

theorem exists_adds {p : List Filter → Filter → Prop}
    (hm : OnMeeting (fun t ss g => t.isPositive = true ∧ p (ss.map Sibling.toFilter) g) k f g) :
    ∃ fs gs, Adds p .or (g.normalize k) fs gs ∧ (f ||| g).normalize k = group .or gs ∧
      (f.normalize k).Offers fs := by
  have ho := f.offers_siblings k
  have hss := List.forall_mem_map.1 (ho.sound (hf.normalize k))
  refine ⟨_, _, adds_insert (under_siblings .or _) (hg.normalize k).overSchema
    (fun s hs => (hss s hs).overSchema) hm, ?_, ho⟩
  rw [or_eq hfv, normalize, normalizeAll_eq, List.map_append, List.map_singleton,
    mergeSiblings_eq, siblings_concat]

variable (hp : MeetPositively k f g)
include hp

theorem yields_of_or {store : Store} {x : Row}
    (h : ((f ||| g).resolve k).Yields store x true) :
    (f.resolve k).Yields store x true ∨ (g.resolve k).Yields store x true := by
  obtain ⟨fs, gs, ha, hn, ho⟩ := exists_adds (p := fun _ _ => True) hf hg hfv
    fun s hs => (hp s hs).mono fun ht => ⟨ht, trivial⟩
  rw [resolve, hn] at h
  exact (ha.splits.yields h).imp_left ho.yields

theorem yields_or_iff {store : Store} {x : Row} (hgv : ¬ g.Vanishes)
    (he : MeetEvenly k f g) (hguard : ((f ||| g).resolve k).Guarded) :
    ((f ||| g).resolve k).Yields store x true ↔
      (f.resolve k).Yields store x true ∨ (g.resolve k).Yields store x true := by
  obtain ⟨fs, gs, ha, hn, ho⟩ := exists_adds (p := Alike) hf hg hfv
    fun s hs => (hp s hs).and (he s hs)
  have hv : Alike fs (g.normalize k) := by
    rw [Alike, ho.vanishes_iff, vanishes_normalize, vanishes_normalize]
    exact iff_of_false hfv hgv
  have holds : ((f ||| g).normalize k).Holds store k x ↔
      (f.normalize k).Holds store k x ∨ (g.normalize k).Holds store k x := by
    rw [hn, ha.holds_or hv, ho.holds_iff]
  have yields {h : Filter} (hg : (h.resolve k).Guarded) :
      (h.resolve k).Yields store x true ↔ (h.normalize k).Holds store k x :=
    (hg.yields_iff (h.normal_resolve k) (h.compacted_resolve k)).trans holds_compact
  obtain ⟨hgf, hgg⟩ := ha.guarded (by rwa [← hn])
  rw [yields hguard, yields (ho.guarded hgf), yields hgg, holds]

end

def named (id : Int64) : Filter := test Schema.Word.id (.integer .equals id)

def unopposed (id : Int64) : Filter := link Schema.Word.antonyms .hasNone (named id)

section

variable {id : Int64}

theorem wellFormed_named : (named id).WellFormed := .test rfl

theorem overSchema_named : (named id).OverSchema := .test Schema.Word.declares_id

theorem wellFormed_unopposed : (unopposed id).WellFormed := .link rfl wellFormed_named

theorem overSchema_unopposed : (unopposed id).OverSchema :=
  .link (@Schema.Declares.constant "word.ANTONYMS" _ (by simp [Schema.catalogue])) overSchema_named

end

theorem onMeeting_link {p : LinkTest → List Sibling → Filter → Prop} {r : Relationship}
    {t : LinkTest} (hp : p t [.single (f.normalize r.far)] (g.normalize r.far))
    (ha : ¬ Merges (t.within .or) (f.normalize r.far) (g.normalize r.far)) :
    OnMeeting p r.kind (link r t f) (link r t g) := by
  have normal (f : Filter) : (link r t f).normalize r.kind = link r t (f.normalize r.far) := by
    rw [normalize, Schema.path_self]
    rfl
  rw [OnMeeting, show (link r t f).alternatives = [link r t f] from rfl, List.map_singleton,
    siblings_singleton, List.forall_mem_singleton, normal, normal]
  by_cases hm : Merges .or (Sibling.single (link r t (f.normalize r.far))).toFilter
      (link r t (g.normalize r.far))
  · exact .merge hm hp (List.forall_mem_singleton.2 (.apart ha))
  · exact .apart hm

theorem meetEvenly_link {r : Relationship} {t : LinkTest} (hf : ¬ f.Vanishes) (hg : ¬ g.Vanishes)
    (ha : ¬ Merges (t.within .or) (f.normalize r.far) (g.normalize r.far)) :
    MeetEvenly r.kind (link r t f) (link r t g) :=
  onMeeting_link (by simp [Alike, Sibling.toFilter, vanishes_normalize, hf, hg]) ha

end Filter

namespace Store

/-- Unless they ask for none of the same related rows, a query of two alternatives selects only what
the queries of each select; and all of it, unless one asks for any related row where the other does
not, or an alternative joins related rows. -/
theorem answers_or {store : Store} (hs : store.Lexical) {f g : Filter} {k : Kind}
    (hwf : f.WellFormed) (hof : f.OverSchema) (hwg : g.WellFormed) (hog : g.OverSchema)
    (hfv : ¬ f.Vanishes) (hgv : ¬ g.Vanishes)
    (hp : Filter.MeetPositively k f g)
    {order order₁ order₂ : Order} (ho : order.validate k = .ok ())
    (ho₁ : order₁.validate k = .ok ()) (ho₂ : order₂.validate k = .ok ()) :
    ∃ rows rows₁ rows₂, store.Answers k (f ||| g) order rows ∧ store.Answers k f order₁ rows₁ ∧
      store.Answers k g order₂ rows₂ ∧ (∀ row ∈ rows, row ∈ rows₁ ∨ row ∈ rows₂) ∧
      (Filter.MeetEvenly k f g → ((f ||| g).resolve k).Guarded →
        ∀ row, row ∈ rows ↔ row ∈ rows₁ ∨ row ∈ rows₂) := by
  obtain ⟨rows, ha, h⟩ := exists_answers hs (hwf.or hwg) (hof.or hog) ho
  obtain ⟨rows₁, ha₁, h₁⟩ := exists_answers hs hwf hof ho₁
  obtain ⟨rows₂, ha₂, h₂⟩ := exists_answers hs hwg hog ho₂
  have hf := hwf.sound hof
  have hg := hwg.sound hog
  refine ⟨rows, rows₁, rows₂, ha, ha₁, ha₂, fun row hr => ?_, fun he hguard row => ?_⟩
  · obtain ⟨x, hx, hy, rfl⟩ := h.mem_iff.1 hr
    rw [h₁.mem_iff, h₂.mem_iff]
    exact (Filter.yields_of_or hf hg hfv hp hy).imp (fun hy => ⟨x, hx, hy, rfl⟩)
      fun hy => ⟨x, hx, hy, rfl⟩
  · rw [h.mem_iff, h₁.mem_iff, h₂.mem_iff, ← exists_or]
    refine exists_congr fun x => ?_
    rw [← and_or_left, ← or_and_right, Filter.yields_or_iff hf hg hfv hp hgv he hguard]

open Lexiquery.Filter in
/-- The two links merge and their conditions, negative clauses among them, stay apart. -/
theorem sample_answers_or :
    let f := link Schema.Word.synonyms .hasSome (group .or [unopposed 1, named 3])
    let g := link Schema.Word.synonyms .hasSome (unopposed 2)
    ∃ rows rows₁ rows₂, sample.Answers .word (f ||| g) .random rows ∧
      sample.Answers .word f .random rows₁ ∧ sample.Answers .word g .random rows₂ ∧
      ∀ row, row ∈ rows ↔ row ∈ rows₁ ∨ row ∈ rows₂ := by
  intro f g
  have both {p : Filter → Prop} (h : p (unopposed 1)) (h' : p (named 3)) :
      ∀ f ∈ [unopposed 1, named 3], p f :=
    List.forall_mem_cons.2 ⟨h, List.forall_mem_singleton.2 h'⟩
  have apart : ¬ Merges .or ((group .or [unopposed 1, named 3]).normalize .word)
      ((unopposed 2).normalize .word) := by
    simp [Filter.Merges, Filter.normalize]
  have telling : ¬ (group .or [unopposed 1, named 3]).Vanishes := fun h =>
    not_vanishes_link (vanishes_group.1 h _ List.mem_cons_self)
  have guarded : ((f ||| g).resolve .word).Guarded := by
    have resolved : (f ||| g).resolve .word = group .or [link Schema.Word.synonyms .hasSome
      (group .or [group .or [unopposed 1, named 3], unopposed 2])] := rfl
    have unjoined : (group .or [unopposed 1, named 3]).Unjoined := .group (both (.link rfl) .test)
    have within : (group .or [unopposed 1, named 3]).Guarded :=
      .group (both (.link .test) .test) fun _ _ => both (.link rfl) .test
    rw [resolved]
    refine .group (List.forall_mem_singleton.2 (.link (.group ?_ fun _ _ => ?_))) (by simp)
    · exact List.forall_mem_cons.2 ⟨within, List.forall_mem_singleton.2 (.link .test)⟩
    · exact List.forall_mem_cons.2 ⟨unjoined, List.forall_mem_singleton.2 (.link rfl)⟩
  have ho : Order.random.validate .word = .ok () := rfl
  obtain ⟨rows, rows₁, rows₂, hr, hr₁, hr₂, -, h⟩ := answers_or lexical_sample (f := f) (g := g)
    (.link rfl (.group (both wellFormed_unopposed wellFormed_named)))
    (.link Schema.Word.declares_synonyms (.group (both overSchema_unopposed overSchema_named)))
    (.link rfl wellFormed_unopposed)
    (.link Schema.Word.declares_synonyms overSchema_unopposed) not_vanishes_link not_vanishes_link
    (onMeeting_link (r := Schema.Word.synonyms) (t := .hasSome) rfl apart) ho ho ho
  exact ⟨rows, rows₁, rows₂, hr, hr₁, hr₂,
    h (meetEvenly_link telling not_vanishes_link apart) guarded⟩

def Unites (store : Store) (k : Kind) (f g : Filter) : Prop :=
  store.Lexical → f.WellFormed ∧ f.OverSchema → g.WellFormed ∧ g.OverSchema →
    ¬ f.Vanishes ∧ ¬ g.Vanishes → ∀ order rows rows₁ rows₂, store.Answers k (f ||| g) order rows →
      store.Answers k f order rows₁ → store.Answers k g order rows₂ →
        ∀ row, row ∈ rows ↔ row ∈ rows₁ ∨ row ∈ rows₂

def select (store : Store) (k : Kind) (f : Filter) : List Row :=
  let s := Statement.ofFilter k k.columns (f.resolve k) .random none
  (s.selected store).map fun e => s.columns.map fun c => (c, e.get ⟨s.main, c⟩)

theorem mem_select_iff {store : Store} {k : Kind} {f : Filter} {row : Row} :
    row ∈ store.select k f ↔
      row ∈ (Statement.ofFilter k k.columns (f.resolve k) .random none).rows store :=
  (Statement.mem_rows rfl).symm

theorem Unites.select {store : Store} {k : Kind} {f g : Filter} (h : store.Unites k f g)
    (hs : store.Lexical) (hf : f.WellFormed ∧ f.OverSchema) (hg : g.WellFormed ∧ g.OverSchema)
    (hv : ¬ f.Vanishes ∧ ¬ g.Vanishes) (row : Row) :
    row ∈ store.select k (f ||| g) ↔ row ∈ store.select k f ∨ row ∈ store.select k g := by
  simp only [mem_select_iff]
  exact h hs hf hg hv .random _ _ _ (answers_ofFilter hs (hf.1.or hg.1) (hf.2.or hg.2) rfl)
    (answers_ofFilter hs hf.1 hf.2 rfl) (answers_ofFilter hs hg.1 hg.2 rfl) row

/-- Filters may not unite when they ask for none of the same related rows, when one joins related
rows, and when one asks for any related row where the other asks for a certain one. -/
theorem sample_not_unites :
    ¬ sample.Unites .word (.synonym .hasNone 2) (.synonym .hasNone 3) ∧
    ¬ sample.Unites .word (.test Schema.Word.id (.integer .equals 2)) (.synonym .hasSome 3) ∧
    ¬ sample.Unites .word (.link Schema.Word.synonyms .hasSome .empty) (.synonym .hasSome 1) := by
  have synonym {t : LinkTest} {id : Int64} (ht : t.isTransitive = false) :
      (Filter.synonym t id).WellFormed ∧ (Filter.synonym t id).OverSchema :=
    ⟨Filter.wellFormed_synonym ht, Filter.overSchema_synonym⟩
  have id : (Filter.test Schema.Word.id (.integer .equals 2)).WellFormed ∧
      (Filter.test Schema.Word.id (.integer .equals 2)).OverSchema :=
    ⟨.test rfl, .test Schema.Word.declares_id⟩
  have any : (Filter.link Schema.Word.synonyms .hasSome .empty).WellFormed ∧
      (Filter.link Schema.Word.synonyms .hasSome .empty).OverSchema :=
    ⟨.link rfl .empty, .link Schema.Word.declares_synonyms .empty⟩
  let word (n : Nat) : Row := Kind.word.project (sample.records .word)[n]!
  refine ⟨fun h => ?_, fun h => ?_, fun h => ?_⟩
  · have h := h.select lexical_sample (synonym rfl) (synonym rfl) ⟨nofun, nofun⟩ (word 0)
    exact absurd h (by decide +kernel)
  · have h := h.select lexical_sample id (synonym rfl) ⟨nofun, nofun⟩ (word 1)
    exact absurd h (by decide +kernel)
  · have h := h.select lexical_sample any (synonym rfl) ⟨nofun, nofun⟩ (word 0)
    exact absurd h (by decide +kernel)

end Store

end Lexiquery
