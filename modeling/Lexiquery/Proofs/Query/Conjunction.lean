import Lexiquery.Proofs.Filter.Lossless
import Lexiquery.Proofs.Query.Union

/-! Queries of conjunctions. How they are bracketed and ordered decides which of their clauses are
siblings, and so which of them merge; it makes no difference as long as nothing is lost by it. -/

namespace Lexiquery

namespace Filter

variable {store : Store} {k : Kind} {x : Row} {f g h : Filter}

def conjuncts : Filter → List Filter
  | group .and fs => fs
  | f => [f]

theorem and_eq (hf : ¬ f.Vanishes) : f &&& g = group .and (f.conjuncts ++ [g]) := by
  match f with
  | empty => exact absurd vanishes_empty hf
  | test .. | link .. | group .or _ | group .and _ => rfl

theorem WellFormed.and (hf : f.WellFormed) (hg : g.WellFormed) : (f &&& g).WellFormed :=
  hf.combine .and hg

theorem OverSchema.and (hf : f.OverSchema) (hg : g.OverSchema) : (f &&& g).OverSchema :=
  hf.combine .and hg

theorem not_vanishes_and (hf : ¬ f.Vanishes) : ¬ (f &&& g).Vanishes := by
  rw [and_eq hf, vanishes_group, List.forall_mem_append]
  refine fun h => hf ?_
  match f with
  | group .and _ => exact vanishes_group.2 h.1
  | empty | test .. | link .. | group .or _ => exact h.1 _ (by simp [conjuncts])

theorem yields_conjuncts :
    (group .and f.conjuncts).compact.Yields store x true ↔ f.compact.Yields store x true := by
  match f with
  | group .and _ => rfl
  | empty | test .. | link .. | group .or _ => exact yields_compact_singleton

theorem normal_conjuncts (hf : f.Normal k) : (group .and f.conjuncts).Normal k := by
  match f with
  | group .and _ => exact hf
  | empty | test .. | link .. | group .or _ =>
    exact normal_group_iff.2 ⟨List.forall_mem_singleton.2 hf, List.pairwise_singleton _ _⟩

theorem OverSchema.conjuncts (hf : f.OverSchema) : ∀ g ∈ f.conjuncts, g.OverSchema := by
  match f with
  | group .and _ => exact every_group.1 hf
  | empty | test .. | link .. | group .or _ => exact List.forall_mem_singleton.2 hf

theorem conjuncts_along {hops : List Relationship} (hf : f.conjuncts = [f]) :
    (along hops f).conjuncts = [along hops f] := by
  cases hops with
  | nil => exact hf
  | cons => rfl

theorem conjuncts_normalize (f : Filter) (k : Kind) : (f.normalize k).conjuncts =
    (siblings .and (f.conjuncts.map (·.normalize k))).map Sibling.toFilter := by
  match f with
  | group .and fs =>
    rw [normalize, normalizeAll_eq, mergeSiblings_eq]
    rfl
  | empty | group .or _ => rfl
  | test .. | link .. =>
    exact (conjuncts_along rfl).trans
      (congrArg (List.map Sibling.toFilter) (siblings_singleton .and _)).symm

theorem resolve_and (hf : ¬ f.Vanishes) : (f &&& g).resolve k =
    (group .and ((Sibling.insert (g.normalize k) .and
      (siblings .and (f.conjuncts.map (·.normalize k)))).map Sibling.toFilter)).compact := by
  rw [and_eq hf, resolve, normalize, normalizeAll_eq, List.map_append, List.map_singleton,
    mergeSiblings_eq, siblings_concat]

/-- A further conjunct may be put beside those of a filter without loss. -/
def Admits (store : Store) (k : Kind) (f g : Filter) : Prop :=
  ∀ s ∈ siblings .and (f.conjuncts.map (·.normalize k)), Lossless store .and s (g.normalize k)

def Apart (k : Kind) (f g : Filter) : Prop :=
  ∀ h ∈ (f.normalize k).conjuncts, ¬ Merges .and h (g.normalize k)

theorem admits_group {c : Connective} {gs : List Filter} : f.Admits store k (group c gs) := by
  intro s _
  rw [normalize]
  exact .apart (by simp [Merges]) (by simp)

theorem yields_and_iff (hf : f.OverSchema) (hg : g.OverSchema) (hv : ¬ f.Vanishes)
    (h : f.Admits store k g) (hx : x ∈ store.records k) :
    ((f &&& g).resolve k).Yields store x true ↔
      (f.resolve k).Yields store x true ∧ (g.resolve k).Yields store x true := by
  have hn := normal_conjuncts (f.normal_normalize k)
  have hos := (hf.normalize k).conjuncts
  rw [conjuncts_normalize] at hn hos
  rw [resolve_and hv, yields_insert (under_siblings _ _) (g.normal_normalize k) (hg.normalize k) hn
    (List.forall_mem_map.1 hos) h (by simp) hx, ← conjuncts_normalize, yields_conjuncts]
  rfl

/-- Whether no merge of a clause with one of another operand loses anything, or both brackets lead
to the same merges: between the second and the third operand alone. -/
def Associates (store : Store) (k : Kind) (f g h : Filter) : Prop :=
  (f.Admits store k g ∧ (f &&& g).Admits store k h ∧ g.Admits store k h) ∨
    (g.conjuncts = [g] ∧ f.Apart k g ∧ f.Apart k h)

theorem Apart.yields_iff (hf : ¬ f.Vanishes) (hg : ¬ g.Vanishes) (hone : g.conjuncts = [g])
    (hfg : f.Apart k g) (hfh : f.Apart k h) :
    (((f &&& g) &&& h).resolve k).Yields store x true ↔
      (f.resolve k).Yields store x true ∧ ((g &&& h).resolve k).Yields store x true := by
  rw [Apart, conjuncts_normalize, List.forall_mem_map] at hfg hfh
  rw [resolve_and (not_vanishes_and hf), resolve_and hg, and_eq hf, conjuncts, hone,
    List.map_append, List.map_singleton, siblings_concat, siblings_singleton,
    Sibling.insert_of_forall hfg, Sibling.insert_append hfh, List.map_append, yields_compact_and,
    List.forall_mem_append, ← yields_compact_and, ← yields_compact_and, ← conjuncts_normalize,
    yields_conjuncts]
  rfl

theorem Associates.yields_iff (hf : f.OverSchema) (hg : g.OverSchema) (hh : h.OverSchema)
    (hfv : ¬ f.Vanishes) (hgv : ¬ g.Vanishes) (ha : f.Associates store k g h)
    (hx : x ∈ store.records k) : (((f &&& g) &&& h).resolve k).Yields store x true ↔
      ((f &&& (g &&& h)).resolve k).Yields store x true := by
  have hgroup : f.Admits store k (g &&& h) := by
    rw [and_eq hgv]
    exact admits_group
  rw [yields_and_iff hf (hg.and hh) hfv hgroup hx]
  obtain ⟨hfg, hfgh, hgh⟩ | ⟨hone, hfg, hfh⟩ := ha
  · rw [yields_and_iff (hf.and hg) hh (not_vanishes_and hfv) hfgh hx,
      yields_and_iff hf hg hfv hfg hx, yields_and_iff hg hh hgv hgh hx, and_assoc]
  · exact hfg.yields_iff hfv hgv hone hfh

/-- Whether nothing is lost in either order, or either order leads to the same merges. -/
def Commutes (store : Store) (k : Kind) (f g : Filter) : Prop :=
  (f.Admits store k g ∧ g.Admits store k f) ∨ (f.conjuncts = [f] ∧ g.conjuncts = [g])

theorem Commutes.yields_iff (hf : f.OverSchema) (hg : g.OverSchema) (hfv : ¬ f.Vanishes)
    (hgv : ¬ g.Vanishes) (hc : f.Commutes store k g) (hx : x ∈ store.records k) :
    ((f &&& g).resolve k).Yields store x true ↔ ((g &&& f).resolve k).Yields store x true := by
  obtain ⟨hfg, hgf⟩ | ⟨honef, honeg⟩ := hc
  · rw [yields_and_iff hf hg hfv hfg hx, yields_and_iff hg hf hgv hgf hx, and_comm]
  · rw [resolve_and hfv, resolve_and hgv, honef, honeg, List.map_singleton, List.map_singleton,
      siblings_singleton, siblings_singleton]
    exact yields_insert_swap (hg.normalize k) (hf.normalize k)

theorem lossless_test {c : Connective} {s : Sibling} {f : Field} {t : Test}
    (h : c = .or → s.toFilter.compact.Unjoined) : Lossless store c s (test f t) :=
  .apart (by simp [Merges]) fun hc => ⟨h hc, .test⟩

theorem admits_synonym {m n : Int64} :
    (synonym .hasNone m).Admits store .word (synonym .hasNone n) := by
  have hone : (synonym .hasNone m).conjuncts = [synonym .hasNone m] := rfl
  rw [Admits, hone, List.map_singleton, normal_synonym.normalize_eq, normal_synonym.normalize_eq,
    siblings_singleton, List.forall_mem_singleton]
  refine .merge ⟨_, _, _, _, _, rfl, rfl, rfl, rfl⟩ (fun h => ?_) (fun _ => ?_) ?_
  · exact absurd h (by decide)
  · exact iff_of_false (by simp [synonym, Sibling.conditions, Sibling.toFilter]) not_vanishes_test
  · exact List.forall_mem_singleton.2 (lossless_test fun _ => .test)

theorem associates_synonym {m n : Int64} {t : Test} : (synonym .hasNone m).Associates store .word
    (synonym .hasNone n) (test Schema.Word.id t) :=
  .inl ⟨admits_synonym, fun _ _ => lossless_test (by simp),
    fun _ _ => lossless_test (by simp)⟩

end Filter

namespace Store

theorem Selects.mem_iff_mem {store : Store} {k : Kind} {P Q : Row → Prop} {rows rows' : List Row}
    (h : store.Selects k P rows) (h' : store.Selects k Q rows')
    (hpq : ∀ x ∈ store.records k, P x ↔ Q x) (row : Row) : row ∈ rows ↔ row ∈ rows' := by
  rw [(h.congr hpq).mem_iff, h'.mem_iff]

/-- A query of a conjunction selects the same with the brackets moved and with its operands
exchanged, as long as no clause that merges loses anything by it or the same clauses merge. -/
theorem answers_and {store : Store} (hs : store.Lexical) {f g h : Filter} {k : Kind}
    (hwf : f.WellFormed) (hof : f.OverSchema) (hwg : g.WellFormed) (hog : g.OverSchema)
    (hwh : h.WellFormed) (hoh : h.OverSchema) (hfv : ¬ f.Vanishes) (hgv : ¬ g.Vanishes)
    {order order' : Order} (ho : order.validate k = .ok ()) (ho' : order'.validate k = .ok ()) :
    ∃ rows₁ rows₂ rows₃ rows₄,
      store.Answers k ((f &&& g) &&& h) order rows₁ ∧
      store.Answers k (f &&& (g &&& h)) order' rows₂ ∧
      store.Answers k (f &&& g) order rows₃ ∧ store.Answers k (g &&& f) order' rows₄ ∧
      (f.Associates store k g h → ∀ row, row ∈ rows₁ ↔ row ∈ rows₂) ∧
      (f.Commutes store k g → ∀ row, row ∈ rows₃ ↔ row ∈ rows₄) := by
  obtain ⟨rows₁, ha₁, h₁⟩ := exists_answers hs ((hwf.and hwg).and hwh) ((hof.and hog).and hoh) ho
  obtain ⟨rows₂, ha₂, h₂⟩ := exists_answers hs (hwf.and (hwg.and hwh)) (hof.and (hog.and hoh)) ho'
  obtain ⟨rows₃, ha₃, h₃⟩ := exists_answers hs (hwf.and hwg) (hof.and hog) ho
  obtain ⟨rows₄, ha₄, h₄⟩ := exists_answers hs (hwg.and hwf) (hog.and hof) ho'
  exact ⟨rows₁, rows₂, rows₃, rows₄, ha₁, ha₂, ha₃, ha₄,
    fun ha => h₁.mem_iff_mem h₂ fun x hx => ha.yields_iff hof hog hoh hfv hgv hx,
    fun hc => h₃.mem_iff_mem h₄ fun x hx => hc.yields_iff hof hog hfv hgv hx⟩

theorem sample_answers_and : ∃ rows₁ rows₂ rows₃ rows₄,
    let f := Filter.synonym .hasNone 2
    let g := Filter.synonym .hasNone 3
    let h := Filter.test Schema.Word.id (.integer .atMost 2)
    sample.Answers .word ((f &&& g) &&& h) .random rows₁ ∧
    sample.Answers .word (f &&& (g &&& h)) .random rows₂ ∧
    sample.Answers .word (f &&& g) .random rows₃ ∧ sample.Answers .word (g &&& f) .random rows₄ ∧
    (∀ row, row ∈ rows₁ ↔ row ∈ rows₂) ∧ ∀ row, row ∈ rows₃ ↔ row ∈ rows₄ := by
  have ho : Order.random.validate .word = .ok () := rfl
  have wf {n : Int64} : (Filter.synonym .hasNone n).WellFormed := Filter.wellFormed_synonym rfl
  obtain ⟨rows₁, rows₂, rows₃, rows₄, ha₁, ha₂, ha₃, ha₄, h, h'⟩ := answers_and lexical_sample
    (wf (n := 2)) Filter.overSchema_synonym (wf (n := 3)) Filter.overSchema_synonym
    (.test (f := Schema.Word.id) (t := .integer .atMost 2) rfl) (.test Schema.Word.declares_id)
    Filter.not_vanishes_synonym Filter.not_vanishes_synonym ho ho
  exact ⟨rows₁, rows₂, rows₃, rows₄, ha₁, ha₂, ha₃, ha₄, h Filter.associates_synonym,
    h' (.inr ⟨rfl, rfl⟩)⟩

def Reassociates (store : Store) (k : Kind) (f g h : Filter) : Prop :=
  store.Lexical → (∀ e ∈ [f, g, h], e.WellFormed ∧ e.OverSchema ∧ ¬ e.Vanishes) →
    ∀ order rows rows', store.Answers k ((f &&& g) &&& h) order rows →
      store.Answers k (f &&& (g &&& h)) order rows' → ∀ row, row ∈ rows ↔ row ∈ rows'

def Exchanges (store : Store) (k : Kind) (f g : Filter) : Prop :=
  store.Lexical → (∀ e ∈ [f, g], e.WellFormed ∧ e.OverSchema ∧ ¬ e.Vanishes) →
    ∀ order rows rows', store.Answers k (f &&& g) order rows →
      store.Answers k (g &&& f) order rows' → ∀ row, row ∈ rows ↔ row ∈ rows'

/-- The first word has both others as synonyms, but no synonym is both. -/
theorem sample_not_reassociates :
    ¬ sample.Reassociates .word (.synonym .hasSome 2) (.synonym .hasSome 3)
      (.test Schema.Word.id (.integer .equals 1)) ∧
    ¬ sample.Exchanges .word (.synonym .hasSome 2 &&& .test Schema.Word.id (.integer .equals 1))
      (.synonym .hasSome 3) := by
  let word : Row := Kind.word.project (sample.records .word)[0]!
  have wf {n : Int64} : (Filter.synonym .hasSome n).WellFormed := Filter.wellFormed_synonym rfl
  have os {n : Int64} : (Filter.synonym .hasSome n).OverSchema := Filter.overSchema_synonym
  have wh : (Filter.test Schema.Word.id (.integer .equals 1)).WellFormed := .test rfl
  have oh : (Filter.test Schema.Word.id (.integer .equals 1)).OverSchema :=
    .test Schema.Word.declares_id
  have answers {e : Filter} (hw : e.WellFormed) (ho : e.OverSchema) :=
    answers_ofFilter lexical_sample hw ho (rfl : Order.random.validate .word = .ok ())
  refine ⟨fun hr => ?_, fun he => ?_⟩
  · have hr := hr lexical_sample (by simp [wf, os, wh, oh, Filter.not_vanishes_synonym]) _ _ _
      (answers ((wf.and wf).and wh) ((os.and os).and oh))
      (answers (wf.and (wf.and wh)) (os.and (os.and oh))) word
    rw [← mem_select_iff, ← mem_select_iff] at hr
    exact absurd hr (by decide +kernel)
  · have he := he lexical_sample (by simp [wf, os, wf.and wh, os.and oh,
      Filter.not_vanishes_synonym, Filter.not_vanishes_and]) _ _ _
      (answers ((wf.and wh).and wf) ((os.and oh).and os))
      (answers (wf.and (wf.and wh)) (os.and (os.and oh))) word
    rw [← mem_select_iff, ← mem_select_iff] at he
    exact absurd he (by decide +kernel)

end Store

end Lexiquery
