import Lexiquery.Proofs.Filter.Every
import Lexiquery.Proofs.Filter.Identity
import Lexiquery.Proofs.Statement.Selection

/-! Statements of filters that are equal. They have the same aliases and the same conditions, and no
difference but in the far columns of self-relations. -/

namespace Lexiquery

/-- Fragments of one shape, which may differ in what their joins and common table expressions join
by. -/
structure Fragment.Parallel (p q : Fragment) : Prop where
  condition : p.condition = q.condition
  tables : p.tables = q.tables
  joins : p.joins.length = q.joins.length
  ctes : p.ctes.length = q.ctes.length

namespace Fragment

theorem Parallel.refl (p : Fragment) : p.Parallel p := ⟨rfl, rfl, rfl, rfl⟩

variable {p q : Fragment}

theorem Parallel.eq (h : p.Parallel q) (hj : p.joins = q.joins) (hc : p.ctes = q.ctes) : p = q := by
  obtain ⟨joins, condition, ctes, tables⟩ := p
  obtain ⟨rfl, rfl, -, -⟩ := h
  simp_all

theorem length_flatMap_eq {α : Type} {f : Fragment → List α} {ps qs : List Fragment}
    (h : List.Forall₂ (fun p q => (f p).length = (f q).length) ps qs) :
    (ps.flatMap f).length = (qs.flatMap f).length := by
  induction h with
  | nil => rfl
  | cons h _ ih => simp only [List.flatMap_cons, List.length_append, h, ih]

theorem parallel_all {c : Connective} {ps qs : List Fragment} (h : List.Forall₂ Parallel ps qs) :
    (all c ps).Parallel (all c qs) := by
  have conditions : ps.map (·.condition) = qs.map (·.condition) := by
    induction h with
    | nil => rfl
    | cons h _ ih => simp [h.condition, ih]
  have tables : ps.flatMap (·.tables) = qs.flatMap (·.tables) := by
    induction h with
    | nil => rfl
    | cons h _ ih => simp_all [h.tables]
  refine ⟨congrArg (Condition.all c) conditions, tables, ?_, ?_⟩
  · exact length_flatMap_eq (h.imp fun _ _ h => h.joins)
  · exact length_flatMap_eq (h.imp fun _ _ h => h.ctes)

theorem eq_of_all_eq {c : Connective} {ps qs : List Fragment} (h : List.Forall₂ Parallel ps qs)
    (he : all c ps = all c qs) : ps = qs := by
  have hj : ps.flatMap (·.joins) = qs.flatMap (·.joins) := congrArg joins he
  have hc : ps.flatMap (·.ctes) = qs.flatMap (·.ctes) := congrArg ctes he
  clear he
  induction h with
  | nil => rfl
  | cons h _ ih =>
    rw [List.flatMap_cons, List.flatMap_cons] at hj hc
    obtain ⟨hj, hjs⟩ := List.append_inj hj h.joins
    obtain ⟨hc, hcs⟩ := List.append_inj hc h.ctes
    rw [h.eq hj hc, ih hjs hcs]

section

variable {owner : ColumnRef} {far : Kind} {positive : Bool} {body body' : CteBody}
  {ctes ctes' : List Cte} {tables : List Alias} {n : Numbering}

theorem parallel_hoist (h : ctes.length = ctes'.length) :
    (hoist owner far positive body ctes tables n).Parallel
      (hoist owner far positive body' ctes' tables n) := by
  constructor <;> simp [hoist, h]

theorem eq_of_hoist_eq (h : hoist owner far positive body ctes tables n =
    hoist owner far positive body' ctes' tables n) : ctes = ctes' ∧ body = body' := by
  have hc := congrArg Fragment.ctes h
  obtain ⟨rfl, hc⟩ := List.append_inj' hc rfl
  simp at hc
  exact ⟨rfl, hc⟩

end

variable {r : Relationship} {t : LinkTest} {owner : ColumnRef} {far relation : Alias}
  {n : Numbering} (h : p.Parallel q)
include h

theorem parallel_alongKey : (p.alongKey r t owner far n).Parallel (q.alongKey r t owner far n) := by
  rw [alongKey, alongKey]
  split
  · exact ⟨h.condition, congrArg (far :: ·) h.tables, congrArg (· + 1) h.joins, h.ctes⟩
  · rw [h.condition, h.tables]
    exact parallel_hoist h.ctes

theorem eq_of_alongKey_eq (he : p.alongKey r t owner far n = q.alongKey r t owner far n) :
    p = q := by
  rw [alongKey, alongKey] at he
  split at he
  · simp only [mk.injEq, List.cons.injEq, true_and] at he
    exact h.eq he.1 he.2.2.1
  · rw [h.tables] at he
    obtain ⟨hc, hb⟩ := eq_of_hoist_eq he
    simp only [CteBody.select.injEq, Select.mk.injEq] at hb
    exact h.eq hb.2.1 hc

variable {assoc : Association} {farColumn : String}

theorem parallel_alongAssociation : (p.alongAssociation r assoc t owner relation far n).Parallel
    (q.alongAssociation r { assoc with farColumn } t owner relation far n) := by
  rw [alongAssociation, alongAssociation]
  split
  · exact ⟨h.condition, congrArg (relation :: far :: ·) h.tables, congrArg (· + 2) h.joins, h.ctes⟩
  · rw [h.condition, h.tables]
    exact parallel_hoist h.ctes

theorem eq_of_alongAssociation_eq (he : p.alongAssociation r assoc t owner relation far n =
    q.alongAssociation r { assoc with farColumn } t owner relation far n) :
    p = q ∧ assoc.farColumn = farColumn := by
  rw [alongAssociation, alongAssociation] at he
  split at he
  · simp only [mk.injEq, List.cons.injEq, Join.mk.injEq, JoinOn.columns.injEq, ColumnRef.mk.injEq,
      true_and, and_true] at he
    exact ⟨h.eq he.1.2 he.2.2.1, he.1.1⟩
  · rw [h.tables] at he
    obtain ⟨hc, hb⟩ := eq_of_hoist_eq he
    simp only [CteBody.select.injEq, Select.mk.injEq, List.cons.injEq, Join.mk.injEq,
      JoinOn.columns.injEq, ColumnRef.mk.injEq, true_and, and_true] at hb
    exact ⟨h.eq hb.1.2 hc, hb.1.1⟩

variable {step : ClosureStep}

theorem parallel_alongClosure : (p.alongClosure r t owner far step n).Parallel
    (q.alongClosure r t owner far { step with foreignJoinColumn := farColumn } n) := by
  rw [alongClosure, alongClosure, h.tables]
  exact parallel_hoist h.ctes

theorem eq_of_alongClosure_eq (he : p.alongClosure r t owner far step n =
    q.alongClosure r t owner far { step with foreignJoinColumn := farColumn } n) :
    p = q ∧ step.foreignJoinColumn = farColumn := by
  rw [alongClosure, alongClosure, h.tables] at he
  obtain ⟨hc, hb⟩ := eq_of_hoist_eq he
  obtain ⟨relation, joinColumn, foreignJoinColumn⟩ := step
  simp only [CteBody.closure.injEq, Select.mk.injEq, ClosureStep.mk.injEq, true_and] at hb
  exact ⟨h.eq hb.1.1 hc, hb.2⟩

end Fragment

theorem Relationship.strip_plain_or_self {r s : Relationship}
    (h : r.strip .blind = s.strip .blind) :
    r.strip .plain = s.strip .plain ∨ ∃ k column table joinColumn foreign foreign' hierarchical,
      r = ⟨k, column, .self table joinColumn foreign hierarchical⟩ ∧
        s = ⟨k, column, .self table joinColumn foreign' hierarchical⟩ := by
  obtain ⟨k, c, _ | _ | _ | _⟩ := r <;> obtain ⟨k', c', _ | _ | _ | _⟩ := s <;>
    simp only [strip, Link.blind, Link.plain, mk.injEq, Link.self.injEq, reduceCtorEq, and_false]
      at h ⊢
  case key.key | keyWhere.keyWhere | through.through => exact .inl h
  case self.self =>
    obtain ⟨rfl, rfl, rfl, rfl, -, rfl⟩ := h
    exact .inr ⟨_, _, _, _, _, _, _, ⟨rfl, rfl, rfl, rfl, rfl, rfl⟩, rfl, rfl, rfl, rfl, rfl, rfl⟩

namespace Filter

theorem lower_link_plain (r : Relationship) (t : LinkTest) (condition : Filter) (a : Alias)
    (n : Numbering) :
    (link r t condition).lower a n = (link (r.strip .plain) t condition).lower a n := by
  obtain ⟨k, c, _ | _ | _ | _⟩ := r <;> rfl

theorem lower_strip_plain (f : Filter) (a : Alias) (n : Numbering) :
    (f.strip .plain).lower a n = f.lower a n := by
  induction f using induction generalizing a n with
  | empty => rfl
  | test => rfl
  | link r t condition ih =>
    rw [strip, ← lower_link_plain, lower, lower]
    simp only [ih]
  | group c fs ih =>
    have all {fs : List Filter} (h : ∀ f ∈ fs, ∀ a n, (f.strip .plain).lower a n = f.lower a n)
        (n : Numbering) : lowerAll (stripAll .plain fs) a n = lowerAll fs a n := by
      induction fs generalizing n with
      | nil => rfl
      | cons f fs ihs =>
        obtain ⟨hf, hfs⟩ := List.forall_mem_cons.1 h
        simp only [stripAll, lowerAll, hf, ihs hfs]
    rw [strip, lower, lower, all ih]

/-- Two filters whose fragments are parallel, and the same only if the filters are the same but for
nullability. -/
def Parallel (f g : Filter) : Prop :=
  ∀ a n, (f.lower a n).Parallel (g.lower a n) ∧
    (f.lower a n = g.lower a n → f.strip .plain = g.strip .plain)

variable {f g : Filter} {fs gs : List Filter}

theorem Parallel.link {r s : Relationship} (h : f.Parallel g) (hr : r.strip .blind = s.strip .blind)
    (t : LinkTest) : (Filter.link r t f).Parallel (Filter.link s t g) := by
  intro a n
  obtain hp | ⟨k, c, table, joinColumn, foreign, foreign', hierarchical, rfl, rfl⟩ :=
    Relationship.strip_plain_or_self hr
  · rw [lower_link_plain, lower_link_plain s, ← hp, lower, lower, strip, strip, ← hp]
    cases (r.strip .plain).passage t with
    | key =>
      obtain ⟨hp, h⟩ := h ⟨.table (r.strip .plain).far.table, n.aliases + 1⟩ ⟨n.aliases + 1, n.ctes⟩
      refine ⟨Fragment.parallel_alongKey hp, fun he => ?_⟩
      rw [h (Fragment.eq_of_alongKey_eq hp he)]
    | association assoc =>
      obtain ⟨hp, h⟩ := h ⟨.table (r.strip .plain).far.table, n.aliases + 1 + 1⟩
        ⟨n.aliases + 2, n.ctes⟩
      refine ⟨Fragment.parallel_alongAssociation hp, fun he => ?_⟩
      rw [h (Fragment.eq_of_alongAssociation_eq hp he).1]
    | closure =>
      obtain ⟨hp, h⟩ := h ⟨.table (r.strip .plain).far.table, n.aliases + 1⟩ ⟨n.aliases + 1, n.ctes⟩
      simp only [hp.tables]
      refine ⟨Fragment.parallel_alongClosure hp, fun he => ?_⟩
      rw [h (Fragment.eq_of_alongClosure_eq hp he).1]
  -- only here may the far columns differ
  · rw [lower, lower, strip, strip]
    by_cases ht : (hierarchical && t.isTransitive) = true
    · obtain ⟨hp, h⟩ := h ⟨.table k.table, n.aliases + 1⟩ ⟨n.aliases + 1, n.ctes⟩
      simp only [Relationship.passage, ht, if_true, Relationship.far, hp.tables]
      refine ⟨Fragment.parallel_alongClosure hp, fun he => ?_⟩
      obtain ⟨hpq, rfl⟩ := Fragment.eq_of_alongClosure_eq hp he
      rw [h hpq]
    · obtain ⟨hp, h⟩ := h ⟨.table k.table, n.aliases + 1 + 1⟩ ⟨n.aliases + 2, n.ctes⟩
      simp only [Relationship.passage, ht, Bool.false_eq_true, if_false]
      refine ⟨Fragment.parallel_alongAssociation hp, fun he => ?_⟩
      obtain ⟨hpq, rfl⟩ := Fragment.eq_of_alongAssociation_eq hp he
      rw [h hpq]

theorem Parallel.group (h : List.Forall₂ Parallel fs gs) (c : Connective) :
    (Filter.group c fs).Parallel (Filter.group c gs) := by
  intro a n
  have all (n : Numbering) :
      List.Forall₂ Fragment.Parallel (lowerAll fs a n) (lowerAll gs a n) ∧
        (lowerAll fs a n = lowerAll gs a n → stripAll .plain fs = stripAll .plain gs) := by
    induction h generalizing n with
    | nil => exact ⟨.nil, fun _ => rfl⟩
    | @cons f g fs gs h _ ih =>
      obtain ⟨hp, he⟩ := h a n
      have hn : n.after (g.lower a n) = n.after (f.lower a n) := by
        rw [Numbering.after, Numbering.after, hp.tables, hp.ctes]
      obtain ⟨hps, hes⟩ := ih (n.after (f.lower a n))
      simp only [lowerAll, stripAll, hn, List.cons.injEq]
      exact ⟨.cons hp hps, fun h => ⟨he h.1, hes h.2⟩⟩
  obtain ⟨hp, he⟩ := all n
  rw [lower, lower, strip, strip]
  refine ⟨Fragment.parallel_all hp, fun h => ?_⟩
  rw [he (Fragment.eq_of_all_eq hp h)]

theorem parallel_of_strip_blind (h : f.strip .blind = g.strip .blind) : f.Parallel g := by
  induction f using induction generalizing g with
  | empty =>
    cases g <;> simp only [strip, reduceCtorEq] at h
    exact fun a n => ⟨.refl _, fun _ => rfl⟩
  | test f t =>
    cases g <;> simp only [strip, test.injEq, reduceCtorEq] at h
    case test f' t' =>
      obtain ⟨hf, rfl⟩ := h
      intro a n
      have column : f.column = f'.column := congrArg (·.column) hf
      rw [lower, lower, column, strip, strip, hf]
      exact ⟨.refl _, fun _ => rfl⟩
  | link r t condition ih =>
    cases g <;> simp only [strip, link.injEq, reduceCtorEq] at h
    case link s u condition' =>
      obtain ⟨hr, rfl, hc⟩ := h
      exact (ih hc).link hr t
  | group c fs ih =>
    cases g <;> simp only [strip, group.injEq, reduceCtorEq] at h
    case group d gs =>
      obtain ⟨rfl, h⟩ := h
      refine .group ?_ c
      exact ((List.forall₂_and_left _ _).2 ⟨ih, stripAll_eq_iff.1 h⟩).imp fun _ _ h => h.1 h.2

end Filter

/-- The synonyms of a word, followed back to the word itself. -/
def Schema.Word.itself : Relationship :=
  { Word.synonyms with link := .self "synonymy" "word_1_id" "word_1_id" false }

def Relationship.leadingTo (r : Relationship) (id : Int64) : Filter :=
  .link r .hasSome (.test Schema.Word.id (.integer .equals id))

namespace Statement

open Schema

variable {f g : Filter} {k : Kind} {columns : List String} {order : Order} {limit : Option UInt32}

theorem ofFilter_congr (h : f.strip .plain = g.strip .plain) :
    ofFilter k columns f order limit = ofFilter k columns g order limit := by
  rw [ofFilter, ofFilter, ← Filter.lower_strip_plain f, h, Filter.lower_strip_plain]

theorem compile_of_validate_eq_error {e : CompileError} (h : order.validate k = .error e)
    (f : Filter) : compile k columns f order limit = .error e := by
  rw [compile, h]
  rfl

/-- Equal filters compile to the same statement exactly if they resolve to the same filter but for
nullability, that is if none of their relationships differ in the far column. -/
theorem compile_eq_iff_of_beq (h : (f == g) = true) :
    compile k columns (f.resolve k) order limit = compile k columns (g.resolve k) order limit ↔
      (order.validate k = .ok () → (f.resolve k).strip .plain = (g.resolve k).strip .plain) := by
  cases ho : order.validate k with
  | error e =>
    rw [compile_of_validate_eq_error ho, compile_of_validate_eq_error ho]
    refine iff_of_true rfl fun h => ?_
    cases h
  | ok =>
    rw [compile_resolve ho, compile_resolve ho, Except.ok.injEq]
    constructor
    · intro he _
      have hb := Filter.beq_iff.1 (Filter.resolve_beq h k)
      obtain ⟨hp, hs⟩ := Filter.parallel_of_strip_blind hb ⟨.table k.table, 1⟩ ⟨1, 0⟩
      simp only [ofFilter, mk.injEq, true_and] at he
      exact hs (hp.eq he.2.1 he.1)
    · intro hs
      exact ofFilter_congr (hs rfl)

/-- Of two alternatives that merge, the second is asked of the rows that the first leads to. -/
theorem compile_eq_of_merged :
    ((Word.synonyms.leadingTo 2 ||| Word.itself.leadingTo 3) ==
      (Word.synonyms.leadingTo 2 ||| Word.synonyms.leadingTo 3)) = true ∧
    compile .word Kind.word.columns
        ((Word.synonyms.leadingTo 2 ||| Word.itself.leadingTo 3).resolve .word) .random none =
      compile .word Kind.word.columns
        ((Word.synonyms.leadingTo 2 ||| Word.synonyms.leadingTo 3).resolve .word) .random none := by
  have h : ((Word.synonyms.leadingTo 2 ||| Word.itself.leadingTo 3) ==
      (Word.synonyms.leadingTo 2 ||| Word.synonyms.leadingTo 3)) = true := rfl
  exact ⟨h, (compile_eq_iff_of_beq h).2 fun _ => rfl⟩

/-- The far column of a self-relation is no part of equality, yet the rows are joined by it. -/
theorem exists_beq_compile_ne : ∃ s s',
    (Word.synonyms.leadingTo 2 == Word.itself.leadingTo 2) = true ∧
    compile .word Kind.word.columns ((Word.synonyms.leadingTo 2).resolve .word) .random none =
      .ok s ∧
    compile .word Kind.word.columns ((Word.itself.leadingTo 2).resolve .word) .random none =
      .ok s' ∧ s.sql ≠ s'.sql := by
  refine ⟨_, _, rfl, compile_resolve rfl _, compile_resolve rfl _, ?_⟩
  decide +kernel

end Statement

end Lexiquery
