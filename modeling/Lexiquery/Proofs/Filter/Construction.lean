import Lexiquery.Proofs.Filter.Belonging
import Lexiquery.Proofs.Filter.Negation

/-! Filters as the public constructors make them. Every clause was asked for as a field, a
comparison and an operand, and passed the check of its constructor; whatever is done to filters
afterwards keeps to clauses that pass it. -/

namespace Lexiquery

structure Clause where
  field : Field
  comparison : Comparison
  operand : Operand

def Clause.Fits (c : Clause) : Prop :=
  c.comparison.accepts c.field = true ∧ c.operand.shape = c.comparison.operandShape

def Test.operand : Test → Operand
  | integer _ n => .integer n
  | boolean b => .boolean b
  | string _ s => .string s
  | null _ => .none

theorem Field.field_of_relationship? {f : Field} {r : Relationship}
    (h : f.relationship? = some r) : r.field = f := by
  obtain ⟨kind, column, flavour⟩ := f
  cases flavour with
  | scalar => cases h
  | link link =>
    obtain rfl := Option.some.inj h
    rfl

namespace Filter

def clause? : Filter → Option Clause
  | test f t => some ⟨f, t.comparison, t.operand⟩
  | link r t condition => some ⟨r, .link t, .filter condition⟩
  | empty | group .. => none

theorem shape_of_clause? {f : Filter} {c : Clause} (h : f.clause? = some c) :
    c.operand.shape = c.comparison.operandShape := by
  cases f with
  | empty => cases h
  | test f t =>
    obtain rfl := Option.some.inj h
    cases t <;> rfl
  | link r t condition =>
    obtain rfl := Option.some.inj h
    rfl
  | group => cases h

theorem clause?_of_ofOperand? {f : Field} {c : Comparison} {o : Operand} {g : Filter}
    (h : ofOperand? f c o = some g) : g.clause? = some ⟨f, c, o⟩ := by
  cases c with
  | link t =>
    cases o with
    | filter condition =>
      obtain ⟨r, hr, rfl⟩ := Option.map_eq_some_iff.1 h
      rw [clause?, Field.field_of_relationship? hr]
    | _ => cases h
  | _ =>
    cases o
    all_goals cases h
    all_goals rfl

theorem exists_ofOperand? {f : Field} {c : Comparison} {o : Operand}
    (h : Clause.Fits ⟨f, c, o⟩) : ∃ g, ofOperand? f c o = some g := by
  obtain ⟨ha, hs⟩ := h
  cases c with
  | link t =>
    cases o with
    | filter condition =>
      -- both ways of accepting a link, followed once or any number of times, need a relationship
      have hl : f.isLink = true := by
        rw [Comparison.accepts] at ha
        split at ha
        · cases hr : f.relationship? with
          | none => simp [Field.isHierarchical, hr] at ha
          | some r => simp [Field.isLink, hr]
        · exact ha
      obtain ⟨r, hr⟩ := Option.isSome_iff_exists.1 hl
      exact ⟨_, by rw [ofOperand?, hr]; rfl⟩
    | _ => cases hs
  | _ => cases o <;> first | exact ⟨_, rfl⟩ | cases hs

theorem ofComparison_eq_ok {f : Field} {c : Comparison} {o : Operand} {g : Filter}
    (h : ofComparison f c o = .ok g) : Clause.Fits ⟨f, c, o⟩ ∧ g.clause? = some ⟨f, c, o⟩ := by
  rw [ofComparison] at h
  split at h
  · rename_i ha
    cases ho : ofOperand? f c o with
    | none => rw [ho] at h; cases h
    | some g' =>
      rw [ho] at h
      cases h
      have hc := clause?_of_ofOperand? ho
      exact ⟨⟨ha, shape_of_clause? hc⟩, hc⟩
  · cases h

theorem exists_ofComparison_iff {f : Field} {c : Comparison} {o : Operand} :
    (∃ g, ofComparison f c o = .ok g) ↔ Clause.Fits ⟨f, c, o⟩ := by
  refine ⟨fun ⟨g, h⟩ => (ofComparison_eq_ok h).1, fun h => ?_⟩
  obtain ⟨g, hg⟩ := exists_ofOperand? h
  exact ⟨g, by rw [ofComparison, if_pos h.1, hg]⟩

mutual

def clauses : Filter → List Clause
  | empty => []
  | test f t => [⟨f, t.comparison, t.operand⟩]
  | link r t condition => ⟨r, .link t, .filter condition⟩ :: condition.clauses
  | group _ fs => clausesAll fs

def clausesAll : List Filter → List Clause
  | [] => []
  | f :: fs => f.clauses ++ clausesAll fs

end

mutual

def outerClauses : Filter → List Clause
  | empty => []
  | test f t => [⟨f, t.comparison, t.operand⟩]
  | link r t condition => [⟨r, .link t, .filter condition⟩]
  | group _ fs => outerClausesAll fs

def outerClausesAll : List Filter → List Clause
  | [] => []
  | f :: fs => f.outerClauses ++ outerClausesAll fs

end

theorem clausesAll_eq (fs : List Filter) : clausesAll fs = fs.flatMap clauses := by
  induction fs <;> simp [clausesAll, *]

theorem foreign?_eq (f : Filter) (k : Kind) :
    f.foreign? k = (f.outerClauses.find? (·.field.kind ≠ k)).map (·.field) := by
  have all {fs : List Filter}
      (h : ∀ f ∈ fs, f.foreign? k = (f.outerClauses.find? (·.field.kind ≠ k)).map (·.field)) :
      foreignAny? k fs = ((outerClausesAll fs).find? (·.field.kind ≠ k)).map (·.field) := by
    induction fs with
    | nil => rfl
    | cons f fs ih =>
      obtain ⟨hf, hfs⟩ := List.forall_mem_cons.1 h
      rw [foreignAny?, outerClausesAll, List.find?_append, hf, ih hfs, Option.map_or]
  induction f using induction with
  | empty => rfl
  | test f t => by_cases h : f.kind = k <;> simp [foreign?, outerClauses, h]
  | link r t condition =>
    by_cases h : r.kind = k <;> simp [foreign?, outerClauses, h, Relationship.field]
  | group c fs ih => rw [foreign?, outerClauses, all ih]

theorem wellFormed_iff_fits {f : Filter} : f.WellFormed ↔ ∀ c ∈ f.clauses, c.Fits := by
  induction f using induction with
  | empty => simp [clauses, WellFormed.empty]
  | test f t =>
    have shape : t.operand.shape = t.comparison.operandShape := by cases t <;> rfl
    simp [clauses, Clause.Fits, shape, wellFormed_iff]
  | link r t condition ih =>
    simp [clauses, Clause.Fits, wellFormed_link, ih, Operand.shape, Comparison.operandShape]
  | group c fs ih =>
    rw [wellFormed_group, clauses, clausesAll_eq]
    simp only [List.mem_flatMap, forall_exists_index, and_imp]
    exact ⟨fun h d f hf => (ih f hf).1 (h f hf) d, fun h f hf => (ih f hf).2 fun d => h d f hf⟩

/-- Filters that are made by the public constructors from fields of any sort. -/
inductive Built : Filter → Prop
  | empty : Built empty
  | ofComparison {f : Field} {c : Comparison} {o : Operand} {g : Filter} :
    (∀ condition, o = .filter condition → Built condition) → ofComparison f c o = .ok g → Built g
  | equals {f : Field} {o : Operand} {g : Filter} :
    (∀ condition, o = .filter condition → Built condition) → f.equals o = .ok g → Built g
  | differs {f : Field} {o : Operand} {g : Filter} :
    (∀ condition, o = .filter condition → Built condition) → f.differs o = .ok g → Built g
  | ordered {f : Field} {operation : String} {t : IntegerTest} {o : Operand} {g : Filter} :
    (∀ condition, o = .filter condition → Built condition) → f.ordered operation t o = .ok g →
      Built g
  | like {f : Field} {pattern : String} {g : Filter} : f.like pattern = .ok g → Built g
  | notLike {f : Field} {pattern : String} {g : Filter} : f.notLike pattern = .ok g → Built g
  | isNull {f : Field} {g : Filter} : f.isNull = .ok g → Built g
  | isNotNull {f : Field} {g : Filter} : f.isNotNull = .ok g → Built g
  | related {f : Field} {t : LinkTest} {condition g : Filter} :
    Built condition → f.related t condition = .ok g → Built g
  | group {c : Connective} {fs : List Filter} : (∀ f ∈ fs, Built f) → Built (group c fs)
  | push {f g : Filter} : Built f → Built g → Built (f.push g)
  | and {f g : Filter} : Built f → Built g → Built (f &&& g)
  | or {f g : Filter} : Built f → Built g → Built (f ||| g)
  | negated {f : Filter} : Built f → Built f.negated
  | normalize {f : Filter} (k : Kind) : Built f → Built (f.normalize k)
  | compact {f : Filter} : Built f → Built f.compact

theorem wellFormed_of_ofComparison {f : Field} {c : Comparison} {o : Operand} {g : Filter}
    (ho : ∀ condition, o = .filter condition → condition.WellFormed)
    (h : ofComparison f c o = .ok g) : g.WellFormed := by
  obtain ⟨⟨ha, -⟩, hc⟩ := ofComparison_eq_ok h
  cases g with
  | empty | group => cases hc
  | test => cases hc; exact .test ha
  | link => cases hc; exact .link ha (ho _ rfl)

theorem exists_ofComparison_of_equals {f : Field} {o : Operand} {g : Filter}
    (h : f.equals o = .ok g) : ∃ c, ofComparison f c o = .ok g := by
  rw [Field.equals] at h
  split at h
  · exact ⟨_, h⟩
  · exact ⟨_, h⟩
  · exact ⟨_, h⟩
  · cases h

theorem exists_ofComparison_of_differs {f : Field} {o : Operand} {g : Filter}
    (h : f.differs o = .ok g) : ∃ c o', (∀ condition, o' = .filter condition →
      o = .filter condition) ∧ ofComparison f c o' = .ok g := by
  rw [Field.differs.eq_def] at h
  split at h
  · exact ⟨_, o, fun _ => id, h⟩
  · exact ⟨_, o, fun _ => id, h⟩
  · split at h
    · rename_i b
      exact ⟨_, .boolean !b, nofun, h⟩
    · exact ⟨_, o, fun _ => id, h⟩
  · cases h

theorem WellFormed.push {f g : Filter} (hf : f.WellFormed) (hg : g.WellFormed) :
    (f.push g).WellFormed := by
  cases f with
  | group c fs =>
    refine wellFormed_group.2 (List.forall_mem_append.2 ⟨wellFormed_group.1 hf, ?_⟩)
    simpa using hg
  | empty | test | link => exact hf.combine .and hg

theorem Built.wellFormed {f : Filter} (h : f.Built) : f.WellFormed := by
  induction h with
  | empty => exact .empty
  | ofComparison _ h ih => exact wellFormed_of_ofComparison ih h
  | equals _ h ih =>
    obtain ⟨c, h⟩ := exists_ofComparison_of_equals h
    exact wellFormed_of_ofComparison ih h
  | differs _ h ih =>
    obtain ⟨c, o, ho, h⟩ := exists_ofComparison_of_differs h
    exact wellFormed_of_ofComparison (fun condition hc => ih condition (ho condition hc)) h
  | ordered _ h ih =>
    rw [Field.ordered] at h
    split at h
    · exact wellFormed_of_ofComparison ih h
    · cases h
  | like h | notLike h | isNull h | isNotNull h =>
    exact wellFormed_of_ofComparison (fun _ ho => by cases ho) h
  | related _ h ih =>
    exact wellFormed_of_ofComparison (fun _ hc => by cases hc; exact ih) h
  | group _ ih => exact .group ih
  | push _ _ hf hg => exact hf.push hg
  | and _ _ hf hg => exact hf.combine .and hg
  | or _ _ hf hg => exact hf.combine .or hg
  | negated _ ih => exact ih.negated
  | normalize k _ ih => exact ih.normalize k
  | compact _ ih => exact ih.compact

theorem built_iff {f : Filter} : f.Built ↔ f.WellFormed := by
  refine ⟨Built.wellFormed, fun h => ?_⟩
  induction h with
  | empty => exact .empty
  | @test f t ha =>
    refine .ofComparison (f := f) (c := t.comparison) (o := t.operand) ?_ ?_
    · cases t <;> exact nofun
    · rw [ofComparison, if_pos ha]
      cases t <;> rfl
  | @link r t condition ha _ ih =>
    refine .related (f := r) (t := t) ih ?_
    rw [Field.related, ofComparison, if_pos ha]
    rfl
  | group _ ih => exact .group ih

end Filter

end Lexiquery
