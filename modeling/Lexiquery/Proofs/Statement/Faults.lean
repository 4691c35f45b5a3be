import Lexiquery.Proofs.Filter.Construction

/-! Compiling with nothing taken for granted: each clause is looked at as a field, a comparison and
an operand that might not go together, and each scope checks again whose fields it is given. Of all
that might go wrong only what is wrong with the order or with the outer clauses ever does. -/

namespace Lexiquery

inductive Fault
  | compile (error : CompileError)
  | notARelationship (field : Field)
  | missingOperand (field : Field) (comparison : Comparison)
  | field (error : FieldError)

def Binding.ofOperand? : Operand → Option Binding
  | .integer n => some (integer n)
  | .boolean b => some (ofBool b)
  | .string s => some (string s)
  | .none | .filter _ => none

namespace Clause

def checkKind (c : Clause) (k : Kind) : Except Fault Unit :=
  if c.field.kind = k then .ok () else .error (.compile (.foreignField c.field k))

def compare? (c : Clause) (r : ColumnRef) (op : Operator) : Except Fault Condition :=
  match Binding.ofOperand? c.operand with
  | some b => .ok (.compare r op b)
  | none => .error (.missingOperand c.field c.comparison)

def condition? (c : Clause) (r : ColumnRef) : Except Fault Condition :=
  match c.comparison with
  | .null t => return .null r t
  | .integer t => c.compare? r t.operator
  | .boolean => c.compare? r .equals
  | .string t => c.compare? r t.operator
  | .link _ => throw (.missingOperand c.field c.comparison)

def passage? (c : Clause) : Except Fault (Kind × Passage) := do
  let far ← c.field.far.mapError .field
  match c.field.flavour with
  | .link (.key ..) | .link (.keyWhere ..) => return (far, .key)
  | .link (.through _ _ foreignColumn _) =>
    let table ← c.field.table.mapError .field
    return (far, .association ⟨table, c.field.column, foreignColumn, foreignColumn⟩)
  | .link (.self _ _ _ hierarchical) =>
    let table ← c.field.table.mapError .field
    let joinColumn ← c.field.joinColumn.mapError .field
    let foreignJoinColumn ← c.field.foreignJoinColumn.mapError .field
    let transitive := match c.comparison with
      | .link t => t.isTransitive
      | _ => false
    if hierarchical && transitive then return (far, .closure table joinColumn foreignJoinColumn)
    else return (far, .association ⟨table, joinColumn, foreignJoinColumn, c.field.column⟩)
  | .scalar _ => throw (.notARelationship c.field)

end Clause

namespace Filter

mutual

def lower? : Kind → Filter → Alias → Numbering → Except Fault Fragment
  | _, empty, _, _ => return .ofCondition .always
  | k, test f t, a, _ => do
    let clause : Clause := ⟨f, t.comparison, t.operand⟩
    clause.checkKind k
    let condition ← clause.condition? ⟨a, f.column⟩
    return .ofCondition condition
  | k, group c fs, a, n => do
    let ps ← lowerAll? k fs a n
    return .all c ps
  | k, link r t condition, a, n => do
    let clause : Clause := ⟨r, .link t, .filter condition⟩
    clause.checkKind k
    let (far, passage) ← clause.passage?
    let owner : ColumnRef := ⟨a, r.column⟩
    let fresh (name : String) (skip : Nat) : Alias := ⟨.table name, n.aliases + skip + 1⟩
    match passage with
    | .key =>
      let b := fresh far.table 0
      let p ← lower? far condition b ⟨n.aliases + 1, n.ctes⟩
      return p.alongKey r t owner b n
    | .association assoc =>
      let relation := fresh assoc.table 0
      let b := fresh far.table 1
      let p ← lower? far condition b ⟨n.aliases + 2, n.ctes⟩
      return p.alongAssociation r assoc t owner relation b n
    | .closure table joinColumn foreignJoinColumn =>
      let b := fresh far.table 0
      let p ← lower? far condition b ⟨n.aliases + 1, n.ctes⟩
      let relation := fresh table (p.tables.length + 1)
      return p.alongClosure r t owner b ⟨relation, joinColumn, foreignJoinColumn⟩ n

def lowerAll? : Kind → List Filter → Alias → Numbering → Except Fault (List Fragment)
  | _, [], _, _ => return []
  | k, f :: fs, a, n => do
    let p ← lower? k f a n
    let ps ← lowerAll? k fs a (n.after p)
    return p :: ps

end

end Filter

/-- The statement for a filter, with everything that it is made of checked. -/
def Statement.compile? (k : Kind) (columns : List String) (f : Filter) (order : Order)
    (limit : Option UInt32) : Except Fault Statement := do
  (order.validate k).mapError .compile
  let main : Alias := ⟨.table k.table, 1⟩
  let p ← f.resolveConditions.lower? k main ⟨1, 0⟩
  return {
    kind := k
    main
    columns
    ctes := p.ctes
    joins := p.joins
    condition := p.condition
    order
    limit
    tables := main :: p.tables }

namespace Clause

theorem checkKind_of_eq {c : Clause} {k : Kind} (h : c.field.kind = k) : c.checkKind k = .ok () :=
  if_pos h

theorem checkKind_of_ne {c : Clause} {k : Kind} (h : c.field.kind ≠ k) :
    c.checkKind k = .error (.compile (.foreignField c.field k)) :=
  if_neg h

theorem condition?_test (f : Field) (t : Test) (r : ColumnRef) :
    condition? ⟨f, t.comparison, t.operand⟩ r = .ok (t.condition r) := by
  cases t <;> rfl

theorem passage?_link (r : Relationship) (t : LinkTest) (condition : Filter) :
    passage? ⟨r, .link t, .filter condition⟩ = .ok (r.far, r.passage t) := by
  obtain ⟨kind, column, link⟩ := r
  cases link with
  | key | keyWhere | through => rfl
  | self table near far hierarchical => cases hierarchical <;> cases t <;> rfl

def Sound (c : Clause) : Prop :=
  match c.comparison with
  | .link _ => ∃ passage, c.passage? = .ok passage
  | _ => ∀ r, ∃ condition, c.condition? r = .ok condition

theorem sound_of_clause? {f : Filter} {c : Clause} (h : f.clause? = some c) : c.Sound := by
  cases f with
  | empty | group => cases h
  | test f t =>
    obtain rfl := Option.some.inj h
    have sound (r : ColumnRef) := condition?_test f t r
    cases t <;> exact fun r => ⟨_, sound r⟩
  | link r t condition =>
    obtain rfl := Option.some.inj h
    exact ⟨_, passage?_link r t condition⟩

theorem Fits.sound {c : Clause} (h : c.Fits) : c.Sound := by
  obtain ⟨f, hf⟩ := Filter.exists_ofComparison_iff.2 h
  exact sound_of_clause? (Filter.ofComparison_eq_ok hf).2

end Clause

namespace Filter

theorem lowerAll?_of_forall {k : Kind} {fs : List Filter} {a : Alias} {n : Numbering}
    (h : ∀ f ∈ fs, ∀ n, lower? k f a n = .ok (f.lower a n)) :
    lowerAll? k fs a n = .ok (lowerAll fs a n) := by
  induction fs generalizing n with
  | nil => rfl
  | cons f fs ih =>
    obtain ⟨hf, hfs⟩ := List.forall_mem_cons.1 h
    rw [lowerAll?, hf, lowerAll]
    simp only [bind, Except.bind, ih hfs]
    rfl

theorem lower?_of_belongs {f : Filter} {k : Kind} (hk : f.Belongs k) (a : Alias) (n : Numbering) :
    lower? k f a n = .ok (f.lower a n) := by
  induction f using induction generalizing k a n with
  | empty => rfl
  | test f t =>
    obtain rfl := belongs_test_iff.1 hk
    rw [lower?, lower, Clause.checkKind_of_eq rfl, Clause.condition?_test]
    rfl
  | link r t condition ih =>
    obtain ⟨rfl, hc⟩ := belongs_link_iff.1 hk
    have check : Clause.checkKind ⟨r, .link t, .filter condition⟩ r.kind = .ok () :=
      Clause.checkKind_of_eq rfl
    rw [lower?, lower, check, Clause.passage?_link]
    simp only [bind, Except.bind]
    cases r.passage t <;> simp only [ih hc] <;> rfl
  | group c fs ih =>
    rw [lower?, lower, lowerAll?_of_forall fun f hf n => ih f hf (belongs_group_iff.1 hk f hf) a n]
    rfl

theorem lower?_of_foreign {f : Filter} {k : Kind} {g : Field} (h : f.foreign? k = some g)
    (a : Alias) (n : Numbering) :
    lower? k f.resolveConditions a n = .error (.compile (.foreignField g k)) := by
  induction f using induction generalizing a n with
  | empty => cases h
  | test f t =>
    obtain ⟨hk, rfl⟩ : f.kind ≠ k ∧ f = g := by simpa [foreign?] using h
    change lower? k (test f t) a n = _
    rw [lower?, Clause.checkKind_of_ne hk]
    rfl
  | link r t condition =>
    obtain ⟨hk, rfl⟩ : r.kind ≠ k ∧ r.field = g := by simpa [foreign?] using h
    rw [resolveConditions, lower?, Clause.checkKind_of_ne hk]
    rfl
  | group c fs ih =>
    suffices lowerAll? k (resolveConditionsAll fs) a n = .error (.compile (.foreignField g k)) by
      rw [resolveConditions, lower?, this]
      rfl
    rw [foreign?] at h
    -- over the children: those before the one that is reported have no clause on another kind,
    -- and their conditions were resolved, so nothing stops at them
    induction fs generalizing n with
    | nil => cases h
    | cons f fs ihs =>
      obtain ⟨hf, hfs⟩ := List.forall_mem_cons.1 ih
      rw [resolveConditionsAll, lowerAll?]
      cases hg : f.foreign? k with
      | some g' =>
        obtain rfl : g' = g := by simpa [foreignAny?, hg] using h
        rw [hf hg]
        rfl
      | none =>
        rw [foreignAny?, hg, Option.none_or] at h
        rw [lower?_of_belongs (belongs_resolveConditions hg)]
        simp only [bind, Except.bind, ihs hfs h]

end Filter

namespace Statement

theorem compile?_eq (k : Kind) (columns : List String) (f : Filter) (order : Order)
    (limit : Option UInt32) :
    compile? k columns f order limit = (compile k columns f order limit).mapError .compile := by
  rw [compile?, compile]
  cases order.validate k with
  | error e => rfl
  | ok =>
    -- the compiler asks for clauses on another kind beforehand, the checks find them on the way
    cases hf : f.foreign? k with
    | none =>
      have lowered := Filter.lower?_of_belongs (Filter.belongs_resolveConditions hf)
      change (f.resolveConditions.lower? k _ _ >>= _) = _
      rw [lowered]
      rfl
    | some g =>
      change (f.resolveConditions.lower? k _ _ >>= _) = _
      rw [Filter.lower?_of_foreign hf]
      rfl

theorem compile_eq_error_iff {k : Kind} {columns : List String} {f : Filter} {order : Order}
    {limit : Option UInt32} {e : CompileError} :
    compile k columns f order limit = .error e ↔ order.validate k = .error e ∨
      order.validate k = .ok () ∧ ∃ g, f.foreign? k = some g ∧ e = .foreignField g k := by
  rw [compile]
  cases order.validate k with
  | error e' => simp [bind, Except.bind]
  | ok =>
    cases f.foreign? k with
    | none => simp [bind, Except.bind, pure, Except.pure]
    | some g => simp [bind, Except.bind, throw, throwThe, MonadExceptOf.throw, eq_comm]

theorem compile?_eq_error_iff {k : Kind} {columns : List String} {f : Filter} {order : Order}
    {limit : Option UInt32} {e : Fault} : compile? k columns f order limit = .error e ↔
      ∃ e', compile k columns f order limit = .error e' ∧ e = .compile e' := by
  rw [compile?_eq]
  cases compile k columns f order limit with
  | ok s =>
    constructor
    · intro h
      cases h
    · rintro ⟨_, h, -⟩
      cases h
  | error e' =>
    constructor
    · intro h
      cases h
      exact ⟨e', rfl, rfl⟩
    · rintro ⟨_, h, rfl⟩
      cases h
      rfl

theorem compile_resolve_eq_error_iff {k : Kind} {columns : List String} {f : Filter}
    {order : Order} {limit : Option UInt32} {e : CompileError} :
    compile k columns (f.resolve k) order limit = .error e ↔ order.validate k = .error e := by
  simp [compile_eq_error_iff, (f.normal_resolve k).foreign?_eq]

theorem compile_eq_error_iff_of_validate {k : Kind} {columns : List String} {f : Filter}
    {order : Order} {limit : Option UInt32} {e : CompileError} (ho : order.validate k = .ok ()) :
    compile k columns f order limit = .error e ↔
      ∃ c, f.outerClauses.find? (·.field.kind ≠ k) = some c ∧ e = .foreignField c.field k := by
  simp only [compile_eq_error_iff, ho, true_and, reduceCtorEq, false_or, Filter.foreign?_eq,
    Option.map_eq_some_iff]
  constructor
  · rintro ⟨_, ⟨c, hc, rfl⟩, rfl⟩
    exact ⟨c, hc, rfl⟩
  · rintro ⟨c, hc, rfl⟩
    exact ⟨_, ⟨c, hc, rfl⟩, rfl⟩

theorem exists_compile_eq_error_iff {k : Kind} {f : Filter} {order : Order}
    (ho : order.validate k = .ok ()) (columns : List String) (limit : Option UInt32) :
    (∃ e, compile k columns f order limit = .error e) ↔ ∃ c ∈ f.outerClauses, c.field.kind ≠ k := by
  simp only [compile_eq_error_iff_of_validate ho]
  rw [exists_comm]
  simp [← Option.isSome_iff_exists]

/-- Every clause of a filter that was made by the public constructors is sound. So with all checks
in place the filter, once normalized, compiles unless the order is refused; as it is, it compiles
unless one of its outer clauses stands on another kind, and the leftmost of those is reported.
No other check ever fails, whatever the order, and none is missing from the compiler. -/
theorem faults_of_built {f : Filter} (hf : f.Built) (k : Kind) (columns : List String)
    (order : Order) (limit : Option UInt32) :
    (∀ c ∈ f.clauses, c.Fits ∧ c.Sound) ∧
    (∀ e, compile? k columns (f.normalize k).compact order limit = .error e ↔
      ∃ e', order.validate k = .error e' ∧ e = .compile e') ∧
    (order.validate k = .ok () →
      ((∃ e, compile? k columns f order limit = .error e) ↔
        ∃ c ∈ f.outerClauses, c.field.kind ≠ k) ∧
      ∀ e, compile? k columns f order limit = .error e ↔
        ∃ c, f.outerClauses.find? (·.field.kind ≠ k) = some c ∧
          e = .compile (.foreignField c.field k)) ∧
    (∀ e, compile? k columns f order limit = .error e →
      (∀ g, e ≠ .notARelationship g) ∧ (∀ g c, e ≠ .missingOperand g c) ∧ ∀ e', e ≠ .field e') ∧
    compile? k columns f order limit = (compile k columns f order limit).mapError .compile := by
  refine ⟨fun c hc => ?_, fun e => ?_, fun ho => ⟨?_, fun e => ?_⟩, fun e he => ?_, compile?_eq ..⟩
  · have fits := Filter.wellFormed_iff_fits.1 hf.wellFormed c hc
    exact ⟨fits, fits.sound⟩
  · simp only [compile?_eq_error_iff]
    exact exists_congr fun e' => and_congr_left' compile_resolve_eq_error_iff
  · refine Iff.trans ?_ (exists_compile_eq_error_iff ho columns limit)
    simp only [compile?_eq_error_iff]
    exact ⟨fun ⟨_, e', he, _⟩ => ⟨e', he⟩, fun ⟨e', he⟩ => ⟨_, e', he, rfl⟩⟩
  · simp only [compile?_eq_error_iff, compile_eq_error_iff_of_validate ho]
    constructor
    · rintro ⟨_, ⟨c, hc, rfl⟩, rfl⟩
      exact ⟨c, hc, rfl⟩
    · rintro ⟨c, hc, rfl⟩
      exact ⟨_, ⟨c, hc, rfl⟩, rfl⟩
  · obtain ⟨e', -, rfl⟩ := compile?_eq_error_iff.1 he
    simp

/-- A filter whose second clause asks for forms, not for words. -/
theorem sample_faults_of_built :
    let f := Filter.group .or [.test Schema.Word.tagCount (.integer .greaterThan 3),
      .link Schema.Word.notions .hasNone .empty, .formText "run"]
    f.Built ∧ compile? .word Kind.word.columns f .random none =
      .error (.compile (.foreignField Schema.Form.text .word)) ∧
    ∀ e, compile? .word Kind.word.columns (f.normalize .word).compact .random none ≠ .error e := by
  intro f
  have hf : f.Built := Filter.built_iff.2 <| .group (by
    simpa using ⟨.test rfl, .link rfl .empty, .test rfl⟩)
  obtain ⟨-, normalized, direct, -⟩ := faults_of_built hf .word Kind.word.columns .random none
  refine ⟨hf, (direct rfl).2 _ |>.2 ⟨_, rfl, rfl⟩, ?_⟩
  intro e he
  obtain ⟨_, ho, -⟩ := (normalized e).1 he
  cases ho

end Statement

end Lexiquery
