import Lexiquery.Proofs.Filter.Mapping
import Lexiquery.Proofs.Statement.Wording

/-! Other values in the place of the values of a statement. They are bound, never written, so its
text stays the same; and the compiler passes each of them on to one placeholder. -/

namespace Lexiquery

variable (v : Binding → Binding)

namespace Condition

mutual

/-- The condition with each of its values replaced. The fixed values of relationships are no such
values. -/
def mapValues : Condition → Condition
  | compare r op b => compare r op (v b)
  | group c children => group c (mapValuesAll children)
  | always => always
  | literal r n => literal r n
  | null r t => null r t

def mapValuesAll : List Condition → List Condition
  | [] => []
  | c :: cs => c.mapValues :: mapValuesAll cs

end

theorem mapValuesAll_eq (cs : List Condition) : mapValuesAll v cs = cs.map (mapValues v) := by
  induction cs <;> simp [mapValuesAll, *]

variable {v}

@[simp] theorem isAlways_mapValues (c : Condition) : (c.mapValues v).isAlways = c.isAlways := by
  cases c <;> rfl

theorem all_mapValues (k : Connective) (cs : List Condition) :
    all k (cs.map (mapValues v)) = (all k cs).mapValues v := by
  have ha : (cs.map (mapValues v)).all isAlways = cs.all isAlways := by simp [Function.comp_def]
  rw [all.eq_def, all.eq_def, ha]
  split
  · rfl
  · cases k with
    | and => simp [mapValues, mapValuesAll_eq, List.filter_map, Function.comp_def]
    | or => simp [mapValues, mapValuesAll_eq]

theorem text_mapValues (c : Condition) : (c.mapValues v).text = c.text := by
  induction c using induction with
  | group k cs ih =>
    rw [mapValues, text, text, childTexts_eq, childTexts_eq, mapValuesAll_eq, List.map_map]
    congr 1
    refine List.map_congr_left fun c hc => ?_
    have h := ih c hc
    cases c with
    | group => rw [Function.comp, childText, ← h, mapValues, childText]
    | _ => exact h
  | _ => simp [mapValues, text]

theorem whereText_mapValues (c : Condition) : (c.mapValues v).whereText = c.whereText := by
  rw [whereText, whereText, isAlways_mapValues, text_mapValues]

theorem bindings_mapValues (c : Condition) : (c.mapValues v).bindings = c.bindings.map v := by
  have all {cs : List Condition} (h : ∀ c ∈ cs, (c.mapValues v).bindings = c.bindings.map v) :
      bindingsAll (mapValuesAll v cs) = (bindingsAll cs).map v := by
    induction cs with
    | nil => rfl
    | cons c cs ih =>
      obtain ⟨hc, hcs⟩ := List.forall_mem_cons.1 h
      rw [mapValuesAll, bindingsAll, bindingsAll, List.map_append, hc, ih hcs]
  induction c using induction with
  | group k cs ih => rw [mapValues, bindings, bindings, all ih]
  | _ => rfl

end Condition

def Select.mapValues (s : Select) : Select := { s with condition := s.condition.mapValues v }

def CteBody.mapValues : CteBody → CteBody
  | select s => select (s.mapValues v)
  | closure base step => closure (base.mapValues v) step

def Cte.mapValues (c : Cte) : Cte := { c with body := c.body.mapValues v }

def Statement.mapValues (s : Statement) : Statement :=
  { s with condition := s.condition.mapValues v, ctes := s.ctes.map (·.mapValues v) }

def Fragment.mapValues (p : Fragment) : Fragment :=
  { p with condition := p.condition.mapValues v, ctes := p.ctes.map (·.mapValues v) }

variable {v}

theorem Select.text_mapValues (s : Select) : (s.mapValues v).text = s.text := by
  rw [text, text, mapValues, Condition.whereText_mapValues]
  rfl

theorem Cte.text_mapValues (c : Cte) : (c.mapValues v).text = c.text := by
  obtain ⟨name, column, body⟩ := c
  cases body with
  | select s => simp [mapValues, CteBody.mapValues, text, head, bodyText, Select.text_mapValues]
  | closure base step =>
    simp [mapValues, CteBody.mapValues, text, head, bodyText, stepText, Select.text_mapValues]

theorem Cte.bindings_mapValues (c : Cte) : (c.mapValues v).bindings = c.bindings.map v := by
  obtain ⟨name, column, body⟩ := c
  cases body <;> exact Condition.bindings_mapValues _

theorem CteBody.joinCount_mapValues (b : CteBody) : (b.mapValues v).joinCount = b.joinCount := by
  cases b <;> rfl

namespace Statement

variable (s : Statement)

theorem sql_mapValues : (s.mapValues v).sql = s.sql := by
  have ctes : (s.mapValues v).withText = s.withText := by
    simp [withText, mapValues, Function.comp_def, Cte.text_mapValues]
  have condition : (s.mapValues v).condition.whereText = s.condition.whereText :=
    Condition.whereText_mapValues _
  rw [sql, sql, ctes, condition]
  rfl

theorem joinCount_mapValues : (s.mapValues v).joinCount = s.joinCount := by
  simp [joinCount, mapValues, List.foldr_map, Cte.mapValues, CteBody.joinCount_mapValues]

theorem cteCount_mapValues : (s.mapValues v).cteCount = s.cteCount := by
  simp [cteCount, mapValues]

theorem bindings_mapValues : (s.mapValues v).bindings = s.bindings.map v := by
  simp [bindings, mapValues, Condition.bindings_mapValues, List.flatMap_map, List.map_flatMap,
    Cte.bindings_mapValues]

end Statement

namespace Fragment

theorem all_mapValues (c : Connective) (ps : List Fragment) :
    all c (ps.map (mapValues v)) = (all c ps).mapValues v := by
  simp [all, mapValues, List.flatMap_map, List.map_flatMap, ← Condition.all_mapValues,
    Function.comp_def]

theorem after_mapValues (n : Numbering) (p : Fragment) : n.after (p.mapValues v) = n.after p := by
  simp [Numbering.after, mapValues]

theorem hoist_mapValues (owner : ColumnRef) (far : Kind) (positive : Bool) (body : CteBody)
    (ctes : List Cte) (tables : List Alias) (n : Numbering) :
    hoist owner far positive (body.mapValues v) (ctes.map (·.mapValues v)) tables n =
      (hoist owner far positive body ctes tables n).mapValues v := by
  cases positive <;> simp [hoist, mapValues, Cte.mapValues, Condition.mapValues]

end Fragment

theorem Relationship.withFixed_mapValues (r : Relationship) (a : Alias) (c : Condition) :
    r.withFixed a (c.mapValues v) = (r.withFixed a c).mapValues v := by
  rw [withFixed, withFixed]
  split
  · rfl
  · rw [← Condition.all_mapValues]
    rfl

namespace Fragment

variable (p : Fragment) (r : Relationship) (t : LinkTest) (owner : ColumnRef) (far : Alias)
  (n : Numbering)

theorem alongKey_mapValues :
    (p.mapValues v).alongKey r t owner far n = (p.alongKey r t owner far n).mapValues v := by
  rw [alongKey, alongKey]
  split
  · rfl
  · simp only [← hoist_mapValues, CteBody.mapValues, Select.mapValues,
      ← Relationship.withFixed_mapValues]
    rfl

theorem alongAssociation_mapValues (assoc : Association) (relation : Alias) :
    (p.mapValues v).alongAssociation r assoc t owner relation far n =
      (p.alongAssociation r assoc t owner relation far n).mapValues v := by
  rw [alongAssociation, alongAssociation]
  split
  · rfl
  · simp only [← hoist_mapValues, CteBody.mapValues, Select.mapValues,
      ← Relationship.withFixed_mapValues]
    rfl

theorem alongClosure_mapValues (step : ClosureStep) :
    (p.mapValues v).alongClosure r t owner far step n =
      (p.alongClosure r t owner far step n).mapValues v := by
  rw [alongClosure, alongClosure, ← hoist_mapValues]
  rfl

end Fragment

section

variable {m : Test → Test} (hm : ∀ t r, (m t).condition r = (t.condition r).mapValues v)
include hm

theorem Filter.lower_mapTests (f : Filter) (a : Alias) (n : Numbering) :
    (f.mapTests m).lower a n = (f.lower a n).mapValues v := by
  induction f using induction generalizing a n with
  | empty => rfl
  | test f t => exact congrArg Fragment.ofCondition (hm t _)
  | link r t condition ih =>
    rw [mapTests, lower, lower]
    cases r.passage t with
    | key =>
      simp only [ih]
      exact Fragment.alongKey_mapValues ..
    | association =>
      simp only [ih]
      exact Fragment.alongAssociation_mapValues ..
    | closure =>
      simp only [ih]
      exact Fragment.alongClosure_mapValues ..
  | group c fs ih =>
    have all {fs : List Filter} (h : ∀ f ∈ fs, ∀ a n,
        (f.mapTests m).lower a n = (f.lower a n).mapValues v) (n : Numbering) :
        lowerAll (mapTestsAll m fs) a n = (lowerAll fs a n).map (Fragment.mapValues v) := by
      induction fs generalizing n with
      | nil => rfl
      | cons f fs ihs =>
        obtain ⟨hf, hfs⟩ := List.forall_mem_cons.1 h
        simp only [mapTestsAll, lowerAll, List.map_cons, hf, ihs hfs, Fragment.after_mapValues]
    rw [mapTests, lower, lower, all ih, Fragment.all_mapValues]

theorem Statement.ofFilter_mapTests (f : Filter) (k : Kind) (columns : List String) (order : Order)
    (limit : Option UInt32) : ofFilter k columns (f.mapTests m) order limit =
      (ofFilter k columns f order limit).mapValues v := by
  simp [ofFilter, Filter.lower_mapTests hm, Fragment.mapValues, mapValues]

end

end Lexiquery
