import Mathlib.Algebra.GroupWithZero.Nat
import Lexiquery.Proofs.Filter.Slots
import Lexiquery.Proofs.Statement.Selection

/-! How many joins, common table expressions and aliases a statement has. Each link of its filter
adds its own share, wherever it stands, and nothing else adds any. -/

namespace Lexiquery

/-- Whether the related rows are the rows of another kind that have an equal column, with no other
table between. -/
def Relationship.isDirect (r : Relationship) : Bool :=
  match r.link with
  | .key .. | .keyWhere .. => true
  | .through .. | .self .. => false

theorem Relationship.isDirect_eq_of_beq {r s : Relationship} (h : (r == s) = true) :
    s.isDirect = r.isDirect := by
  have tag (r : Relationship) : r.isDirect = decide (r.field.identity.flavour ≤ 5) := by
    obtain ⟨_, _, _ | _ | ⟨_, _, _, _ | _⟩ | ⟨_, _, _, _ | _⟩⟩ := r <;> rfl
  rw [tag, tag, Relationship.beq_iff.1 h]

/-- The joins that a link adds, those for its common table expression included. -/
def Relationship.joinCost (r : Relationship) : Nat := if r.isDirect then 1 else 2

/-- A link that asks for more than some related row adds one common table expression. -/
def LinkTest.cteCost (t : LinkTest) : Nat := if t = .hasSome then 0 else 1

def Relationship.aliasCost (r : Relationship) (t : LinkTest) : Nat :=
  if r.isDirect then if t.isPositive then 1 else 2
  else if t = .hasSome then 2 else 3

namespace Filter

mutual

def links : Filter → List (Relationship × LinkTest)
  | empty | test .. => []
  | link r t condition => (r, t) :: condition.links
  | group _ fs => linksAll fs

def linksAll : List Filter → List (Relationship × LinkTest)
  | [] => []
  | f :: fs => f.links ++ linksAll fs

end

theorem linksAll_eq (fs : List Filter) : linksAll fs = fs.flatMap links := by
  induction fs with
  | nil => rfl
  | cons f fs ih => rw [linksAll, ih, List.flatMap_cons]

def joinCost (f : Filter) : Nat := (f.links.map fun l => l.1.joinCost).sum

def cteCost (f : Filter) : Nat := f.links.countP fun l => l.2 != .hasSome

def aliasCost (f : Filter) : Nat := (f.links.map fun l => l.1.aliasCost l.2).sum

section

variable (r : Relationship) (t : LinkTest) (c : Connective) (f condition : Filter)
  (fs : List Filter)

theorem joinCost_link : (link r t condition).joinCost = r.joinCost + condition.joinCost := by
  simp [joinCost, links]

theorem joinCost_group_cons :
    (group c (f :: fs)).joinCost = f.joinCost + (group c fs).joinCost := by
  simp [joinCost, links, linksAll]

theorem cteCost_link : (link r t condition).cteCost = t.cteCost + condition.cteCost := by
  cases t <;> simp [cteCost, links, LinkTest.cteCost, Nat.add_comm]

theorem cteCost_group_cons : (group c (f :: fs)).cteCost = f.cteCost + (group c fs).cteCost := by
  simp [cteCost, links, linksAll]

theorem aliasCost_link : (link r t condition).aliasCost = r.aliasCost t + condition.aliasCost := by
  simp [aliasCost, links]

theorem aliasCost_group_cons :
    (group c (f :: fs)).aliasCost = f.aliasCost + (group c fs).aliasCost := by
  simp [aliasCost, links, linksAll]

end

end Filter

def bodyJoins (ctes : List Cte) : Nat := (ctes.map (·.body.joinCount)).sum

structure Fragment.Costs (p : Fragment) (joins ctes aliases : Nat) : Prop where
  joins : p.joins.length + bodyJoins p.ctes = joins
  ctes : p.ctes.length = ctes
  aliases : p.tables.length = aliases

namespace Fragment

variable {p : Fragment} {r : Relationship} {t : LinkTest} {owner : ColumnRef}
  {far relation : Alias} {n : Numbering} {joins ctes aliases : Nat}

theorem costs_ofCondition (c : Condition) : (ofCondition c).Costs 0 0 0 :=
  ⟨rfl, rfl, rfl⟩

theorem costs_hoist {k : Kind} {positive : Bool} {body : CteBody} {cs : List Cte}
    {tables : List Alias} (hj : body.joinCount + bodyJoins cs + 1 = joins)
    (hc : cs.length + 1 = ctes) (ha : tables.length + 1 = aliases) :
    (hoist owner k positive body cs tables n).Costs joins ctes aliases where
  joins := by simp [hoist, bodyJoins, ← hj]; omega
  ctes := by simp [hoist, ← hc]
  aliases := by simp [hoist, ← ha]

theorem Costs.alongKey (h : p.Costs joins ctes aliases) (hd : r.isDirect = true)
    (ht : t.isTransitive = false) : (p.alongKey r t owner far n).Costs
      (r.joinCost + joins) (t.cteCost + ctes) (r.aliasCost t + aliases) := by
  obtain ⟨rfl, rfl, rfl⟩ := h
  simp only [Relationship.joinCost, Relationship.aliasCost, LinkTest.cteCost, hd]
  cases t with
  | hasSome => refine ⟨?_, ?_, ?_⟩ <;> simp [Fragment.alongKey, LinkTest.isPositive] <;> omega
  | hasNone =>
    refine costs_hoist ?_ ?_ ?_ <;> simp [CteBody.joinCount, LinkTest.isPositive] <;> omega
  | reachesSome | reachesNone => cases ht

theorem Costs.alongAssociation (h : p.Costs joins ctes aliases) (hd : r.isDirect = false)
    (ht : t.isTransitive = false) (assoc : Association) :
    (p.alongAssociation r assoc t owner relation far n).Costs
      (r.joinCost + joins) (t.cteCost + ctes) (r.aliasCost t + aliases) := by
  obtain ⟨rfl, rfl, rfl⟩ := h
  simp only [Relationship.joinCost, Relationship.aliasCost, LinkTest.cteCost, hd]
  cases t with
  | hasSome =>
    refine ⟨?_, ?_, ?_⟩ <;> simp [Fragment.alongAssociation, LinkTest.isPositive] <;> omega
  | hasNone => refine costs_hoist ?_ ?_ ?_ <;> simp [CteBody.joinCount] <;> omega
  | reachesSome | reachesNone => cases ht

theorem Costs.alongClosure (h : p.Costs joins ctes aliases) (hd : r.isDirect = false)
    (ht : t.isTransitive = true) (step : ClosureStep) :
    (p.alongClosure r t owner far step n).Costs
      (r.joinCost + joins) (t.cteCost + ctes) (r.aliasCost t + aliases) := by
  obtain ⟨rfl, rfl, rfl⟩ := h
  have ne : t ≠ .hasSome := by rintro rfl; cases ht
  simp only [Relationship.joinCost, Relationship.aliasCost, LinkTest.cteCost, hd, if_neg ne]
  refine costs_hoist ?_ ?_ ?_
  · simp only [CteBody.joinCount, Bool.false_eq_true, if_false]
    omega
  · omega
  · simp only [List.length_append, List.length_cons, List.length_nil, Bool.false_eq_true, if_false]
    omega

theorem Costs.cons {c : Connective} {ps : List Fragment} {joins' ctes' aliases' : Nat}
    (h : p.Costs joins ctes aliases) (hs : (all c ps).Costs joins' ctes' aliases') :
    (all c (p :: ps)).Costs (joins + joins') (ctes + ctes') (aliases + aliases') := by
  obtain ⟨rfl, rfl, rfl⟩ := h
  obtain ⟨rfl, rfl, rfl⟩ := hs
  refine ⟨?_, ?_, ?_⟩
  · simp only [all, bodyJoins, List.flatMap_cons, List.map_append, List.sum_append,
      List.length_append]
    omega
  · simp [all]
  · simp [all]

end Fragment

theorem Relationship.isDirect_iff_passage {r : Relationship} {t : LinkTest} :
    r.isDirect = true ↔ r.passage t = .key := by
  obtain ⟨_, _, link⟩ := r
  cases link <;> simp [isDirect, passage]
  split <;> simp

theorem Filter.costs_lower {f : Filter} (hf : f.Sound) (a : Alias) (n : Numbering) :
    (f.lower a n).Costs f.joinCost f.cteCost f.aliasCost := by
  induction f using induction generalizing a n with
  | empty => exact Fragment.costs_ofCondition _
  | test => exact Fragment.costs_ofCondition _
  | link r t condition ih =>
    obtain ⟨⟨-, hh⟩, hc⟩ := every_link.1 hf
    -- a closure is taken exactly where the comparison is transitive
    have once (h : ¬ ∃ table near far, r.passage t = .closure table near far) :
        t.isTransitive = false :=
      Bool.eq_false_iff.2 fun ht => h (Relationship.exists_closure ht (hh ht))
    have indirect (h : r.passage t ≠ .key) : r.isDirect = false :=
      Bool.eq_false_iff.2 (mt Relationship.isDirect_iff_passage.1 h)
    rw [lower, joinCost_link, cteCost_link, aliasCost_link]
    cases hp : r.passage t with
    | key =>
      exact (ih hc _ _).alongKey (Relationship.isDirect_iff_passage.2 hp) (once (by simp [hp]))
    | association assoc =>
      exact (ih hc _ _).alongAssociation (indirect (by simp [hp])) (once (by simp [hp])) assoc
    | closure table near far =>
      exact (ih hc _ _).alongClosure (indirect (by simp [hp]))
        (Relationship.isTransitive_of_closure hp) _
  | group c fs ih =>
    rw [lower]
    induction fs generalizing n with
    | nil => exact ⟨rfl, rfl, rfl⟩
    | cons f fs ihs =>
      obtain ⟨hf, hfs⟩ := List.forall_mem_cons.1 (every_group.1 hf)
      obtain ⟨ihf, ih⟩ := List.forall_mem_cons.1 ih
      rw [joinCost_group_cons, cteCost_group_cons, aliasCost_group_cons]
      exact (ihf hf a n).cons (ihs ih (every_group.2 hfs) _)

namespace Statement

theorem joinCount_eq (s : Statement) : s.joinCount = s.joins.length + bodyJoins s.ctes := by
  rw [joinCount, bodyJoins]
  congr 1
  induction s.ctes <;> simp [*]

theorem counts_ofFilter {f : Filter} (hf : f.Sound) (k : Kind) (columns : List String)
    (order : Order) (limit : Option UInt32) :
    (ofFilter k columns f order limit).joinCount = f.joinCost ∧
      (ofFilter k columns f order limit).cteCount = f.cteCost ∧
      (ofFilter k columns f order limit).tables.length = 1 + f.aliasCost := by
  have h := f.costs_lower hf ⟨.table k.table, 1⟩ ⟨1, 0⟩
  exact ⟨(joinCount_eq _).trans h.joins, h.ctes,
    by rw [ofFilter, List.length_cons, h.aliases, Nat.add_comm]⟩

end Statement

end Lexiquery
