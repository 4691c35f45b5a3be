import Lexiquery.Proofs.Statement.Labels
import Lexiquery.Statement.Scope

/-! The selects of a statement as far as names go: what each of them joins, in order, and the names
it uses. A statement is well scoped if every use meets the one place that introduces the name. -/

namespace Lexiquery

structure Term where
  source : Source
  name : String
  on : List String

structure Block where
  terms : List Term
  uses : List String

namespace Block

def sources (b : Block) : List Source := b.terms.map (·.source)

def names (b : Block) : List String := b.terms.map (·.name)

end Block

def Alias.term (a : Alias) : Term := ⟨a.source, a.text, []⟩

def Join.term (j : Join) : Term :=
  ⟨j.table.source, j.table.text, j.mentions.map (·.column.table.text)⟩

def Condition.uses (c : Condition) : List String := (c.mentions 0).map (·.column.table.text)

def Select.block (s : Select) : Block where
  terms := s.column.table.term :: s.joins.map Join.term
  uses := s.column.table.text :: s.condition.uses

namespace Cte

/-- The second select of a closure. The expression stands in it under its own name. -/
def stepBlock (c : Cte) (step : ClosureStep) : Block where
  terms := [step.relation.term, ⟨.cte c.name, c.name.text, [step.relation.text, c.name.text]⟩]
  uses := [step.relation.text]

def blocks (c : Cte) : List Block :=
  match c.body with
  | .select s => [s.block]
  | .closure base step => [base.block, c.stepBlock step]

end Cte

namespace Statement

def block (s : Statement) : Block where
  terms := s.main.term :: s.joins.map Join.term
  uses := s.columnRefs.map (·.table.text) ++ s.condition.uses ++ [s.main.text] ++
    match s.order with
    | .random => []
    | .by .. => [s.main.text]

def blocks (s : Statement) : List Block := s.ctes.flatMap Cte.blocks ++ [s.block]

end Statement

def TermsScoped : List String → List Term → Prop
  | _, [] => True
  | seen, t :: ts => (∀ u ∈ t.on, u ∈ t.name :: seen) ∧ TermsScoped (t.name :: seen) ts

structure Block.Scoped (b : Block) : Prop where
  on : TermsScoped [] b.terms
  uses : ∀ u ∈ b.uses, u ∈ b.names

def Source.Known (ctes : List CteName) : Source → Prop
  | table name => name ∈ Store.tableNames
  | cte name => name ∈ ctes

/-- What an expression draws on is known before it; the second select of a closure names the closure
itself, and does so once. -/
def Cte.Draws (c : Cte) (earlier : List CteName) : Prop :=
  match c.body with
  | .select s => ∀ src ∈ s.block.sources, src.Known earlier
  | .closure base step =>
    (∀ src ∈ base.block.sources, src.Known earlier) ∧
      (c.stepBlock step).sources.count (.cte c.name) = 1 ∧
        ∀ src ∈ (c.stepBlock step).sources, src ≠ .cte c.name → src.Known earlier

def Ordered : List CteName → List Cte → Prop
  | _, [] => True
  | earlier, c :: cs => c.Draws earlier ∧ Ordered (earlier ++ [c.name]) cs

def Cte.ownNames (c : Cte) : List String :=
  match c.body with
  | .select _ => []
  | .closure .. => [c.name.text]

namespace Statement

structure WellScoped (s : Statement) : Prop where
  aliases_numbered : s.tables.map (·.number) = List.range' 1 s.tables.length
  aliases_distinct : (s.tables.map (·.text)).Nodup
  ctes_numbered : s.ctes.map (·.name.number) = List.range' 1 s.ctes.length
  ctes_distinct : (s.ctes.map (·.name.text)).Nodup
  apart : ∀ a ∈ s.tables, ∀ c ∈ s.ctes, a.text ≠ c.name.text
  /-- What the selects introduce is what is registered. -/
  introduced : (s.blocks.flatMap (·.names)).Perm
    (s.tables.map (·.text) ++ s.ctes.flatMap (·.ownNames))
  introduced_once : (s.blocks.flatMap (·.names)).Nodup
  blocks_scoped : ∀ b ∈ s.blocks, b.Scoped
  ordered : Ordered [] s.ctes
  known : ∀ src ∈ s.block.sources, src.Known (s.ctes.map (·.name))

end Statement

theorem TermsScoped.mono {seen seen' : List String} {ts : List Term} (hs : seen ⊆ seen')
    (h : TermsScoped seen ts) : TermsScoped seen' ts := by
  induction ts generalizing seen seen' with
  | nil => trivial
  | cons t ts ih =>
    have hs' := List.cons_subset_cons t.name hs
    exact ⟨fun u hu => hs' (h.1 u hu), ih hs' h.2⟩

theorem TermsScoped.append {seen : List String} {ts ts' : List Term} (h : TermsScoped seen ts)
    (h' : TermsScoped seen ts') : TermsScoped seen (ts ++ ts') := by
  induction ts generalizing seen with
  | nil => exact h'
  | cons t ts ih => exact ⟨h.1, ih h.2 (h'.mono (List.subset_cons_self _ _))⟩

theorem Source.Known.mono {ctes ctes' : List CteName} {src : Source} (hs : ctes ⊆ ctes')
    (h : src.Known ctes) : src.Known ctes' := by
  cases src with
  | table => exact h
  | cte => exact hs h

theorem Cte.Draws.mono {c : Cte} {earlier earlier' : List CteName} (hs : earlier ⊆ earlier')
    (h : c.Draws earlier) : c.Draws earlier' := by
  unfold Draws at h ⊢
  split at h
  · exact fun src hm => (h src hm).mono hs
  · exact ⟨fun src hm => (h.1 src hm).mono hs, h.2.1, fun src hm hn => (h.2.2 src hm hn).mono hs⟩

theorem Ordered.mono {earlier earlier' : List CteName} {cs : List Cte} (hs : earlier ⊆ earlier')
    (h : Ordered earlier cs) : Ordered earlier' cs := by
  induction cs generalizing earlier earlier' with
  | nil => trivial
  | cons c cs ih =>
    refine ⟨h.1.mono hs, ih (List.append_subset.2 ⟨?_, List.subset_append_right _ _⟩) h.2⟩
    exact List.subset_append_of_subset_left _ hs

theorem ordered_append {earlier : List CteName} {cs cs' : List Cte} :
    Ordered earlier (cs ++ cs') ↔
      Ordered earlier cs ∧ Ordered (earlier ++ cs.map (·.name)) cs' := by
  induction cs generalizing earlier with
  | nil => simp [Ordered]
  | cons c cs ih => simp [Ordered, ih, and_assoc]

end Lexiquery
