import Lexiquery.Proofs.Filter.Every
import Lexiquery.Proofs.Filter.Meaning

/-! What a filter yields when it is lowered: the truth values that its condition takes over the rows
joined to a record. A link that asks for a related row yields nothing where there is none, and then
neither does the group it stands in. -/

namespace Lexiquery

def Connective.decide : Connective → List Bool → Bool
  | and, bs => bs.all (·)
  | or, bs => bs.isEmpty || bs.any (·)

/-- The truth values of a link, `Y` being those of its condition on the related rows. Only a link
that joins the related rows themselves has as many as they have. -/
def Relationship.Yields (store : Store) (r : Relationship) (t : LinkTest) (Y : Row → Bool → Prop)
    (x : Row) (b : Bool) : Prop :=
  match t with
  | .hasSome => ∃ y, r.Relates store x y ∧ Y y b
  | .reachesSome => b = true ∧ r.Asks store .reachesSome (Y · true) x
  | t => b = true ↔ r.Asks store t (Y · true) x

namespace Relationship

variable {store : Store} {r : Relationship} {t : LinkTest} {Y : Row → Bool → Prop} {x : Row}
  {b : Bool}

theorem yields_of_not_transitive (ht : t.isTransitive = false) : r.Yields store t Y x b ↔
    if t.isPositive then ∃ y, r.Relates store x y ∧ Y y b
    else b = true ↔ ¬ ∃ y, r.Relates store x y ∧ Y y true := by
  cases t with
  | hasSome => rfl
  | hasNone => rfl
  | reachesSome => cases ht
  | reachesNone => cases ht

theorem yields_of_transitive (ht : t.isTransitive = true) : r.Yields store t Y x b ↔
    if t.isPositive then b = true ∧ ∃ y, r.Reaches store x y ∧ Y y true
    else b = true ↔ ¬ ∃ y, r.Reaches store x y ∧ Y y true := by
  cases t with
  | hasSome => cases ht
  | hasNone => cases ht
  | reachesSome => rfl
  | reachesNone => rfl

end Relationship

namespace Filter

variable (store : Store)

mutual

def Yields : Filter → Row → Bool → Prop
  | empty, _, b => b = true
  | test f t, x, b => b = true ↔ t.Holds (store.affinity f.kind.table f.column) (x.get f.column)
  | link r t condition, x, b => r.Yields store t condition.Yields x b
  | group c fs, x, b => ∃ bs, YieldsAll fs x bs ∧ c.decide bs = b

def YieldsAll : List Filter → Row → List Bool → Prop
  | [], _, bs => bs = []
  | f :: fs, x, bs => ∃ b bs', f.Yields x b ∧ YieldsAll fs x bs' ∧ bs = b :: bs'

end

def Joins (f : Filter) (x : Row) : Prop := ∃ b, f.Yields store x b

variable {store} {x : Row}

theorem Yields.joins {f : Filter} {b : Bool} (h : f.Yields store x b) : f.Joins store x := ⟨b, h⟩

theorem yieldsAll_all {fs : List Filter} :
    (∃ bs, YieldsAll store fs x bs ∧ bs.all (·) = true) ↔ ∀ f ∈ fs, f.Yields store x true := by
  induction fs with
  | nil => simp [YieldsAll]
  | cons f fs ih =>
    rw [List.forall_mem_cons, ← ih]
    constructor
    · rintro ⟨_, ⟨b, bs, hf, hfs, rfl⟩, h⟩
      simp only [List.all_cons, Bool.and_eq_true] at h
      exact ⟨h.1 ▸ hf, bs, hfs, h.2⟩
    · rintro ⟨hf, bs, hfs, h⟩
      exact ⟨_, ⟨true, bs, hf, hfs, rfl⟩, by simpa using h⟩

theorem joinsAll {fs : List Filter} :
    (∃ bs, YieldsAll store fs x bs) ↔ ∀ f ∈ fs, f.Joins store x := by
  induction fs with
  | nil => simp [YieldsAll]
  | cons f fs ih =>
    rw [List.forall_mem_cons, ← ih]
    constructor
    · rintro ⟨_, b, bs, hf, hfs, rfl⟩
      exact ⟨⟨b, hf⟩, bs, hfs⟩
    · rintro ⟨⟨b, hf⟩, bs, hfs⟩
      exact ⟨_, b, bs, hf, hfs, rfl⟩

theorem yieldsAll_any {fs : List Filter} :
    (∃ bs, YieldsAll store fs x bs ∧ bs.any (·) = true) ↔
      (∀ f ∈ fs, f.Joins store x) ∧ ∃ f ∈ fs, f.Yields store x true := by
  induction fs with
  | nil => simp [YieldsAll]
  | cons f fs ih =>
    constructor
    · rintro ⟨_, ⟨b, bs, hf, hfs, rfl⟩, h⟩
      refine ⟨List.forall_mem_cons.2 ⟨⟨b, hf⟩, joinsAll.1 ⟨bs, hfs⟩⟩, ?_⟩
      simp only [List.any_cons, Bool.or_eq_true] at h
      obtain h | h := h
      · exact ⟨f, by simp, h ▸ hf⟩
      · obtain ⟨g, hg, hy⟩ := (ih.1 ⟨bs, hfs, h⟩).2
        exact ⟨g, List.mem_cons_of_mem _ hg, hy⟩
    · rintro ⟨hj, g, hg, hy⟩
      obtain ⟨⟨b, hf⟩, hjs⟩ := List.forall_mem_cons.1 hj
      obtain rfl | hg := List.mem_cons.1 hg
      · obtain ⟨bs, hfs⟩ := joinsAll.2 hjs
        exact ⟨_, ⟨true, bs, hy, hfs, rfl⟩, by simp⟩
      · obtain ⟨bs, hfs, h⟩ := ih.2 ⟨hjs, g, hg, hy⟩
        exact ⟨_, ⟨b, bs, hf, hfs, rfl⟩, by simp [h]⟩

theorem yieldsAll_length {fs : List Filter} {bs : List Bool} (h : YieldsAll store fs x bs) :
    bs.length = fs.length := by
  induction fs generalizing bs with
  | nil => exact h ▸ rfl
  | cons f fs ih =>
    obtain ⟨_, bs', -, h, rfl⟩ := h
    simp [ih h]

theorem yields_and {fs : List Filter} :
    (group .and fs).Yields store x true ↔ ∀ f ∈ fs, f.Yields store x true := yieldsAll_all

theorem yields_or {fs : List Filter} (hne : fs ≠ []) : (group .or fs).Yields store x true ↔
    (∀ f ∈ fs, f.Joins store x) ∧ ∃ f ∈ fs, f.Yields store x true := by
  rw [← yieldsAll_any, Yields]
  refine exists_congr fun bs => and_congr_right fun h => ?_
  have : bs ≠ [] := fun hb => hne (List.length_eq_zero_iff.1 (by simp [← yieldsAll_length h, hb]))
  simp [Connective.decide, this]

theorem joins_group {c : Connective} {fs : List Filter} :
    (group c fs).Joins store x ↔ ∀ f ∈ fs, f.Joins store x := by
  rw [← joinsAll]
  constructor
  · rintro ⟨b, bs, h, _⟩
    exact ⟨bs, h⟩
  · rintro ⟨bs, h⟩
    exact ⟨_, bs, h, rfl⟩

theorem yields_link {r : Relationship} {t : LinkTest} {condition : Filter} :
    (link r t condition).Yields store x true ↔
      r.Asks store t (condition.Yields store · true) x := by
  cases t <;> simp [Yields, Relationship.Yields, Relationship.Asks]

theorem joins_test {f : Field} {t : Test} : (test f t).Joins store x := by
  classical
  exact ⟨decide (t.Holds (store.affinity f.kind.table f.column) (x.get f.column)),
    by simp [Yields]⟩

theorem joins_link_of_not_positive {r : Relationship} {t : LinkTest} {condition : Filter}
    (ht : t.isPositive = false) : (link r t condition).Joins store x := by
  classical
  cases t with
  | hasSome => cases ht
  | reachesSome => cases ht
  | hasNone =>
    exact ⟨decide (r.Asks store .hasNone (condition.Yields store · true) x),
      by simp [Yields, Relationship.Yields]⟩
  | reachesNone =>
    exact ⟨decide (r.Asks store .reachesNone (condition.Yields store · true) x),
      by simp [Yields, Relationship.Yields]⟩

end Filter

end Lexiquery
