import Lexiquery.Proofs.Filter.Alternatives

/-! Several links that ask the same of the same related rows, put together so that all of them merge
into one. What it asks is that one of the conditions holds, and of these only such as say something
count. -/

namespace Lexiquery

/-- The connective under which links that ask this merge without loss: some related row satisfies
one of the conditions, or none does. -/
def LinkTest.gatherer (t : LinkTest) : Connective := if t.isPositive then .or else .and

def LinkTest.Gathers (t : LinkTest) (fs : List Filter) (p : Filter → Prop) : Prop :=
  if t.isPositive then ∃ f ∈ fs, p f else ∀ f ∈ fs, p f

theorem LinkTest.mergesUnder_gatherer (t : LinkTest) : t.mergesUnder t.gatherer = true := by
  cases t <;> rfl

theorem LinkTest.within_gatherer (t : LinkTest) : t.within t.gatherer = .or := by
  cases t <;> rfl

theorem LinkTest.Gathers.congr {t : LinkTest} {fs : List Filter} {p q : Filter → Prop}
    (h : ∀ f ∈ fs, (p f ↔ q f)) : t.Gathers fs p ↔ t.Gathers fs q := by
  rw [Gathers, Gathers]
  split
  · exact exists_congr fun f => and_congr_right (h f)
  · exact forall₂_congr h

theorem Relationship.asks_gathers {store : Store} {r : Relationship} {t : LinkTest} {x : Row}
    {fs : List Filter} {P : Filter → Row → Prop} :
    r.Asks store t (fun y => ∃ f ∈ fs, P f y) x ↔ t.Gathers fs fun f => r.Asks store t (P f) x := by
  have some_congr {R : Row → Prop} :
      (∃ y, R y ∧ ∃ f ∈ fs, P f y) ↔ ∃ f ∈ fs, ∃ y, R y ∧ P f y :=
    ⟨fun ⟨y, hr, f, hf, hp⟩ => ⟨f, hf, y, hr, hp⟩, fun ⟨f, hf, y, hr, hp⟩ => ⟨y, hr, f, hf, hp⟩⟩
  cases t with
  | hasSome | reachesSome => exact some_congr
  | hasNone | reachesNone =>
    refine (not_congr some_congr).trans ?_
    simp [LinkTest.Gathers, LinkTest.isPositive, Asks]

namespace Filter

inductive Scalar (k : Kind) : Filter → Prop
  | empty : Scalar k empty
  | test {f : Field} {t : Test} : f.kind = k → Scalar k (test f t)
  | group {c : Connective} {fs : List Filter} : (∀ f ∈ fs, Scalar k f) → Scalar k (group c fs)

namespace Scalar

variable {k : Kind} {f : Filter}

theorem ne_link (h : f.Scalar k) (r : Relationship) (t : LinkTest) (condition : Filter) :
    f ≠ link r t condition := by
  rintro rfl
  cases h

theorem normal (h : f.Scalar k) : f.Normal k := by
  induction h with
  | empty => exact .empty
  | test h => exact h ▸ .test
  | @group c fs h ih =>
    refine .group ih (List.pairwise_of_forall_mem_list fun f hf g _ => ?_)
    rintro ⟨r, _, t, condition, _, rfl, -⟩
    exact (h _ hf).ne_link r t condition rfl

theorem compact (h : f.Scalar k) : f.compact.Scalar k := by
  induction h with
  | empty => exact .empty
  | test h => exact .test h
  | @group c fs _ ih =>
    by_cases hne : compactAll fs = []
    · rw [Filter.compact, hne]
      exact .empty
    · rw [compact_group_of_ne hne]
      exact .group ((forall_mem_compactAll .empty).2 ih)

theorem unjoined (h : f.Scalar k) : f.Unjoined := by
  induction h with
  | empty => exact .empty
  | test => exact .test
  | group _ ih => exact .group ih

theorem resolve_eq (h : f.Scalar k) : f.resolve k = f.compact := by
  rw [resolve, h.normal.normalize_eq]

end Scalar

/-- The filters that say something, or all of them if none does. -/
def telling (fs : List Filter) : List Filter :=
  if ∀ f ∈ fs, f.Vanishes then fs else fs.filter fun f => ¬ f.Vanishes

theorem telling_subset {fs : List Filter} : telling fs ⊆ fs := by
  rw [telling]
  split
  · exact List.Subset.refl fs
  · exact List.filter_subset_self fs

theorem telling_eq_self {fs : List Filter}
    (h : (∀ f ∈ fs, f.Vanishes) ∨ ∀ f ∈ fs, ¬ f.Vanishes) : telling fs = fs := by
  rw [telling]
  split
  · rfl
  · rename_i hv
    exact List.filter_eq_self.2 (by simpa using h.resolve_left hv)

theorem telling_ne_nil {fs : List Filter} (h : fs ≠ []) : telling fs ≠ [] := by
  rw [telling]
  split
  · exact h
  · rename_i hv
    simpa [List.filter_eq_nil_iff] using hv

theorem yields_or_telling {store : Store} {x : Row} {k : Kind} {fs : List Filter} (hne : fs ≠ [])
    (h : ∀ f ∈ fs, f.Scalar k) : (group .or fs).compact.Yields store x true ↔
      ∃ f ∈ telling fs, f.compact.Yields store x true := by
  have joins : ∀ f ∈ fs, f.compact.Joins store x := fun f hf => (h f hf).compact.unjoined.joins
  rw [yields_compact_or, and_iff_right joins, telling]
  split
  · rename_i hv
    obtain ⟨f, hf⟩ := List.exists_mem_of_ne_nil fs hne
    refine iff_of_true (.inl hv) ⟨f, hf, ?_⟩
    rw [show f.compact = empty from hv f hf, Yields]
  · rename_i hv
    rw [or_iff_right hv]
    simp [and_assoc]

variable {r : Relationship} {t : LinkTest} {first : Filter} {rest : List Filter}

def gather (r : Relationship) (t : LinkTest) (first : Filter) (rest : List Filter) : Filter :=
  rest.foldl (fun f condition => combine t.gatherer f (link r t condition)) (link r t first)

theorem gather_cons (second : Filter) :
    gather r t first (second :: rest) =
      group t.gatherer ((first :: second :: rest).map (link r t)) := by
  have concat (fs : List Filter) : rest.foldl (fun f condition =>
      combine t.gatherer f (link r t condition)) (group t.gatherer fs) =
        group t.gatherer (fs ++ rest.map (link r t)) := by
    induction rest generalizing fs with
    | nil => simp
    | cons f rest ih =>
      rw [List.foldl_cons, combine, if_pos rfl, ih, List.map_cons, ← List.append_cons]
  exact concat [link r t first, link r t second]

theorem mergeSiblings_links {c : Connective} (ht : t.mergesUnder c = true) {second : Filter}
    (h : ∀ f ∈ second :: rest, ∀ s u condition, f ≠ link s u condition) :
    mergeSiblings c ((first :: second :: rest).map (link r t)) =
      [link r t (group (t.within c) (first :: second :: rest))] := by
  have concat (conditions : List Filter) (fs : List Filter)
      (h : ∀ f ∈ fs, ∀ s u condition, f ≠ link s u condition) :
      (fs.map (link r t)).foldl (fun ss f => Sibling.insert f c ss)
        [.merged r t (t.within c) (conditions.map .single)] =
          [.merged r t (t.within c) ((conditions ++ fs).map .single)] := by
    induction fs generalizing conditions with
    | nil => simp
    | cons f fs ih =>
      obtain ⟨hf, hfs⟩ := List.forall_mem_cons.1 h
      rw [List.map_cons, List.foldl_cons, Sibling.insert_link_merged ht,
        Sibling.insert_of_ne_link hf]
      have := ih (conditions ++ [f]) hfs
      simpa using this
  obtain ⟨hs, hrest⟩ := List.forall_mem_cons.1 h
  rw [mergeSiblings, List.map_cons, List.map_cons, List.foldl_cons, List.foldl_cons,
    Sibling.insert_nil, Sibling.insert_link_single ht, Sibling.insert_of_ne_link hs]
  refine (congrArg Sibling.toFilters (concat [first, second] rest hrest)).trans ?_
  simp [Sibling.toFilters_eq, Sibling.toFilter, Function.comp_def]

theorem yields_gather {store : Store} {x : Row} (h : ∀ f ∈ first :: rest, f.Scalar r.far) :
    ((gather r t first rest).resolve r.kind).Yields store x true ↔
      t.Gathers (telling (first :: rest)) fun f =>
        ((link r t f).resolve r.kind).Yields store x true := by
  have hlink : ∀ f ∈ first :: rest, ((link r t f).resolve r.kind).Yields store x true ↔
      r.Asks store t (f.compact.Yields store · true) x := fun f hf => by
    rw [resolve_link, (h f hf).resolve_eq, yields_link]
  have merged : ((gather r t first rest).resolve r.kind).Yields store x true ↔
      r.Asks store t ((group .or (first :: rest)).compact.Yields store · true) x := by
    cases rest with
    | nil =>
      exact (hlink first (by simp)).trans (Relationship.asks_congr fun y _ =>
        yields_compact_singleton.symm)
    | cons second rest =>
      have normal : ∀ f ∈ (first :: second :: rest).map (link r t), f.normalize r.kind = f :=
        List.forall_mem_map.2 fun f hf => (Normal.link (h f hf).normal).normalize_eq
      rw [gather_cons, resolve, normalize, normalizeAll_eq, List.map_congr_left normal,
        List.map_id', mergeSiblings_links t.mergesUnder_gatherer
          fun f hf => (h f (by simp [hf])).ne_link,
        yields_compact_singleton, compact, yields_link, t.within_gatherer]
  rw [merged, LinkTest.Gathers.congr fun f hf => hlink f (telling_subset hf),
    ← Relationship.asks_gathers]
  exact Relationship.asks_congr fun y _ => yields_or_telling (by simp) h

end Filter

end Lexiquery
