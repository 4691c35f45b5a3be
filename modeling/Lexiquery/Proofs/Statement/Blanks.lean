import Lexiquery.Proofs.Statement.Bindings
import Lexiquery.Proofs.Statement.Values

/-! Filters that differ in their values alone. They compile to one text, and what is bound to a
placeholder of it comes, in each of them, from the test at the same place. -/

namespace Lexiquery

def Test.blank : Test → Test
  | integer t _ => integer t 0
  | boolean _ => boolean false
  | string t _ => string t ""
  | null t => null t

def Binding.blank : Binding → Binding
  | integer _ => integer 0
  | string _ => string ""

theorem Test.condition_blank (t : Test) (r : ColumnRef) :
    t.blank.condition r = (t.condition r).mapValues Binding.blank := by
  cases t <;> rfl

theorem Binding.kind_blank (b : Binding) : b.blank.kind = b.kind := by
  cases b <;> rfl

theorem Test.isSome_blank (t : Test) : t.blank.binding?.isSome = t.binding?.isSome := by
  cases t <;> rfl

theorem Test.blank_of_isSome_eq_false {t : Test} (h : t.binding?.isSome = false) :
    t.blank = t := by
  cases t with
  | null => rfl
  | integer | boolean | string => cases h

namespace Filter

/-- The filter without its values: its tree, its fields, its comparisons and the types of the values
that they take. -/
def blank (f : Filter) : Filter := f.mapTests Test.blank

section

variable {m : Test → Test} (hm : ∀ t, (m t).binding?.isSome = t.binding?.isSome)
include hm

theorem bound_mapTests (f : Filter) : (f.mapTests m).bound = f.bound.map (Prod.map id m) := by
  induction f using induction with
  | empty => rfl
  | test f t => by_cases h : t.binding?.isSome <;> simp [mapTests, bound, hm, h]
  | link r t condition ih => exact ih
  | group c fs ih =>
    rw [mapTests, bound, bound, mapTestsAll_eq, boundAll_eq, boundAll_eq, List.flatMap_map,
      List.map_flatMap]
    exact List.flatMap_congr ih

theorem inlined_mapTests (f : Filter) : (f.mapTests m).inlined = f.inlined.map (Prod.map id m) := by
  induction f using induction with
  | empty => rfl
  | test f t => by_cases h : t.binding?.isSome <;> simp [mapTests, inlined, hm, h]
  | link r t condition ih => cases t <;> simp [mapTests, inlined, ih]
  | group c fs ih =>
    rw [mapTests, inlined, inlined, mapTestsAll_eq, inlinedAll_eq, inlinedAll_eq, List.flatMap_map,
      List.map_flatMap]
    exact List.flatMap_congr ih

theorem hoisted_mapTests (f : Filter) : (f.mapTests m).hoisted = f.hoisted.map (Prod.map id m) := by
  induction f using induction with
  | empty => rfl
  | test => rfl
  | link r t condition ih => cases t <;> simp [mapTests, hoisted, ih, inlined_mapTests hm]
  | group c fs ih =>
    rw [mapTests, hoisted, hoisted, mapTestsAll_eq, hoistedAll_eq, hoistedAll_eq, List.flatMap_map,
      List.map_flatMap]
    exact List.flatMap_congr ih

end

theorem bound_insert_perm {f : Filter} {c : Connective} {ss : List Sibling}
    (hu : ∀ s ∈ ss, s.Under c) : ((Sibling.insert f c ss).flatMap (·.toFilter.bound)).Perm
      (ss.flatMap (·.toFilter.bound) ++ f.bound) := by
  have middle {α : Type} {b x y a z : List α} (h : x.Perm (y ++ z)) :
      (b ++ (x ++ a)).Perm ((b ++ (y ++ a)) ++ z) := by
    refine ((h.append_right a).append_left b).trans ?_
    simpa using List.perm_append_comm.append_left y |>.append_left b
  refine Sibling.insert_induction (motive := fun f _ ss ss' =>
    (ss'.flatMap (·.toFilter.bound)).Perm (ss.flatMap (·.toFilter.bound) ++ f.bound))
    ?_ ?_ ?_ f c ss hu
  · intro f c ss _
    simp [Sibling.toFilter]
  · intro r s t condition first c before after _ _ _ ih
    simp only [List.flatMap_append, List.flatMap_cons, Sibling.toFilter, Sibling.toFilters_eq,
      bound, boundAll_eq, List.flatMap_map]
    exact middle (by simpa [Sibling.toFilter] using ih)
  · intro r s t condition conditions c before after _ _ _ ih
    simp only [List.flatMap_append, List.flatMap_cons, Sibling.toFilter, Sibling.toFilters_eq,
      bound, boundAll_eq, List.flatMap_map]
    exact middle ih

theorem bound_mergeSiblings_perm (c : Connective) (fs : List Filter) :
    ((mergeSiblings c fs).flatMap bound).Perm (fs.flatMap bound) := by
  obtain ⟨ss, hss, hm⟩ := mergeSiblings_induction (c := c)
    (motive := fun fs ss => (ss.flatMap (·.toFilter.bound)).Perm (fs.flatMap bound))
    (by simp) (fun f fs ss hu ih => by
      simpa using (bound_insert_perm hu).trans (ih.append_right f.bound)) fs
  rwa [hss, List.flatMap_map]

theorem bound_along (hops : List Relationship) (f : Filter) : (along hops f).bound = f.bound := by
  induction hops with
  | nil => rfl
  | cons r hops ih => exact ih

theorem bound_normalize_perm (f : Filter) (k : Kind) : (f.normalize k).bound.Perm f.bound := by
  induction f using induction generalizing k with
  | empty => rfl
  | test f t => rw [normalize, bound_along]
  | link r t condition ih =>
    rw [normalize, bound_along]
    exact ih r.far
  | group c fs ih =>
    rw [normalize, bound, bound, boundAll_eq, boundAll_eq, normalizeAll_eq]
    refine (bound_mergeSiblings_perm c _).trans ?_
    rw [List.flatMap_map]
    exact List.Perm.flatMap_left _ fun f hf => ih f hf k

theorem bound_compact (f : Filter) : f.compact.bound = f.bound := by
  induction f using induction with
  | empty => rfl
  | test => rfl
  | link r t condition ih => exact ih
  | group c fs ih =>
    have all : boundAll (compactAll fs) = boundAll fs := by
      clear c
      induction fs with
      | nil => rfl
      | cons f fs ihs =>
        obtain ⟨hf, hfs⟩ := List.forall_mem_cons.1 ih
        rw [compactAll, boundAll, ← hf, ← ihs hfs]
        split
        · rename_i he
          rw [isEmpty_iff.1 he, bound, List.nil_append]
        · rw [boundAll]
    rw [bound, ← all, compact]
    cases compactAll fs <;> rfl

theorem bound_resolve_perm (f : Filter) (k : Kind) : (f.resolve k).bound.Perm f.bound := by
  rw [resolve, bound_compact]
  exact bound_normalize_perm f k

end Filter

/-- A test that stands for the one with this number. -/
def Test.numbered (n : Nat) : Test := .string .equals (String.ofList (List.replicate n '?'))

def Test.fill (ts : List Test) : Test → Test
  | string .equals s => ts[s.length]?.getD (string .equals s)
  | t => t

namespace Filter

mutual

/-- The filter with its tests numbered from left to right, which tells apart tests that are
equal. -/
def numbered : Filter → Nat → Filter
  | empty, _ => empty
  | test f t, n => test f (if t.binding?.isSome then .numbered n else t)
  | link r t condition, n => link r t (condition.numbered n)
  | group c fs, n => group c (numberedAll fs n)

def numberedAll : List Filter → Nat → List Filter
  | [], _ => []
  | f :: fs, n => f.numbered n :: numberedAll fs (n + f.bound.length)

end

theorem fill_numbered (f : Filter) (before after : List Test) :
    (f.numbered before.length).mapTests (Test.fill (before ++ f.bound.map (·.2) ++ after)) = f := by
  induction f using induction generalizing before after with
  | empty => rfl
  | test f t =>
    by_cases h : t.binding?.isSome
    · simp [numbered, mapTests, bound, h, Test.fill, Test.numbered]
    · cases t with
      | null => rfl
      | integer | boolean | string => exact absurd rfl h
  | link r t condition ih => exact congrArg (link r t) (ih before after)
  | group c fs ih =>
    have all (before : List Test) : mapTestsAll
        (Test.fill (before ++ (boundAll fs).map (·.2) ++ after)) (numberedAll fs before.length) =
          fs := by
      clear c
      induction fs generalizing before with
      | nil => rfl
      | cons f fs ihs =>
        obtain ⟨hf, hfs⟩ := List.forall_mem_cons.1 ih
        have hf := hf before ((boundAll fs).map (·.2) ++ after)
        have hfs := ihs hfs (before ++ f.bound.map (·.2))
        simp only [List.length_append, List.length_map, List.append_assoc] at hf hfs
        simp only [boundAll, numberedAll, mapTestsAll, List.map_append, List.append_assoc, hf, hfs]
    exact congrArg (group c) (all before)

theorem numbered_blank (f : Filter) (n : Nat) : f.blank.numbered n = f.numbered n := by
  induction f using induction generalizing n with
  | empty => rfl
  | test f t =>
    by_cases h : t.binding?.isSome
    · simp [blank, mapTests, numbered, Test.isSome_blank, h]
    · have h : t.binding?.isSome = false := by simpa using h
      rw [blank, mapTests, Test.blank_of_isSome_eq_false h]
  | link r t condition ih => exact congrArg (link r t) (ih n)
  | group c fs ih =>
    have all (n : Nat) : numberedAll (mapTestsAll Test.blank fs) n = numberedAll fs n := by
      clear c
      induction fs generalizing n with
      | nil => rfl
      | cons f fs ihs =>
        obtain ⟨hf, hfs⟩ := List.forall_mem_cons.1 ih
        rw [mapTestsAll, numberedAll, numberedAll, bound_mapTests Test.isSome_blank,
          List.length_map, ihs hfs]
        exact congrArg (· :: _) (hf n)
    exact congrArg (group c) (all n)

theorem wellFormed_blank {f : Filter} : f.blank.WellFormed ↔ f.WellFormed := by
  induction f using induction with
  | empty => rfl
  | test f t =>
    rw [blank, mapTests, wellFormed_iff, wellFormed_iff, every_test, every_test]
    cases t <;> rfl
  | link r t condition ih => rw [blank, mapTests, wellFormed_link, wellFormed_link, ← ih, blank]
  | group c fs ih =>
    rw [blank, mapTests, wellFormed_group, wellFormed_group, mapTestsAll_eq, List.forall_mem_map]
    exact forall₂_congr ih

theorem isSome_of_mem_bound {f : Filter} {c : Field × Test} (h : c ∈ f.bound) :
    c.2.binding?.isSome = true := by
  induction f using induction with
  | empty => cases h
  | test f t =>
    rw [bound] at h
    split at h
    · exact List.mem_singleton.1 h ▸ ‹_›
    · cases h
  | link r t condition ih => exact ih h
  | group c fs ih =>
    rw [bound, boundAll_eq] at h
    obtain ⟨f, hf, h⟩ := List.mem_flatMap.1 h
    exact ih f hf h

def refill (f : Filter) : Test → Test := .fill (f.bound.map (·.2))

theorem isSome_refill (f : Filter) (t : Test) :
    (f.refill t).binding?.isSome = t.binding?.isSome := by
  cases t with
  | string test s =>
    cases test with
    | equals =>
      rw [refill, Test.fill]
      cases h : (f.bound.map (·.2))[s.length]? with
      | none => rfl
      | some t =>
        obtain ⟨c, hc, rfl⟩ := List.mem_map.1 (List.mem_of_getElem? h)
        exact isSome_of_mem_bound hc
    | differs | like | notLike => rfl
  | integer | boolean | null => rfl

theorem mapTests_refill (f : Filter) : (f.numbered 0).mapTests f.refill = f := by
  simpa [refill] using f.fill_numbered [] []

/-- Filters that differ in their values alone are one filter with two lists of tests in it. -/
theorem exists_refill {f f' : Filter} (h : f.blank = f'.blank) :
    ∃ g : Filter, g.mapTests f.refill = f ∧ g.mapTests f'.refill = f' := by
  refine ⟨f.numbered 0, f.mapTests_refill, ?_⟩
  rw [← numbered_blank f, h, numbered_blank, mapTests_refill]

end Filter

namespace Statement

theorem forall_bindings {f : Filter} {k : Kind} (hk : f.Belongs k) (hw : f.WellFormed)
    (columns : List String) (order : Order) (limit : Option UInt32) :
    List.Forall₂ (fun b c => c.2.binding? = some b) (ofFilter k columns f order limit).bindings
      (f.hoisted ++ f.inlined) := by
  rw [bindings_eq, List.forall₂_map_left_iff]
  exact (asks_ofFilter hk hw columns order limit).imp fun _ _ h => h.2.2.2

theorem forall_bindings_refill {f g : Filter} (hg : g.mapTests f.refill = f) (hw : f.WellFormed)
    (k : Kind) (columns : List String) (order : Order) (limit : Option UInt32) :
    List.Forall₂ (fun b c => (f.refill c.2).binding? = some b)
      (ofFilter k columns (f.resolve k) order limit).bindings
      ((g.resolve k).hoisted ++ (g.resolve k).inlined) := by
  have hr : f.resolve k = (g.resolve k).mapTests f.refill := by rw [← Filter.resolve_mapTests, hg]
  have hb := forall_bindings (f.normal_resolve k).belongs (hw.resolve k) columns order limit
  rw [hr] at hb ⊢
  rwa [Filter.hoisted_mapTests f.isSome_refill, Filter.inlined_mapTests f.isSome_refill,
    ← List.map_append, List.forall₂_map_right_iff] at hb

theorem exists_corresponding {f f' : Filter} (hw : f.WellFormed) (h : f.blank = f'.blank)
    (k : Kind) (columns : List String) (order : Order) (limit : Option UInt32) :
    ∃ cs, cs.Perm (f.bound.zip f'.bound) ∧
      List.Forall₂ (fun b c => c.1.2.binding? = some b)
        (ofFilter k columns (f.resolve k) order limit).bindings cs ∧
      List.Forall₂ (fun b c => c.2.2.binding? = some b)
        (ofFilter k columns (f'.resolve k) order limit).bindings cs := by
  obtain ⟨g, hg, hg'⟩ := Filter.exists_refill h
  have hw' : f'.WellFormed := Filter.wellFormed_blank.1 (h ▸ Filter.wellFormed_blank.2 hw)
  refine ⟨((g.resolve k).hoisted ++ (g.resolve k).inlined).map fun c =>
      (c.map id f.refill, c.map id f'.refill), ?_,
    List.forall₂_map_right_iff.2 (forall_bindings_refill hg hw k columns order limit),
    List.forall₂_map_right_iff.2 (forall_bindings_refill hg' hw' k columns order limit)⟩
  have hp := (g.resolve k).hoisted_append_inlined_perm.trans (g.bound_resolve_perm k)
  refine (hp.map _).trans (.of_eq ?_)
  rw [← List.zip_map', ← Filter.bound_mapTests f.isSome_refill, hg,
    ← Filter.bound_mapTests f'.isSome_refill, hg']

theorem ofFilter_eq_of_blank_eq {f f' : Filter} (h : f.blank = f'.blank) (k : Kind)
    (columns : List String) (order : Order) (limit : Option UInt32) :
    (ofFilter k columns (f.resolve k) order limit).mapValues Binding.blank =
      (ofFilter k columns (f'.resolve k) order limit).mapValues Binding.blank := by
  simp only [← ofFilter_mapTests Test.condition_blank, ← Filter.resolve_mapTests]
  exact congrArg (fun g : Filter => ofFilter k columns (g.resolve k) order limit) h

/-- Filters that differ in their values alone compile to statements that differ in their bindings
alone. Those at one place are of the same type, and come from tests at one place of the filters. -/
theorem compile_of_blank_eq {f f' : Filter} (hw : f.WellFormed) (h : f.blank = f'.blank)
    (k : Kind) (columns : List String) (order : Order) (limit : Option UInt32) :
    (∃ e, compile k columns (f.resolve k) order limit = .error e ∧
      compile k columns (f'.resolve k) order limit = .error e) ∨
    ∃ s s', compile k columns (f.resolve k) order limit = .ok s ∧
      compile k columns (f'.resolve k) order limit = .ok s' ∧
      s.sql = s'.sql ∧ s.tables = s'.tables ∧ s.joinCount = s'.joinCount ∧
      s.cteCount = s'.cteCount ∧ s.bindings.map (·.kind) = s'.bindings.map (·.kind) ∧
      ∃ cs, cs.Perm (f.bound.zip f'.bound) ∧
        List.Forall₂ (fun b c => c.1.2.binding? = some b) s.bindings cs ∧
        List.Forall₂ (fun b c => c.2.2.binding? = some b) s'.bindings cs := by
  have blanks := ofFilter_eq_of_blank_eq h k columns order limit
  cases ho : order.validate k with
  | error e =>
    refine .inl ⟨e, ?_, ?_⟩
    · rw [compile, ho]
      rfl
    · rw [compile, ho]
      rfl
  | ok _ =>
    refine .inr ⟨_, _, compile_resolve ho f, compile_resolve ho f', ?_, ?_, ?_, ?_, ?_,
      exists_corresponding hw h k columns order limit⟩
    · rw [← sql_mapValues, blanks, sql_mapValues]
    · exact congrArg (·.tables) blanks
    · rw [← joinCount_mapValues, blanks, joinCount_mapValues]
    · rw [← cteCount_mapValues, blanks, cteCount_mapValues]
    · have kinds := congrArg (fun s => s.bindings.map (·.kind)) blanks
      simpa [bindings_mapValues, Function.comp_def, Binding.kind_blank] using kinds

/-- A value may look like a part of the text. -/
theorem sample_compile_of_blank_eq :
    let f (text : String) (proper : Bool) (id : Int64) : Filter := .group .and
      [.test Schema.Form.text (.string .equals text), .test Schema.Form.proper (.boolean proper),
        .link (Schema.Form.words .base) .hasNone (.test Schema.Word.id (.integer .equals id))]
    ∃ s s', compile .form Kind.form.columns ((f "run" false 1).resolve .form) .random none = .ok s ∧
      compile .form Kind.form.columns ((f "' OR '?' = '?" true (-1)).resolve .form) .random none =
        .ok s' ∧
      s.sql = s'.sql ∧ s.bindings.map (·.kind) = s'.bindings.map (·.kind) := by
  intro f
  have hw : (f "run" false 1).WellFormed := .group (by
    simpa using ⟨.test rfl, .test rfl, .link rfl (.test rfl)⟩)
  have hb : (f "run" false 1).blank = (f "' OR '?' = '?" true (-1)).blank := rfl
  have ho : Order.random.validate .form = .ok () := rfl
  obtain ⟨e, he, -⟩ | ⟨s, s', hc, hc', hsql, -, -, -, hkinds, -⟩ :=
    compile_of_blank_eq hw hb .form Kind.form.columns .random none
  · rw [compile_resolve ho] at he
    cases he
  · exact ⟨s, s', hc, hc', hsql, hkinds⟩

end Statement

end Lexiquery
