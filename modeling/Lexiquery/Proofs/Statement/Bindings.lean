import Mathlib.Data.List.Forall2
import Mathlib.Data.List.Perm.Basic
import Lexiquery.Proofs.Statement.Wording

/-! Which value is bound to which placeholder. The placeholders of a statement are the comparisons
of its expressions, in their order, and those of its main condition; so the tests of a filter are
bound in two runs, of which the first holds what was hoisted. -/

namespace Lexiquery

/-- The placeholders of a text, each behind its column and operator, and all that lies between them
is free of their mark. -/
inductive Fills : String → List Placeholder → Prop
  | plain {s : String} : Spelled (· ≠ '?') s → Fills s []
  | cons {s t : String} {q : Placeholder} {qs : List Placeholder} : Spelled (· ≠ '?') s →
    Spelled (· ≠ '?') q.column.text → Fills t qs → Fills (s ++ (q.text ++ t)) (q :: qs)

theorem Fills.before {s t : String} {qs : List Placeholder} (hs : Spelled (· ≠ '?') s)
    (h : Fills t qs) : Fills (s ++ t) qs := by
  cases h with
  | plain ht => exact .plain (spelled_append.2 ⟨hs, ht⟩)
  | cons ht hq h =>
    rw [← String.append_assoc]
    exact .cons (spelled_append.2 ⟨hs, ht⟩) hq h

theorem reads_fills : Reads (· ≠ '?') Fills where
  ordinary _ _ hc := hc
  plain := .plain
  whereKeyword := .plain (by simp [Spelled])
  placeholder {q} hq := by
    simpa using Fills.cons (s := "") (t := "") (by simp [Spelled]) hq (.plain (by simp [Spelled]))
  append hs ht := by
    induction hs with
    | plain hs => exact ht.before hs
    | cons hs hq _ ih =>
      rw [String.append_assoc, String.append_assoc]
      exact .cons hs hq ih

theorem count_eq_zero_of_spelled {s : String} (hs : Spelled (· ≠ '?') s) :
    s.toList.count '?' = 0 :=
  List.count_eq_zero.2 fun h => hs _ h rfl

theorem Fills.count_eq {s : String} {qs : List Placeholder} (h : Fills s qs) :
    s.toList.count '?' = qs.length := by
  induction h with
  | plain hs => exact count_eq_zero_of_spelled hs
  | @cons s t q qs hs hq _ ih =>
    have op : q.op.text.toList.count '?' = 0 := by cases q.op <;> decide
    simp [Placeholder.text, toString, count_eq_zero_of_spelled hs, count_eq_zero_of_spelled hq, op,
      ih]

theorem Statement.fills_sql {s : Statement} (hs : s.Worded (· ≠ '?')) :
    Fills s.sql s.placeholders := by
  rw [sql_eq, withText]
  split
  · rename_i he
    have : s.ctes = [] := by simpa using he
    simpa [placeholders, this] using reads_fills.selectText hs
  · refine reads_fills.append (reads_fills.behind (reads_fills.before ?_ (reads_fills.ctes hs)) ?_)
      (reads_fills.selectText hs)
    · simp [Spelled, withKeyword]
    · simp [Spelled]

namespace Condition

theorem bindings_eq (c : Condition) : c.bindings = c.placeholders.map (·.value) := by
  have all {cs : List Condition} (h : ∀ c ∈ cs, c.bindings = c.placeholders.map (·.value)) :
      bindingsAll cs = (placeholdersAll cs).map (·.value) := by
    induction cs with
    | nil => rfl
    | cons c cs ih =>
      obtain ⟨hc, hcs⟩ := List.forall_mem_cons.1 h
      rw [bindingsAll, placeholdersAll, List.map_append, hc, ih hcs]
  induction c using induction with
  | group k cs ih => rw [bindings, placeholders, all ih]
  | _ => simp [bindings, placeholders]

theorem placeholders_all (k : Connective) (cs : List Condition) :
    (all k cs).placeholders = cs.flatMap placeholders := by
  by_cases h : cs.all isAlways = true
  · rw [all.eq_def, if_pos h, placeholders, eq_comm, List.flatMap_eq_nil_iff]
    exact fun c hc => placeholders_of_isAlways (List.all_eq_true.1 h c hc)
  · rw [all.eq_def, if_neg h]
    cases k with
    | or => rw [placeholders, placeholdersAll_eq]
    | and =>
      rw [placeholders, placeholdersAll_eq]
      clear h
      induction cs with
      | nil => rfl
      | cons c cs ih =>
        by_cases hc : c.isAlways = true
        · simp [hc, ih, placeholders_of_isAlways hc]
        · simp [hc, ih]

end Condition

theorem Relationship.placeholders_withFixed {r : Relationship} {a : Alias} {c : Condition} :
    (r.withFixed a c).placeholders = c.placeholders := by
  rw [withFixed]
  split
  · rfl
  · simp [Condition.placeholders_all, Condition.placeholders]

theorem Statement.bindings_eq (s : Statement) : s.bindings = s.placeholders.map (·.value) := by
  have ctes (c : Cte) : c.bindings = c.placeholders.map (·.value) := by
    obtain ⟨_, _, body⟩ := c
    cases body <;> exact Condition.bindings_eq _
  simp [bindings, placeholders, Condition.bindings_eq, List.map_flatMap, ctes]

def Test.operator? : Test → Option Operator
  | integer t _ => some t.operator
  | boolean _ => some .equals
  | string t _ => some t.operator
  | null _ => none

def Placeholder.Asks (q : Placeholder) (c : Field × Test) : Prop :=
  q.column.table.source = .table c.1.kind.table ∧ q.column.column = c.1.column ∧
    c.2.operator? = some q.op ∧ c.2.binding? = some q.value

namespace Filter

def values (cs : List (Field × Test)) : List Binding := cs.filterMap (·.2.binding?)

mutual

def bound : Filter → List (Field × Test)
  | empty => []
  | test f t => if t.binding?.isSome then [(f, t)] else []
  | link _ _ condition => condition.bound
  | group _ fs => boundAll fs

def boundAll : List Filter → List (Field × Test)
  | [] => []
  | f :: fs => f.bound ++ boundAll fs

end

mutual

def inlined : Filter → List (Field × Test)
  | empty => []
  | test f t => if t.binding?.isSome then [(f, t)] else []
  | link _ .hasSome condition => condition.inlined
  | link _ _ _ => []
  | group _ fs => inlinedAll fs

def inlinedAll : List Filter → List (Field × Test)
  | [] => []
  | f :: fs => f.inlined ++ inlinedAll fs

end

mutual

/-- Those that stand in an expression. A link that becomes one takes the whole condition along, what
its own expressions hold before what stays. -/
def hoisted : Filter → List (Field × Test)
  | empty | test .. => []
  | link _ .hasSome condition => condition.hoisted
  | link _ _ condition => condition.hoisted ++ condition.inlined
  | group _ fs => hoistedAll fs

def hoistedAll : List Filter → List (Field × Test)
  | [] => []
  | f :: fs => f.hoisted ++ hoistedAll fs

end

theorem boundAll_eq (fs : List Filter) : boundAll fs = fs.flatMap bound := by
  induction fs <;> simp [boundAll, *]

theorem inlinedAll_eq (fs : List Filter) : inlinedAll fs = fs.flatMap inlined := by
  induction fs <;> simp [inlinedAll, *]

theorem hoistedAll_eq (fs : List Filter) : hoistedAll fs = fs.flatMap hoisted := by
  induction fs <;> simp [hoistedAll, *]

theorem hoisted_append_inlined_perm (f : Filter) : (f.hoisted ++ f.inlined).Perm f.bound := by
  induction f using induction with
  | empty => rfl
  | test => rfl
  | link r t condition ih => cases t <;> simpa [hoisted, inlined, bound] using ih
  | group c fs ih =>
    rw [hoisted, inlined, bound, hoistedAll_eq, inlinedAll_eq, boundAll_eq]
    exact (List.flatMap_append_perm _ _ _).trans (List.Perm.flatMap_left _ ih)

end Filter

structure Fragment.Binds (p : Fragment) (hoisted inlined : List (Field × Test)) : Prop where
  ctes : List.Forall₂ Placeholder.Asks (p.ctes.flatMap (·.placeholders)) hoisted
  condition : List.Forall₂ Placeholder.Asks p.condition.placeholders inlined

namespace Fragment

variable {p : Fragment} {hoisted inlined : List (Field × Test)}

theorem Binds.cons {c : Connective} {ps : List Fragment} {hoisted' inlined' : List (Field × Test)}
    (h : p.Binds hoisted inlined) (hs : (all c ps).Binds hoisted' inlined') :
    (all c (p :: ps)).Binds (hoisted ++ hoisted') (inlined ++ inlined') where
  ctes := by
    rw [ctes_all_cons, List.flatMap_append]
    exact List.rel_append h.ctes hs.ctes
  condition := by
    have hc := hs.condition
    simp only [all, Condition.placeholders_all, List.map_cons, List.flatMap_cons] at hc ⊢
    exact List.rel_append h.condition hc

theorem binds_hoist {owner : ColumnRef} {far : Kind} {positive : Bool} {body : CteBody}
    {tables : List Alias} {n : Numbering} (h : p.Binds hoisted inlined)
    (hb : ∀ name column, Cte.placeholders ⟨name, column, body⟩ = p.condition.placeholders) :
    (hoist owner far positive body p.ctes tables n).Binds (hoisted ++ inlined) [] where
  ctes := by
    simp only [hoist, List.flatMap_append, List.flatMap_singleton, hb]
    exact List.rel_append h.ctes h.condition
  condition := by
    cases positive <;> exact .nil

end Fragment

namespace Filter

theorem binds_lowerAll {fs : List Filter} {a : Alias} {n : Numbering} {c : Connective}
    (h : ∀ f ∈ fs, ∀ n, (f.lower a n).Binds f.hoisted f.inlined) :
    (Fragment.all c (lowerAll fs a n)).Binds (hoistedAll fs) (inlinedAll fs) := by
  induction fs generalizing n with
  | nil => exact ⟨.nil, .nil⟩
  | cons f fs ih =>
    obtain ⟨hf, hfs⟩ := List.forall_mem_cons.1 h
    exact (hf n).cons (ih hfs)

theorem eq_or_eq_of_passage {r : Relationship} {t : LinkTest}
    (ha : (Comparison.link t).accepts r = true)
    (h : ¬ ∃ table near far, r.passage t = .closure table near far) :
    t = .hasSome ∨ t = .hasNone := by
  -- a hierarchical comparison is accepted by hierarchical relationships only, along a closure
  have ht := mt (fun ht => Relationship.exists_closure ht (isHierarchical_of_accepts ha ht)) h
  cases t with
  | hasSome => exact .inl rfl
  | hasNone => exact .inr rfl
  | reachesSome | reachesNone => exact absurd rfl ht

theorem binds_lower {f : Filter} {k : Kind} (hk : f.Belongs k) (hw : f.WellFormed) {m : Nat}
    {n : Numbering} : (f.lower ⟨.table k.table, m⟩ n).Binds f.hoisted f.inlined := by
  induction f using induction generalizing k m n with
  | empty => exact ⟨.nil, .nil⟩
  | test f t =>
    obtain rfl := belongs_test_iff.1 hk
    refine ⟨.nil, ?_⟩
    cases t with
    | null => exact .nil
    | integer | boolean | string => exact .cons ⟨rfl, rfl, rfl, rfl⟩ .nil
  | link r t condition ih =>
    obtain ⟨rfl, hkc⟩ := belongs_link_iff.1 hk
    obtain ⟨ha, hwc⟩ := wellFormed_link.1 hw
    rw [lower]
    cases hp : r.passage t with
    | key =>
      obtain rfl | rfl := eq_or_eq_of_passage ha (by simp [hp])
      · exact ⟨(ih hkc hwc).ctes, (ih hkc hwc).condition⟩
      · exact Fragment.binds_hoist (ih hkc hwc) fun _ _ => Relationship.placeholders_withFixed
    | association assoc =>
      obtain rfl | rfl := eq_or_eq_of_passage ha (by simp [hp])
      · exact ⟨(ih hkc hwc).ctes, (ih hkc hwc).condition⟩
      · exact Fragment.binds_hoist (ih hkc hwc) fun _ _ => Relationship.placeholders_withFixed
    | closure table near far =>
      have ht := Relationship.isTransitive_of_closure hp
      cases t with
      | hasSome | hasNone => cases ht
      | reachesSome | reachesNone => exact Fragment.binds_hoist (ih hkc hwc) fun _ _ => rfl
  | group c fs ih =>
    rw [hoisted, inlined]
    exact binds_lowerAll fun f hf n =>
      ih f hf (belongs_group_iff.1 hk f hf) (wellFormed_group.1 hw f hf)

theorem bound_of_ctes_eq_nil {f : Filter} (hw : f.WellFormed) {a : Alias} {n : Numbering}
    (h : (f.lower a n).ctes = []) : f.hoisted = [] ∧ f.inlined = f.bound := by
  induction f using induction generalizing a n with
  | empty => exact ⟨rfl, rfl⟩
  | test => exact ⟨rfl, rfl⟩
  | link r t condition ih =>
    obtain ⟨ha, hwc⟩ := wellFormed_link.1 hw
    -- whatever is hoisted ends with an expression of its own
    have concat {cs : List Cte} {c : Cte} : cs ++ [c] ≠ [] := by simp
    rw [lower] at h
    cases hp : r.passage t with
    | key =>
      rw [hp] at h
      obtain rfl | rfl := eq_or_eq_of_passage ha (by simp [hp])
      · exact ih hwc h
      · exact absurd h concat
    | association assoc =>
      rw [hp] at h
      obtain rfl | rfl := eq_or_eq_of_passage ha (by simp [hp])
      · exact ih hwc h
      · exact absurd h concat
    | closure table near far =>
      rw [hp] at h
      exact absurd h concat
  | group c fs ih =>
    suffices hs : ∀ f ∈ fs, f.hoisted = [] ∧ f.inlined = f.bound by
      rw [hoisted, inlined, bound, hoistedAll_eq, inlinedAll_eq, boundAll_eq]
      exact ⟨List.flatMap_eq_nil_iff.2 fun f hf => (hs f hf).1,
        List.flatMap_congr fun f hf => (hs f hf).2⟩
    intro f hf
    obtain ⟨n', hm⟩ := @exists_mem_lowerAll fs a n f hf
    exact ih f hf (wellFormed_group.1 hw f hf) (List.flatMap_eq_nil_iff.1 h _ hm)

end Filter

theorem Placeholder.map_value {qs : List Placeholder} {cs : List (Field × Test)}
    (h : List.Forall₂ Asks qs cs) : qs.map (·.value) = Filter.values cs := by
  induction h with
  | nil => rfl
  | cons hq _ ih => simp [Filter.values, hq.2.2.2, ih]

namespace Statement

theorem asks_ofFilter {f : Filter} {k : Kind} (hk : f.Belongs k) (hw : f.WellFormed)
    (columns : List String) (order : Order) (limit : Option UInt32) :
    List.Forall₂ Placeholder.Asks (ofFilter k columns f order limit).placeholders
      (f.hoisted ++ f.inlined) :=
  have binds := Filter.binds_lower hk hw
  List.rel_append binds.ctes binds.condition

/-- A filter is compiled to a text that has one placeholder for each value. They stand behind the
comparisons to which the values belong: first those that are hoisted, then those that are not. -/
theorem compile_fills {f : Filter} (hw : f.WellFormed) (hf : f.Worded (· ≠ '?')) {k : Kind}
    {columns : List String} (hc : ∀ c ∈ columns, '?' ∉ c.toList) {order : Order}
    (ho : order.validate k = .ok ()) (hd : ∀ g d, order = .by g d → '?' ∉ g.column.toList)
    (limit : Option UInt32) :
    ∃ s, compile k columns (f.resolve k) order limit = .ok s ∧
      Fills s.sql s.placeholders ∧
      s.sql.toList.count '?' = s.bindings.length ∧
      s.bindings = s.placeholders.map (·.value) ∧
      List.Forall₂ Placeholder.Asks s.placeholders
        ((f.resolve k).hoisted ++ (f.resolve k).inlined) ∧
      s.bindings = Filter.values (f.resolve k).hoisted ++ Filter.values (f.resolve k).inlined ∧
      s.bindings.Perm (Filter.values (f.resolve k).bound) ∧
      (s.ctes = [] → s.bindings = Filter.values (f.resolve k).bound) := by
  have hk := (f.normal_resolve k).belongs
  have hg := hw.resolve k
  have worded : (ofFilter k columns (f.resolve k) order limit).Worded (· ≠ '?') :=
    worded_ofFilter reads_fills.ordinary hk (hf.resolve reads_fills.ordinary k)
      (fun c hm d hd he => hc c hm (he ▸ hd)) fun g d hg c hc he => hd g d hg (he ▸ hc)
  have fills := fills_sql worded
  have asks := asks_ofFilter hk hg columns order limit
  have values := (bindings_eq _).trans (Placeholder.map_value asks)
  refine ⟨_, compile_resolve ho f, fills, ?_, bindings_eq _, asks, ?_, ?_, fun he => ?_⟩
  · rw [fills.count_eq, bindings_eq, List.length_map]
  · rw [values, Filter.values, List.filterMap_append]
    rfl
  · rw [values]
    exact (Filter.hoisted_append_inlined_perm _).filterMap _
  · obtain ⟨hh, hi⟩ := Filter.bound_of_ctes_eq_nil hg he
    rw [values, hh, hi, List.nil_append]

/-- The values of what is hoisted come before one that stands to their left. -/
theorem sample_compile_fills : ∃ s, compile .word Kind.word.columns
      ((Filter.group .and [.test Schema.Word.tagCount (.integer .greaterThan 3),
        .link Schema.Word.synonyms .hasNone (.test Schema.Word.id (.integer .equals 2)),
        .link Schema.Word.notions .hasSome (.link Schema.Notion.fullHypernyms .reachesSome
          (.test Schema.Notion.id (.integer .equals 1)))]).resolve .word) .random none = .ok s ∧
    Fills s.sql s.placeholders ∧ s.sql.toList.count '?' = 3 ∧
    s.bindings = [.integer 2, .integer 1, .integer 3] := by
  let f : Filter := .group .and [.test Schema.Word.tagCount (.integer .greaterThan 3),
    .link Schema.Word.synonyms .hasNone (.test Schema.Word.id (.integer .equals 2)),
    .link Schema.Word.notions .hasSome (.link Schema.Notion.fullHypernyms .reachesSome
      (.test Schema.Notion.id (.integer .equals 1)))]
  have hw : f.WellFormed := .group (by
    simpa using ⟨.test rfl, .link rfl (.test rfl), .link rfl (.link rfl (.test rfl))⟩)
  have declares (name : String) {g : Field} : Schema.catalogue.lookup name = some g →
      Schema.Declares g := Schema.declares_of_lookup
  have hf : f.OverSchema := .group (by
    simpa using ⟨declares "word.TAG_COUNT" rfl,
      ⟨declares "word.SYNONYMS" rfl, declares "word.ID" rfl⟩, declares "word.NOTIONS" rfl,
      declares "notion.FULL_HYPERNYMS" rfl, declares "notion.ID" rfl⟩)
  have hc : ∀ c ∈ Kind.word.columns, '?' ∉ c.toList := by decide
  have ho : Order.random.validate .word = .ok () := rfl
  obtain ⟨s, h, fills, count, -, -, values, -⟩ := compile_fills hw
    (hf.worded reads_fills.ordinary) hc ho (fun _ _ ho => by cases ho) none
  have hb : s.bindings = [.integer 2, .integer 1, .integer 3] := values.trans rfl
  exact ⟨s, h, fills, count.trans (congrArg List.length hb), hb⟩

end Statement

end Lexiquery
