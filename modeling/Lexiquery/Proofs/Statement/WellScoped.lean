import Mathlib.Data.List.Infix
import Mathlib.Data.List.Perm.Basic
import Lexiquery.Proofs.Statement.Scoping
import Lexiquery.Proofs.Statement.Wording

/-! Compiled statements are well scoped, and their expressions stand under one keyword. -/

namespace Lexiquery

namespace Statement

theorem compile_eq_ok_iff {k : Kind} {columns : List String} {f : Filter} {order : Order}
    {limit : Option UInt32} {s : Statement} : compile k columns f order limit = .ok s ↔
      order.validate k = .ok () ∧ f.foreign? k = none ∧
        ofFilter k columns f.resolveConditions order limit = s := by
  rw [compile]
  rcases order.validate k with e | ⟨⟩
  · simp [bind, Except.bind]
  · cases f.foreign? k with
    | some g => simp [bind, Except.bind, throw, throwThe, MonadExceptOf.throw]
    | none => simp [bind, Except.bind, pure, Except.pure, ofFilter]

end Statement

theorem Cte.names_blocks (c : Cte) :
    c.blocks.flatMap (·.names) = c.body.aliases.map (·.text) ++ c.ownNames := by
  obtain ⟨name, column, body⟩ := c
  cases body <;> simp [blocks, ownNames, CteBody.aliases, Block.names, Select.block, stepBlock,
    Alias.term, Join.term, Function.comp_def]

theorem sublist_ownNames (cs : List Cte) :
    (cs.flatMap (·.ownNames)).Sublist (cs.map (·.name.text)) := by
  induction cs with
  | nil => exact .slnil
  | cons c cs ih =>
    rw [List.flatMap_cons, List.map_cons]
    cases hb : c.body with
    | select => simpa [Cte.ownNames, hb] using ih.cons c.name.text
    | closure => simpa [Cte.ownNames, hb] using ih

namespace Statement

variable {s : Statement}

theorem names_blocks (s : Statement) : (s.blocks.flatMap (·.names)).Perm
    (((s.main :: s.joins.map (·.table)) ++ s.ctes.flatMap (·.body.aliases)).map (·.text) ++
      s.ctes.flatMap (·.ownNames)) := by
  have main : s.block.names = (s.main :: s.joins.map (·.table)).map (·.text) := by
    simp [block, Block.names, Alias.term, Join.term, Function.comp_def]
  have ctes : ((s.ctes.flatMap Cte.blocks).flatMap (·.names)).Perm
      ((s.ctes.flatMap (·.body.aliases)).map (·.text) ++ s.ctes.flatMap (·.ownNames)) := by
    simp only [List.flatMap_assoc, Cte.names_blocks, List.map_flatMap]
    exact (List.flatMap_append_perm _ _ _).symm
  rw [blocks, List.flatMap_append, List.flatMap_singleton, main, List.map_append, List.append_assoc]
  exact List.perm_append_comm.trans (ctes.append_left _)

theorem wellScoped_of_scoped {p : Fragment} (hp : p.Scoped s.main ⟨1, 0⟩)
    (hm : s.main = ⟨.table s.kind.table, 1⟩) (hj : s.joins = p.joins)
    (hc : s.condition = p.condition) (hcs : s.ctes = p.ctes) (ht : s.tables = s.main :: p.tables) :
    s.WellScoped := by
  have sources : ∀ a ∈ s.tables, ∀ name, a.source = .table name → name ∈ Store.tableNames := by
    rw [ht]
    exact List.forall_mem_cons.2
      ⟨by simpa [hm] using s.kind.table_mem_tableNames, hp.sources⟩
  have aliases_numbered : s.tables.map (·.number) = List.range' 1 s.tables.length := by
    simp [ht, hm, hp.aliases_numbered, List.range'_succ]
  have aliases_distinct := nodup_texts (aliases_numbered ▸ List.nodup_range')
  have ctes_numbered : s.ctes.map (·.name.number) = List.range' 1 s.ctes.length := by
    simp [hcs, hp.ctes_numbered]
  have ctes_distinct : (s.ctes.map (·.name.text)).Nodup := by
    have numbers : ((s.ctes.map (·.name)).map (·.number)).Nodup := by
      rw [List.map_map]
      exact ctes_numbered ▸ List.nodup_range'
    simpa [Function.comp_def] using nodup_cteTexts numbers
  have apart : ∀ a ∈ s.tables, ∀ c ∈ s.ctes, a.text ≠ c.name.text :=
    fun a ha c _ => Alias.text_ne (sources a ha) c.name
  have introduced : (s.blocks.flatMap (·.names)).Perm
      (s.tables.map (·.text) ++ s.ctes.flatMap (·.ownNames)) := by
    refine s.names_blocks.trans (List.Perm.append_right _ (List.Perm.map _ ?_))
    rw [hj, hcs, ht]
    exact hp.introduced.cons s.main
  -- left are: nothing is introduced twice, the selects are scoped, the main select draws on what
  -- the expressions before it name
  refine ⟨aliases_numbered, aliases_distinct, ctes_numbered, ctes_distinct, apart, introduced, ?_,
    ?_, hcs ▸ hp.ordered, ?_⟩
  · refine introduced.nodup_iff.2 (List.nodup_append.2
      ⟨aliases_distinct, ctes_distinct.sublist (sublist_ownNames _), fun u hu v hv => ?_⟩)
    obtain ⟨a, ha, rfl⟩ := List.mem_map.1 hu
    obtain ⟨c, hc, rfl⟩ := List.mem_map.1 ((sublist_ownNames _).subset hv)
    exact apart a ha c hc
  · refine List.forall_mem_append.2 ⟨fun b hb => ?_, List.forall_mem_singleton.2 ?_⟩
    · obtain ⟨c, hc, hb⟩ := List.mem_flatMap.1 hb
      exact hp.blocks_scoped c (hcs ▸ hc) b hb
    · have names : s.block.names = p.names s.main := by
        simp [block, Block.names, Alias.term, Join.term, Function.comp_def, Fragment.names, hj]
      have main : s.main.text ∈ p.names s.main := List.mem_cons_self
      refine ⟨⟨by simp [Alias.term], hj ▸ hp.on⟩, ?_⟩
      rw [names, block]
      simp only [List.forall_mem_append, List.forall_mem_singleton]
      refine ⟨⟨⟨?_, List.forall_mem_map.2 (hc ▸ hp.condition 0)⟩, main⟩, ?_⟩
      · simpa [columnRefs] using fun _ _ => main
      · cases s.order <;> simp [main]
  · refine List.forall_mem_cons.2 ⟨?_, List.forall_mem_map.2 (List.forall_mem_map.2 ?_)⟩
    · rw [hm]
      exact s.kind.table_mem_tableNames
    · rw [hj, hcs]
      exact hp.known

end Statement

def occurrences (w s : String) : Nat := s.toList.tails.countP (w.toList.isPrefixOf ·)

theorem occurrences_append {w : String} {l : Char} {ls : List Char} (hw : w.toList = l :: ls)
    {s : String} (hs : Spelled (· ≠ l) s) (t : String) :
    occurrences w (s ++ t) = occurrences w t := by
  simp only [occurrences, String.toList_append]
  generalize t.toList = ds
  rw [Spelled] at hs
  generalize s.toList = cs at hs
  -- the word begins at no character of the first text, so not across the seam either
  induction cs with
  | nil => rfl
  | cons c cs ih =>
    obtain ⟨hc, hcs⟩ := List.forall_mem_cons.1 hs
    rw [List.cons_append, List.tails_cons, List.countP_cons_of_neg, ih hcs]
    simp [hw, List.isPrefixOf, Ne.symm hc]

theorem occurrences_append_of_spelled {s : String} (hs : Spelled (· ≠ 'W') s) (t : String) :
    occurrences "WITH" (s ++ t) = occurrences "WITH" t :=
  occurrences_append rfl hs t

theorem reads_occurrences : Reads (· ≠ 'W') fun s _ =>
    ∀ t, occurrences "WITH" (s ++ t) = occurrences "WITH" t where
  ordinary _ hw _ := hw
  plain := occurrences_append_of_spelled
  whereKeyword t := by simp [occurrences, List.tails, List.isPrefixOf]
  placeholder {q} hq := by
    have op : Spelled (· ≠ 'W') q.op.text := by cases q.op <;> simp [Operator.text, Spelled]
    refine occurrences_append_of_spelled ?_
    simpa [Placeholder.text, toString, hq, op] using by simp [Spelled]
  append hs ht u := by rw [String.append_assoc, hs, ht]

namespace Statement

theorem occurrences_sql {s : Statement} (hs : s.Worded (· ≠ 'W')) :
    occurrences "WITH" s.sql = if s.ctes.isEmpty then 0 else 1 := by
  have empty : occurrences "WITH" "" = 0 := by decide
  have select : occurrences "WITH" s.selectText = 0 := by
    rw [← empty, ← reads_occurrences.selectText hs "", String.append_empty]
  rw [sql_eq, withText]
  split
  · rw [String.empty_append, select]
  · have keyword (t : String) :
        occurrences "WITH" (withKeyword ++ t) = occurrences "WITH" t + 1 := by
      simp [occurrences, withKeyword, List.tails, List.isPrefixOf]
    have blank : Spelled (· ≠ 'W') " " := by simp [Spelled]
    rw [String.append_assoc, String.append_assoc, keyword, reads_occurrences.ctes hs,
      occurrences_append_of_spelled blank, select]

/-- What is compiled from a filter over the schema is well scoped. -/
theorem wellScoped_of_compile {f : Filter} (hf : f.OverSchema) {k : Kind} {columns : List String}
    {order : Order} {limit : Option UInt32} {s : Statement}
    (h : compile k columns f order limit = .ok s) :
    s.WellScoped ∧ ((∀ c ∈ columns, 'W' ∉ c.toList) →
      (∀ g d, order = .by g d → 'W' ∉ g.column.toList) →
        occurrences "WITH" s.sql = if s.ctes.isEmpty then 0 else 1) := by
  obtain ⟨-, hk, rfl⟩ := compile_eq_ok_iff.1 h
  have hf := hf.resolveConditions
  refine ⟨wellScoped_of_scoped (Filter.scoped_lower hf) rfl rfl rfl rfl rfl, fun hc ho => ?_⟩
  refine occurrences_sql (worded_ofFilter reads_occurrences.ordinary
    (Filter.belongs_resolveConditions hk) (hf.worded reads_occurrences.ordinary) ?_ ?_)
  · exact fun c hm d hd he => hc c hm (he ▸ hd)
  · exact fun g d hg c hd he => ho g d hg (he ▸ hd)

/-- Words without a synonym for which a closure leads from a notion to another. -/
theorem sample_wellScoped_of_compile : ∃ s,
    compile .word Kind.word.columns (.link Schema.Word.synonyms .hasNone
      (.link Schema.Word.notions .hasSome (.link Schema.Notion.fullHypernyms .reachesSome
        (.test Schema.Notion.id (.integer .equals 1))))) .random none = .ok s ∧
    s.WellScoped ∧ s.ctes.length = 2 ∧ occurrences "WITH" s.sql = 1 := by
  let f : Filter := .link Schema.Word.synonyms .hasNone
    (.link Schema.Word.notions .hasSome (.link Schema.Notion.fullHypernyms .reachesSome
      (.test Schema.Notion.id (.integer .equals 1))))
  have declares (name : String) {g : Field} : Schema.catalogue.lookup name = some g →
      Schema.Declares g := Schema.declares_of_lookup
  have hf : f.OverSchema := .link (declares "word.SYNONYMS" rfl)
    (.link (declares "word.NOTIONS" rfl) (.link (declares "notion.FULL_HYPERNYMS" rfl)
      (.test (declares "notion.ID" rfl))))
  have h : compile .word Kind.word.columns f .random none = .ok _ :=
    compile_eq_ok_iff.2 ⟨rfl, rfl, rfl⟩
  obtain ⟨hs, hw⟩ := wellScoped_of_compile hf h
  exact ⟨_, h, hs, rfl, (hw (by decide) fun _ _ ho => by cases ho).trans rfl⟩

end Statement

end Lexiquery
