import Lexiquery.Proofs.Statement.Keywords
import Lexiquery.Query.Basic

/-! The size of a compiled statement, read off its filter: what the links of the filter cost is what
the statement counts, what its text shows and what its query reports. -/

namespace Lexiquery

theorem Query.events_prepare {store : Store} {k : Kind} {f : Filter} {order : Order}
    {limit : Option UInt32} {s : Statement}
    (h : Statement.compile k k.columns (f.resolve k) order limit = .ok s) :
    ∃ rest, (prepare store k f order limit).events =
      .statementCompiled k s.joinCount s.cteCount :: rest := by
  rw [prepare, h]
  dsimp only
  split
  · exact ⟨[], rfl⟩
  · exact ⟨[.databaseError k], rfl⟩

theorem Filter.joinCost_append_link {c : Connective} {before after : List Filter}
    {r s : Relationship} (hr : (r == s) = true) (t : LinkTest) (condition : Filter) :
    (group c (before ++ link s t condition :: after)).joinCost =
      r.joinCost + condition.joinCost + (group c (before ++ after)).joinCost := by
  have same : s.joinCost = r.joinCost := by
    rw [Relationship.joinCost, Relationship.joinCost, Relationship.isDirect_eq_of_beq hr]
  induction before with
  | nil => rw [List.nil_append, joinCost_group_cons, joinCost_link, same]; rfl
  | cons f before ih =>
    rw [List.cons_append, joinCost_group_cons, ih, List.cons_append, joinCost_group_cons]
    omega

namespace Statement

/-- A statement has as many common table expressions as the resolved filter has links that ask for
more than some related row, as many joins as its links need, and besides the main table one alias
for each use of a table by a link. Its text has the keywords of as many, its query reports as many,
and however many siblings match the same related rows, they cost as much as one. -/
theorem counts_of_compile {f : Filter} (hw : f.WellFormed) (hf : f.OverSchema) {k : Kind}
    {columns : List String} {order : Order} {limit : Option UInt32} {s : Statement}
    (h : compile k columns (f.resolve k) order limit = .ok s) :
    let links := (f.resolve k).links
    (s.cteCount = links.countP (·.2 != .hasSome) ∧
      s.joinCount = (links.map fun l => if l.1.isDirect then 1 else 2).sum ∧
      s.tables.length = 1 + (links.map fun l => l.1.aliasCost l.2).sum) ∧
    ((∀ c ∈ columns, Spelled Clear c) → (∀ g d, order = .by g d → Spelled Clear g.column) →
      occurrences "AS (" s.sql = s.cteCount ∧ occurrences "JOIN" s.sql = s.joinCount) ∧
    (columns = k.columns → ∀ store, ∃ rest, (Query.prepare store k f order limit).events =
      .statementCompiled k s.joinCount s.cteCount :: rest) ∧
    (f.resolve k).Groups (fun fs => ∀ r, (Filter.conditions r .hasSome fs).length ≤ 1) ∧
    ∀ c fs r condition, f = .group c fs → .link r .hasSome condition ∈ fs → r.kind = k →
      ∃ before r' condition' after,
        f.resolve k = .group c (before ++ .link r' .hasSome condition' :: after) ∧
        (r == r') = true ∧ (∀ g ∈ before ++ after, g.condition? r .hasSome = none) ∧
        s.joinCount = r.joinCost + condition'.joinCost +
          (Filter.group c (before ++ after)).joinCost := by
  obtain ⟨ho, hk, rfl⟩ := compile_eq_ok_iff.1 h
  have sound : (f.resolve k).Sound := (hw.sound hf).resolve k
  rw [Filter.resolveConditions_resolve] at h ⊢
  obtain ⟨joins, ctes, tables⟩ := counts_ofFilter sound k columns order limit
  refine ⟨⟨ctes, joins, tables⟩, fun hc ho => ?_, ?_, (Filter.normal_resolve f k).groups, ?_⟩
  · have worded : (ofFilter k columns (f.resolve k) order limit).Worded Clear :=
      naming_clear.worded_ofFilter (Filter.normal_resolve f k).belongs
        (naming_clear.worded sound.overSchema) hc ho
    constructor
    · rw [occurrences_of_keyword keyword_opening worded (by decide)]
      omega
    · rw [occurrences_of_keyword keyword_join worded (by decide)]
      omega
  · rintro rfl store
    exact Query.events_prepare h
  · rintro c fs r condition rfl hm hr
    obtain ⟨before, r', condition', after, resolved, same, apart⟩ :=
      Filter.resolve_group_of_mem (c := c) rfl hm hr
    refine ⟨before, r', condition', after, resolved, same, apart, ?_⟩
    rw [joins, resolved, Filter.joinCost_append_link same]

/-- Words with one of two synonyms, or without a synonym for which a closure leads from a notion to
another. The first two links share their joins. -/
theorem sample_counts_of_compile : ∃ s,
    let synonymOf n := Filter.link Schema.Word.synonyms .hasSome
      (.test Schema.Word.id (.integer .equals n))
    let alone := Filter.link Schema.Word.synonyms .hasNone
      (.link Schema.Word.notions .hasSome (.link Schema.Notion.fullHypernyms .reachesSome
        (.test Schema.Notion.id (.integer .equals 1))))
    let f := Filter.group .or [synonymOf 2, synonymOf 4, alone]
    compile .word Kind.word.columns (f.resolve .word) .random none = .ok s ∧
    s.cteCount = 2 ∧ s.joinCount = 7 ∧ s.tables.length = 10 ∧
    occurrences "AS (" s.sql = 2 ∧ occurrences "JOIN" s.sql = 7 := by
  let synonymOf n := Filter.link Schema.Word.synonyms .hasSome
    (.test Schema.Word.id (.integer .equals n))
  let alone := Filter.link Schema.Word.synonyms .hasNone
    (.link Schema.Word.notions .hasSome (.link Schema.Notion.fullHypernyms .reachesSome
      (.test Schema.Notion.id (.integer .equals 1))))
  let f := Filter.group .or [synonymOf 2, synonymOf 4, alone]
  have declares (name : String) {g : Field} : Schema.catalogue.lookup name = some g →
      Schema.Declares g := Schema.declares_of_lookup
  have word := declares "word.ID" rfl
  have synonyms := declares "word.SYNONYMS" rfl
  have hf : f.OverSchema := .group (by
    simp only [List.forall_mem_cons]
    exact ⟨.link synonyms (.test word), .link synonyms (.test word), .link synonyms
      (.link (declares "word.NOTIONS" rfl) (.link (declares "notion.FULL_HYPERNYMS" rfl)
        (.test (declares "notion.ID" rfl)))), nofun⟩)
  have hw : f.WellFormed := .group (by
    simp only [List.forall_mem_cons]
    exact ⟨.link rfl (.test rfl), .link rfl (.test rfl), .link rfl (.link rfl (.link rfl
      (.test rfl))), nofun⟩)
  have h : compile .word Kind.word.columns (f.resolve .word) .random none =
      .ok (ofFilter .word Kind.word.columns (f.resolve .word) .random none) :=
    compile_resolve rfl f
  obtain ⟨⟨ctes, joins, tables⟩, text, -⟩ := counts_of_compile hw hf h
  obtain ⟨openings, keywords⟩ := text (by decide) fun _ _ ho => by cases ho
  have links : (f.resolve .word).links = [(Schema.Word.synonyms, .hasSome),
      (Schema.Word.synonyms, .hasNone), (Schema.Word.notions, .hasSome),
      (Schema.Notion.fullHypernyms, .reachesSome)] := by
    decide +kernel
  rw [links] at ctes joins tables
  exact ⟨_, h, ctes, joins, tables, openings.trans ctes, keywords.trans joins⟩

end Statement

end Lexiquery
