import Lexiquery.Proofs.Statement.Counts
import Lexiquery.Proofs.Statement.WellScoped

/-! How often the keywords of joins and of common table expressions stand in the text of a
statement. Both are counted piece by piece: names and numbers hold none of their letters, so a word
is found in the piece that writes it and nowhere else. -/

namespace Lexiquery

/-- Whatever follows the text, the word stands `n` times in it. -/
def Stands (w : String) (n : Nat) (s : String) : Prop :=
  ∀ t, occurrences w (s ++ t) = n + occurrences w t

namespace Stands

variable {w : String} {α : Type} {f : α → String} {g : α → Nat} {l : List α}

theorem append {m n : Nat} {s t : String} (hs : Stands w m s) (ht : Stands w n t) :
    Stands w (m + n) (s ++ t) := fun u => by
  rw [String.append_assoc, hs, ht, Nat.add_assoc]

theorem before {n : Nat} {s t : String} (hs : Stands w 0 s) (ht : Stands w n t) :
    Stands w n (s ++ t) := by
  simpa using hs.append ht

theorem behind {n : Nat} {s t : String} (hs : Stands w n s) (ht : Stands w 0 t) :
    Stands w n (s ++ t) :=
  hs.append ht

theorem empty : Stands w 0 "" := fun t => by
  rw [String.empty_append, Nat.zero_add]

theorem join (hl : ∀ x ∈ l, Stands w (g x) (f x)) :
    Stands w (l.map g).sum (String.join (l.map f)) := by
  induction l with
  | nil => exact empty
  | cons x l ih =>
    obtain ⟨hx, hl⟩ := List.forall_mem_cons.1 hl
    rw [List.map_cons, List.map_cons, List.sum_cons, String.join_cons]
    exact hx.append (ih hl)

theorem intercalate {sep : String} (hs : Stands w 0 sep) (hl : ∀ x ∈ l, Stands w (g x) (f x)) :
    Stands w (l.map g).sum (sep.intercalate (l.map f)) := by
  induction l with
  | nil => exact empty
  | cons x l ih =>
    obtain ⟨hx, hl⟩ := List.forall_mem_cons.1 hl
    cases l with
    | nil => simpa using hx
    | cons y l =>
      simp only [List.map_cons, List.sum_cons, String.intercalate_cons_cons] at ih ⊢
      exact (hx.behind hs).append (ih hl)

end Stands

/-- A character that no counted word begins with and that no keyword before a name goes on with. -/
def Clear (c : Char) : Prop := c ≠ 'A' ∧ c ≠ 'J' ∧ c ≠ '('

instance : DecidablePred Clear := fun _ => inferInstanceAs (Decidable (_ ∧ _ ∧ _))

instance (s : String) : Decidable (Spelled Clear s) := List.decidableBAll Clear s.toList

theorem naming_clear : Naming Clear := fun c hc =>
  ⟨by rintro rfl; simp at hc, by rintro rfl; simp at hc, by rintro rfl; simp at hc⟩

/-- A word that stands `join` times in the keyword of a join and `opening` times before the body of
a common table expression, and in no other piece of a statement. -/
structure Keyword (w : String) (join opening : Nat) : Prop where
  clear {s : String} : Spelled Clear s → Stands w 0 s
  join : Stands w join "JOIN"
  opening : Stands w opening " AS ("
  named {s : String} : Spelled Clear s → s ≠ "" → Stands w 0 (" AS " ++ s)
  parenthesis : Stands w 0 "("
  and : Stands w 0 " AND "
  random : Stands w 0 " ORDER BY RANDOM()"
  ascending : Stands w 0 " ASC"

theorem stands_of_spelled {w : String} {l : Char} {ls : List Char} (hw : w.toList = l :: ls)
    {s : String} (hs : Spelled (· ≠ l) s) : Stands w 0 s := fun t => by
  rw [occurrences_append hw hs, Nat.zero_add]

theorem keyword_join : Keyword "JOIN" 1 0 := by
  have apart {s : String} (h : Spelled (· ≠ 'J') s) : Stands "JOIN" 0 s := stands_of_spelled rfl h
  exact {
    clear := fun h => apart fun c hc => (h c hc).2.1
    join := fun t => by simp [occurrences, List.tails, List.isPrefixOf]; omega
    opening := apart (by simp [Spelled])
    named := fun h _ => apart (spelled_append.2 ⟨by simp [Spelled], fun c hc => (h c hc).2.1⟩)
    parenthesis := apart (by simp [Spelled])
    and := apart (by simp [Spelled])
    random := apart (by simp [Spelled])
    ascending := apart (by simp [Spelled]) }

theorem keyword_opening : Keyword "AS (" 0 1 := by
  have apart {s : String} (h : Spelled (· ≠ 'A') s) : Stands "AS (" 0 s := stands_of_spelled rfl h
  exact {
    clear := fun h => apart fun c hc => (h c hc).1
    join := apart (by simp [Spelled])
    opening := fun t => by simp [occurrences, List.tails, List.isPrefixOf]; omega
    named := fun {s} h hs t => by
      -- what follows the keyword is a name, so no parenthesis
      obtain ⟨c, cs, hcs⟩ := List.exists_cons_of_ne_nil (mt String.toList_eq_nil_iff.1 hs)
      have hc : c ≠ '(' := (h c (by simp [hcs])).2.2
      have behind : occurrences "AS (" (s ++ t) = occurrences "AS (" t :=
        occurrences_append rfl (fun c hc => (h c hc).1) t
      rw [String.append_assoc, Nat.zero_add, ← behind]
      simp [occurrences, hcs, List.tails, List.isPrefixOf, Ne.symm hc]
    parenthesis := apart (by simp [Spelled])
    and := fun t => by simp [occurrences, List.tails, List.isPrefixOf]
    random := fun t => by simp [occurrences, List.tails, List.isPrefixOf]
    ascending := fun t => by simp [occurrences, List.tails, List.isPrefixOf] }

theorem Alias.text_ne_empty (a : Alias) : a.text ≠ "" := by
  simp [Alias.text, toString]

namespace Keyword

variable {w : String} {join opening : Nat} (h : Keyword w join opening)
include h

theorem as_alias {a : Alias} (ha : Spelled Clear a.source.text) : Stands w 0 (" AS " ++ a.text) :=
  h.named (naming_clear.spelled_alias.2 ha) a.text_ne_empty

theorem fromText {a : Alias} (ha : Spelled Clear a.source.text) : Stands w 0 a.fromText := by
  have text : a.fromText = " FROM " ++ a.source.text ++ (" AS " ++ a.text) := by
    simp [Alias.fromText, toString, String.append_assoc]
  rw [text]
  exact (h.clear (spelled_append.2 ⟨by decide, ha⟩)).before (h.as_alias ha)

theorem joinOn {o : JoinOn} (ho : ∀ r ∈ o.refs, Spelled Clear r.text) : Stands w 0 o.text := by
  have equals : Spelled Clear " = " := by decide
  apply h.clear
  cases o with
  | columns l r =>
    obtain ⟨hl, hr⟩ : Spelled Clear l.text ∧ Spelled Clear r.text := by simpa [JoinOn.refs] using ho
    simp [JoinOn.text, toString, equals, hl, hr]
  | literal r n =>
    have hr : Spelled Clear r.text := by simpa [JoinOn.refs] using ho
    have hn : Spelled Clear n.toInt.repr := naming_clear.spelled_int _
    simpa [JoinOn.text, toString, equals, hr] using hn

theorem join_text {j : Join} (hj : j.Names (Spelled Clear ·.text)) : Stands w join j.text := by
  obtain ⟨⟨column, hc⟩, hon⟩ := hj
  have source := (naming_clear.spelled_columnRef.1 hc).1
  have on : Stands w 0 (" AND ".intercalate (j.on.map (·.text))) := by
    simpa using Stands.intercalate (g := fun _ => 0) h.and fun o ho => h.joinOn (hon o ho)
  obtain ⟨type, htype, ht⟩ : ∃ s, j.type.keyword = s ++ "JOIN" ∧ Spelled Clear s := by
    cases j.type with
    | inner => exact ⟨"INNER ", rfl, by decide⟩
    | left => exact ⟨"LEFT ", rfl, by decide⟩
  have text : j.text = " " ++ type ++ "JOIN" ++ (" " ++ j.table.source.text) ++
      (" AS " ++ j.table.text) ++ " ON " ++ " AND ".intercalate (j.on.map (·.text)) := by
    simp [Join.text, toString, htype, String.append_assoc]
    rfl
  have keyword : Stands w join (" " ++ type ++ "JOIN") :=
    (h.clear (spelled_append.2 ⟨by decide, ht⟩)).before h.join
  have name : Stands w 0 (" " ++ j.table.source.text) :=
    h.clear (spelled_append.2 ⟨by decide, source⟩)
  rw [text]
  exact (((keyword.behind name).behind (h.as_alias source)).behind (h.clear (by decide))).behind on

theorem joins {js : List Join} (hjs : ∀ j ∈ js, j.Names (Spelled Clear ·.text)) :
    Stands w (join * js.length) (String.join (js.map (·.text))) := by
  simpa [Nat.mul_comm] using Stands.join (g := fun _ => join) fun j hj => h.join_text (hjs j hj)

theorem condition {c : Condition} (hc : c.Names (Spelled Clear ·.text)) : Stands w 0 c.text := by
  -- each condition but a group is about one column, which it mentions
  have own {r : ColumnRef} {c : Condition} (hm : ∃ place, c.mentions 0 = [⟨r, place⟩])
      (hc : c.Names (Spelled Clear ·.text)) : Spelled Clear r.text := by
    obtain ⟨place, hm⟩ := hm
    exact hc 0 ⟨r, place⟩ (by simp [hm])
  have blank : Spelled Clear " " := by decide
  induction c using Condition.induction with
  | always => exact h.clear (by decide)
  | compare r op b =>
    have mark : Spelled Clear " ?" := by decide
    have hop : Spelled Clear op.text := by cases op <;> decide
    exact h.clear (by simp [Condition.text, toString, own ⟨_, rfl⟩ hc, hop, blank, mark])
  | literal r n =>
    have hr := own ⟨_, rfl⟩ hc
    exact h.joinOn (o := .literal r n) (by simpa [JoinOn.refs] using hr)
  | null r t =>
    have ht : Spelled Clear t.text := by cases t <;> decide
    exact h.clear (by simp [Condition.text, toString, own ⟨_, rfl⟩ hc, ht, blank])
  | group k cs ih =>
    have separator : Stands w 0 s!" {k.keyword} " := by
      cases k with
      | and => exact h.and
      | or => exact h.clear (by decide)
    rw [Condition.text, Condition.childTexts_eq]
    suffices children : ∀ c ∈ cs, Stands w 0 c.childText by
      simpa using Stands.intercalate (g := fun _ => 0) separator children
    intro c hm
    have hc := ih c hm (hc.of_group c hm)
    cases c with
    | group => exact (h.parenthesis.before hc).behind (h.clear (s := ")") (by decide))
    | _ => exact hc

theorem whereText {c : Condition} (hc : c.Names (Spelled Clear ·.text)) :
    Stands w 0 c.whereText := by
  rw [Condition.whereText]
  split
  · exact Stands.empty
  · exact (h.clear (s := " WHERE ") (by decide)).before (h.condition hc)

theorem select {s : Select} (hs : s.Names (Spelled Clear ·.text)) :
    Stands w (join * s.joins.length) s.text := by
  have head : Stands w 0 s!"SELECT {s.column.text}" :=
    (h.clear (s := "SELECT ") (by decide)).before (h.clear hs.column)
  have source := (naming_clear.spelled_columnRef.1 hs.column).1
  exact ((head.before (h.fromText source)).before (h.joins hs.joins)).behind
    (h.whereText hs.condition)

theorem stepText {c : Cte} {step : ClosureStep}
    (hj : Spelled Clear (ColumnRef.text ⟨step.relation, step.joinColumn⟩))
    (hf : Spelled Clear (ColumnRef.text ⟨step.relation, step.foreignJoinColumn⟩))
    (hn : Spelled Clear c.name.text) (hc : Spelled Clear c.column) :
    Stands w join (c.stepText step) := by
  have text : c.stepText step = "SELECT " ++ ColumnRef.text ⟨step.relation, step.joinColumn⟩ ++
      step.relation.fromText ++ " INNER " ++ "JOIN" ++ (" " ++ c.name.text ++ " ON " ++
        ColumnRef.text ⟨step.relation, step.foreignJoinColumn⟩ ++ " = " ++ c.name.text ++ "." ++
        c.column) := by
    simp [Cte.stepText, ColumnRef.text, toString, String.append_assoc]
    rfl
  have source := (naming_clear.spelled_columnRef.1 hj).1
  have head : Stands w 0 ("SELECT " ++ ColumnRef.text ⟨step.relation, step.joinColumn⟩) :=
    h.clear (spelled_append.2 ⟨by decide, hj⟩)
  have on : Spelled Clear (" " ++ c.name.text ++ " ON " ++
      ColumnRef.text ⟨step.relation, step.foreignJoinColumn⟩ ++ " = " ++ c.name.text ++ "." ++
      c.column) := by
    have blank : Spelled Clear " " := by decide
    have on : Spelled Clear " ON " := by decide
    have equals : Spelled Clear " = " := by decide
    have dot : Spelled Clear "." := by decide
    simp [blank, on, equals, dot, hn, hf, hc]
  rw [text]
  exact (((head.before (h.fromText source)).before (h.clear (by decide))).before h.join).behind
    (h.clear on)

theorem cte {c : Cte} (hb : c.body.Names (Spelled Clear ·.text)) (hn : Spelled Clear c.name.text)
    (hc : Spelled Clear c.column) : Stands w (opening + join * c.body.joinCount) c.text := by
  have head : Stands w opening c.head := by
    have text : c.head = c.name.text ++ "(" ++ (c.column ++ ")") ++ " AS (" := by
      simp [Cte.head, toString, String.append_assoc]
    rw [text]
    exact (((h.clear hn).before h.parenthesis).before
      (h.clear (spelled_append.2 ⟨hc, by decide⟩))).before h.opening
  have body : Stands w (join * c.body.joinCount) c.bodyText := by
    rw [Cte.bodyText]
    cases hbody : c.body with
    | select s =>
      rw [hbody] at hb
      exact h.select hb
    | closure base step =>
      rw [hbody] at hb
      obtain ⟨hb, hj, hf⟩ := hb
      rw [CteBody.joinCount, Nat.mul_add, Nat.mul_one]
      exact ((h.select hb).behind (h.clear (by decide))).append (h.stepText hj hf hn hc)
  exact (head.append body).behind (h.clear (by decide))

end Keyword

namespace Statement

variable {s : Statement} {w : String} {join opening : Nat}

theorem stands_withText (h : Keyword w join opening) (hs : s.Worded Clear) :
    Stands w (opening * s.ctes.length + join * bodyJoins s.ctes) s.withText := by
  rw [withText]
  split
  · rename_i he
    rw [List.isEmpty_iff.1 he]
    simpa [bodyJoins] using Stands.empty
  · have ctes := Stands.intercalate (h.clear (s := ", ") (by decide)) fun c hc =>
      h.cte (hs.ctes c hc) (hs.cteNames c hc).1 (hs.cteNames c hc).2
    have sum : (s.ctes.map fun c => opening + join * c.body.joinCount).sum =
        opening * s.ctes.length + join * bodyJoins s.ctes := by
      induction s.ctes with
      | nil => rfl
      | cons c cs ih =>
        simp only [List.map_cons, List.sum_cons, ih, bodyJoins, List.length_cons, Nat.mul_add]
        omega
    rw [sum] at ctes
    exact ((h.clear (s := withKeyword) (by decide)).before ctes).behind (h.clear (by decide))

theorem stands_selectText (h : Keyword w join opening) (hs : s.Worded Clear) :
    Stands w (join * s.joins.length) s.selectText := by
  have main := (naming_clear.spelled_columnRef.1 hs.group).1
  have columns : Spelled Clear (", ".intercalate (s.columnRefs.map (·.text))) :=
    spelled_intercalate (by decide) (List.forall_mem_map.2 hs.columns)
  have head : Stands w (join * s.joins.length) s.head :=
    ((h.clear (spelled_append.2 ⟨by decide, columns⟩)).before (h.fromText main)).before
      (h.joins hs.joins)
  have group : Stands w 0 s.groupText := by
    have text : s.groupText = " GROUP BY " ++ ColumnRef.text ⟨s.main, s.groupColumn⟩ := by
      simp [groupText, ColumnRef.text, toString, String.append_assoc]
    rw [text]
    exact h.clear (spelled_append.2 ⟨by decide, hs.group⟩)
  have order : Stands w 0 (s.order.text s.main) := by
    cases ho : s.order with
    | random => exact h.random
    | «by» f d =>
      have text : (Order.by f d).text s.main =
          " ORDER BY " ++ ColumnRef.text ⟨s.main, f.column⟩ ++ (" " ++ d.keyword) := by
        simp [Order.text, ColumnRef.text, toString, String.append_assoc]
      have direction : Stands w 0 (" " ++ d.keyword) := by
        cases d with
        | ascending => exact h.ascending
        | descending => exact h.clear (by decide)
      rw [text]
      exact (h.clear (spelled_append.2 ⟨by decide, hs.order f d ho⟩)).before direction
  have limit : Stands w 0 s.limitText := by
    rw [limitText]
    cases s.limit with
    | none => exact Stands.empty
    | some n =>
      exact h.clear (spelled_append.2 ⟨by decide, naming_clear.spelled_nat n.toNat⟩)
  exact (((head.behind (h.whereText hs.condition)).behind group).behind order).behind limit

theorem occurrences_of_keyword (h : Keyword w join opening) (hs : s.Worded Clear)
    (hw : occurrences w "" = 0) :
    occurrences w s.sql = join * s.joinCount + opening * s.cteCount := by
  have all := ((stands_withText h hs).append (stands_selectText h hs)) ""
  rw [← sql_eq, String.append_empty, hw] at all
  rw [all, joinCount_eq, cteCount, Nat.mul_add]
  omega

end Statement

end Lexiquery
