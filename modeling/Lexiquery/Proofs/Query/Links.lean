import Lexiquery.Proofs.Query.Answers

/-! Links and standalone queries. Wherever the condition of a link ends up in the statement, it
means what it means as a query of its own on the kind of the related rows. -/

namespace Lexiquery

def Kind.ids (k : Kind) (rows : List Row) : List Value := rows.map (·.get k.primaryKey)

/-- What a test asks of a row, the related rows it looks for being known by their primary keys. -/
def Relationship.AsksFor (store : Store) (r : Relationship) (t : LinkTest) (ids : List Value)
    (x : Row) : Prop :=
  match t with
  | .hasSome => ∃ y, r.Relates store x y ∧ y.get r.far.primaryKey ∈ ids
  | .hasNone => ¬ ∃ y, r.Relates store x y ∧ y.get r.far.primaryKey ∈ ids
  | .reachesSome => ∃ id ∈ ids, r.Leads store (x.get r.column) id
  | .reachesNone => ¬ ∃ id ∈ ids, r.Leads store (x.get r.column) id

theorem Kind.get_project (k : Kind) (x : Row) :
    (k.project x).get k.primaryKey = x.get k.primaryKey := by
  cases k <;> rfl

namespace Store

variable {store : Store} {k : Kind} {P : Row → Prop} {rows : List Row}

theorem Selects.mem_ids (h : store.Selects k P rows) {id : Value} :
    id ∈ k.ids rows ↔ ∃ x ∈ store.records k, P x ∧ x.get k.primaryKey = id := by
  simp only [Kind.ids, List.mem_map, h.mem_iff]
  constructor
  · rintro ⟨_, ⟨x, hx, hp, rfl⟩, rfl⟩
    exact ⟨x, hx, hp, (k.get_project x).symm⟩
  · rintro ⟨x, hx, hp, rfl⟩
    exact ⟨_, ⟨x, hx, hp, rfl⟩, k.get_project x⟩

theorem Selects.get_mem_ids (hs : store.Lexical) (h : store.Selects k P rows) {y : Row}
    (hy : y ∈ store.records k) : y.get k.primaryKey ∈ k.ids rows ↔ P y := by
  rw [h.mem_ids]
  constructor
  · rintro ⟨x, hx, hp, hk⟩
    exact hs.eq_of_key hx hy hk ▸ hp
  · exact fun hp => ⟨y, hy, hp, rfl⟩

end Store

theorem Relationship.asks_iff_asksFor {store : Store} (hs : store.Lexical) {r : Relationship}
    (hr : Schema.Declares r.field) {t : LinkTest}
    (ht : t.isTransitive = true → r.isHierarchical = true) {P : Row → Prop} {rows : List Row}
    (h : store.Selects r.far P rows) {x : Row} :
    r.Asks store t P x ↔ r.AsksFor store t (r.far.ids rows) x := by
  have relates : (∃ y, r.Relates store x y ∧ P y) ↔
      ∃ y, r.Relates store x y ∧ y.get r.far.primaryKey ∈ r.far.ids rows :=
    exists_congr fun y => and_congr_right fun hy => (h.get_mem_ids hs hy.mem).symm
  have reaches (_ : t.isTransitive = true) : (∃ y, r.Reaches store x y ∧ P y) ↔
      ∃ id ∈ r.far.ids rows, r.Leads store (x.get r.column) id := by
    have hc : r.column = r.far.primaryKey := by
      rw [far_of_isHierarchical (ht ‹_›), hr.column_of_isHierarchical (ht ‹_›)]
    simp only [h.mem_ids, Reaches, hc]
    constructor
    · rintro ⟨y, ⟨hy, hl⟩, hp⟩
      exact ⟨_, ⟨y, hy, hp, rfl⟩, hl⟩
    · rintro ⟨_, ⟨y, hy, hp, rfl⟩, hl⟩
      exact ⟨y, ⟨hy, hl⟩, hp⟩
  cases t with
  | hasSome => exact relates
  | hasNone => exact not_congr relates
  | reachesSome => exact reaches rfl
  | reachesNone => exact not_congr (reaches rfl)

/-- A link selects the records related to those that its condition selects by itself, or the others:
with `ids` the primary keys that querying the far kind gives, it asks for rows of `ids` alone. -/
theorem Store.answers_link {store : Store} (hs : store.Lexical) {r : Relationship} {t : LinkTest}
    {condition : Filter} (hw : (Filter.link r t condition).WellFormed)
    (hf : (Filter.link r t condition).OverSchema) {order order' : Order}
    (ho : order.validate r.kind = .ok ()) (ho' : order'.validate r.far = .ok ()) :
    ∃ rows found, store.Answers r.kind (.link r t condition) order rows ∧
      store.Answers r.far condition order' found ∧
      store.Selects r.kind (r.AsksFor store t (r.far.ids found)) rows := by
  obtain ⟨⟨hr, ht⟩, -⟩ := Filter.every_link.1 (hw.sound hf)
  obtain ⟨rows, ha, h⟩ := exists_answers hs hw hf ho
  cases hw with
  | link _ hw =>
    obtain ⟨found, ha', h'⟩ := exists_answers hs hw (Filter.every_link.1 hf).2 ho'
    refine ⟨rows, found, ha, ha', h.congr fun x _ => ?_⟩
    rw [Filter.resolve_link, Filter.yields_link, Relationship.asks_iff_asksFor hs hr ht h']

theorem Store.sample_answers_link : ∃ rows found,
    sample.Answers .notion (.link Schema.Notion.fullHypernyms .reachesNone
      (.test Schema.Notion.id (.integer .equals 2))) .random rows ∧
    sample.Answers .notion (.test Schema.Notion.id (.integer .equals 2)) .random found ∧
    sample.Selects .notion (Schema.Notion.fullHypernyms.AsksFor sample .reachesNone
      (Kind.notion.ids found)) rows := by
  have hr : Schema.Declares Schema.Notion.fullHypernyms.field :=
    @Schema.Declares.constant "notion.FULL_HYPERNYMS" _ (by simp [Schema.catalogue])
  have hf : Schema.Declares Schema.Notion.id :=
    @Schema.Declares.constant "notion.ID" _ (by simp [Schema.catalogue])
  exact answers_link lexical_sample (.link rfl (.test rfl)) (.link hr (.test hf)) rfl rfl

end Lexiquery
