import Lexiquery.Proofs.Query.Relating

/-! Which records a link to one record selects: in one hop or any number of them, from the kind the
link is on or from another. -/

namespace Lexiquery

def Store.Lists (store : Store) (order : Kind → Order) (f : Filter) (e : Entity) : Prop :=
  ∃ q rows, (Query.prepare store e.kind f (order e.kind) none).result = .ok q ∧
    q.statement.run store = .ok rows ∧ ∃ row ∈ rows, Entity.decode e.kind row = .ok e

section

variable {store : Store} (hs : store.Lexical) {order : Kind → Order}
  (ho : ∀ k, (order k).Sorts k)
include hs ho

theorem Store.lists_iff {f : Filter} {e : Entity} {x : Row} (hf : f.Askable e.kind)
    (hx : x ∈ store.records e.kind) (he : e.Shows x) :
    store.Lists order f e ↔ (f.resolve e.kind).Holds store e.kind x := by
  obtain ⟨xs, hfind, queries⟩ := Query.exists_finds hs hf (ho e.kind)
  obtain ⟨q, hq, hk, hg⟩ := queries none
  have run : q.statement.run store = .ok (xs.map e.kind.project) := hk ▸ hg
  have shown : x ∈ xs ↔ (f.resolve e.kind).Holds store e.kind x := by
    rw [hfind.mem_iff, and_iff_right hx]
  rw [← shown]
  constructor
  · rintro ⟨q', rows, hq', hrows, row, hrow, hdec⟩
    obtain rfl : q = q' := Except.ok.inj (hq.symm.trans hq')
    obtain rfl : xs.map e.kind.project = rows := Except.ok.inj (run.symm.trans hrows)
    obtain ⟨y, hy, rfl⟩ := List.mem_map.1 hrow
    have key := (Entity.decode_project_iff.1 hdec).get_primaryKey
    rwa [hs.eq_of_key hx ((hfind.mem_iff y).1 hy).1 (he.get_primaryKey.trans key.symm)]
  · intro hm
    exact ⟨q, _, hq, run, _, List.mem_map_of_mem hm, Entity.decode_project_iff.2 he⟩

variable {r : Relationship} {t : LinkTest} {id : Int64} {a b : Entity} {x y : Row}
  (hr : Schema.Declares r.field)
include hr

theorem Store.lists_link (ht : (Comparison.link t).accepts r = true)
    (hx : x ∈ store.records b.kind) (hb : b.Shows x) :
    store.Lists order (.link r t (.idEquals r.far id)) b ↔
      Along store (Schema.path b.kind r.kind)
        (r.Asks store t fun y => y.get r.far.primaryKey = .integer id) x := by
  rw [Store.lists_iff hs ho (Filter.askable_link_idEquals hr ht) hx hb,
    Filter.resolve_link_idEquals, Filter.holds_along (Schema.path_leads _ _)]
  have asks {u : Row} : (Filter.link r t (.idEquals r.far id)).Holds store r.kind u ↔ _ :=
    Filter.holds_link_idEquals hs
  exact ⟨.mono fun _ => asks.1, .mono fun _ => asks.2⟩

variable (hx : x ∈ store.records r.kind) (hb : b.Shows x) (hk : b.kind = r.kind)
  (hy : y ∈ store.records r.far) (hi : y.get r.far.primaryKey = .integer id)
include hx hb hk hy hi

theorem Store.lists_link_row (ht : (Comparison.link t).accepts r = true) :
    store.Lists order (.link r t (.idEquals r.far id)) b ↔ r.Asks store t (· = y) x := by
  rw [← hk] at hx
  rw [Store.lists_link hs ho hr ht hx hb, hk, Schema.path_self]
  exact Relationship.asks_congr fun z hz => hs.get_key_iff hz hy hi

theorem Store.lists_withRelated :
    store.Lists order (r.withRelated id) b ↔ r.Relates store x y :=
  (Store.lists_link_row hs ho hr hx hb hk hy hi rfl).trans (by simp [Relationship.Asks])

theorem Store.lists_reaches (hh : r.isHierarchical = true) :
    store.Lists order (.link r .reachesSome (.idEquals r.far id)) b ↔ r.Reaches store x y :=
  (Store.lists_link_row hs ho (t := .reachesSome) hr hx hb hk hy hi hh).trans
    (by simp [Relationship.Asks])

end

def Entity.notionId? : Entity → Option Int64
  | notion n => some n.id
  | word w => some w.notionId
  | _ => none

def Store.Concept (store : Store) (e : Entity) (u : Row) : Prop :=
  u ∈ store.records .notion ∧ ∃ id ∈ e.notionId?, u.get "notion_id" = .integer id

theorem Store.concept_iff {store : Store} {e : Entity} {u : Row} {id : Int64}
    (h : e.notionId? = some id) :
    store.Concept e u ↔ u ∈ store.records .notion ∧ u.get "notion_id" = .integer id := by
  simp [Concept, h]

section

variable {store : Store} (hs : store.Lexical)
include hs

theorem Store.concept_notion_iff {n : Notion} {x u : Row} (hx : x ∈ store.records .notion)
    (hn : Entity.Shows x (.notion n)) : store.Concept (.notion n) u ↔ u = x := by
  rw [concept_iff rfl]
  constructor
  · exact fun ⟨hu, hk⟩ => (hs.get_key_iff (k := .notion) hu hx hn.1).1 hk
  · rintro rfl
    exact ⟨hx, hn.1⟩

theorem Store.relates_notions_iff {w : Word} {x u : Row} (hw : Entity.Shows x (.word w)) :
    Schema.Word.notions.Relates store x u ↔ store.Concept (.word w) u := by
  rw [concept_iff rfl]
  refine and_congr_right fun hu => ?_
  change (x.get "notion_id").Equals (u.get "notion_id") ↔ _
  rw [hw.2.1]
  exact hs.equals_key_iff hu

variable {a b : Entity} {x : Row} (hx : x ∈ store.records b.kind) (hb : b.Shows x)
  (hk : b.kind ∈ [Kind.notion, .word])
include hx hb hk

theorem Store.along_concept_iff {P : Row → Prop} :
    Along store (Schema.path b.kind .notion) P x ↔ ∃ u, store.Concept b u ∧ P u := by
  cases b with
  | notion n => simp [Entity.kind, Along, concept_notion_iff hs hx hb]
  | word w => exact exists_congr fun u => and_congr_left fun _ => relates_notions_iff hs hb
  | _ => simp [Entity.kind] at hk

theorem Store.lists_hop {order : Kind → Order} (ho : ∀ k, (order k).Sorts k)
    {table near far : String}
    (hr : Schema.Declares (Schema.Notion.related table near far).field) {id : Int64}
    (ha : a.notionId? = some id) :
    store.Lists order ((Schema.Notion.related table near far).withRelated id) b ↔
      ∃ u v, store.Concept b u ∧ store.Concept a v ∧
        (Schema.Notion.related table near far).Relates store u v := by
  refine (Store.lists_link hs ho (r := Schema.Notion.related table near far) hr rfl hx hb).trans
    ((along_concept_iff hs hx hb hk).trans ?_)
  simp only [concept_iff ha, exists_and_left]
  refine exists_congr fun u => and_congr_right fun _ => exists_congr fun v => ?_
  exact ⟨fun ⟨h, hi⟩ => ⟨⟨h.mem, hi⟩, h⟩, fun ⟨⟨_, hi⟩, h⟩ => ⟨h, hi⟩⟩

end

def Notion.reaching (n : Notion) (table near far : String) : Filter :=
  .link (Schema.Notion.full table near far) .reachesSome (.idEquals .notion n.id)

section

variable {store : Store} (hs : store.Lexical) {order : Kind → Order}
  (ho : ∀ k, (order k).Sorts k) {table near far : String}
  (hr : Schema.Declares (Schema.Notion.full table near far).field) {n m : Notion} {b : Entity}
  {x : Row}
include hs ho hr

theorem Store.lists_full_iff (hx : x ∈ store.records b.kind) (hb : b.Shows x) :
    store.Lists order (n.reaching table near far) b ↔ Along store (Schema.path b.kind .notion)
      (fun u => ∃ y, (Schema.Notion.full table near far).Reaches store u y ∧
        y.get "notion_id" = .integer n.id) x :=
  Store.lists_link hs ho (t := .reachesSome) hr rfl hx hb

theorem Store.lists_full_self (hn : store.Has (.notion n)) :
    store.Lists order (n.reaching table near far) (.notion n) := by
  obtain ⟨x, hx, hnx⟩ := Store.has_iff.1 hn
  refine (Store.lists_reaches hs ho hr hx hnx rfl hx hnx.1 rfl).2 ⟨hx, .here ?_⟩
  change (x.get "notion_id").Equals (x.get "notion_id")
  rw [hnx.1, Value.integer_equals_iff]

theorem Store.lists_full_trans (hn : store.Has (.notion n)) (hm : store.Has (.notion m))
    (hb : store.Has b)
    (hnm : store.Lists order (n.reaching table near far) (.notion m))
    (hmb : store.Lists order (m.reaching table near far) b) :
    store.Lists order (n.reaching table near far) b := by
  obtain ⟨x, hx, hnx⟩ := Store.has_iff.1 hn
  obtain ⟨y, hy, hmy⟩ := Store.has_iff.1 hm
  obtain ⟨z, hz, hbz⟩ := Store.has_iff.1 hb
  have reached := (Store.lists_reaches hs ho hr hy hmy rfl hx hnx.1 rfl).1 hnm
  rw [Store.lists_full_iff hs ho hr hz hbz] at hmb ⊢
  refine hmb.mono ?_
  rintro u ⟨y', hu, hy'⟩
  obtain rfl := (hs.get_key_iff (k := .notion) hu.1 hy hmy.1).1 hy'
  exact ⟨x, ⟨hx, hu.2.trans reached.2⟩, hnx.1⟩

theorem Store.lists_full_of_hop
    (hr' : Schema.Declares (Schema.Notion.related table near far).field) (hb : store.Has b)
    (h : store.Lists order ((Schema.Notion.related table near far).withRelated n.id) b) :
    store.Lists order (n.reaching table near far) b := by
  obtain ⟨z, hz, hbz⟩ := Store.has_iff.1 hb
  have hop := (Store.lists_link hs ho hr' rfl hz hbz).1 h
  rw [Store.lists_full_iff hs ho hr hz hbz]
  refine hop.mono ?_
  rintro u ⟨y, hu, hy⟩
  exact ⟨y, hu.reaches_self, hy⟩

end

end Lexiquery
