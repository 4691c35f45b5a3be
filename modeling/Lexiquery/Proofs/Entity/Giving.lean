import Lexiquery.Proofs.Entity.History
import Lexiquery.Proofs.Query.Relating

/-! What a record gives along a relation as long as the store stays as it is. -/

namespace Lexiquery

theorem Logged.result_bind {α β : Type} {a : Logged α} {f : α → Logged β} :
    (a >>= f).result = a.result.bind fun x => (f x).result := by
  change (a.andThen f).result = _
  rw [andThen]
  cases a.result <;> rfl

theorem Logged.result_bind_of_ok {α β : Type} {a : Logged α} {f : α → Logged β} {x : α}
    (h : a.result = .ok x) : (a >>= f).result = (f x).result := by
  rw [result_bind, h]
  rfl

theorem Logged.result_bind_of_error {α β : Type} {a : Logged α} {f : α → Logged β} {e : Error}
    (h : a.result = .error e) : (a >>= f).result = .error e := by
  rw [result_bind, h]
  rfl

namespace Kind.Decodes

variable {k : Kind} {xs : List Row} {es : List Entity} (h : k.Decodes xs es)
include h

theorem mem_iff {e : Entity} : e ∈ es ↔ ∃ x ∈ xs, Entity.decode k (k.project x) = .ok e := by
  have mem : Except.ok e ∈ es.map (Except.ok : Entity → Except DecodeError Entity) ↔ e ∈ es := by
    simp
  rw [← mem, ← h, List.mem_map]

theorem pairwise {R : Row → Row → Prop} {S : Entity → Entity → Prop} (hx : xs.Pairwise R)
    (hs : ∀ x y a b, a.kind = k → b.kind = k → a.Shows x → b.Shows y → R x y → S a b) :
    es.Pairwise S := by
  have shown {x : Row} {e : Entity} (he : Entity.decode k (k.project x) = .ok e) :
      e.kind = k ∧ e.Shows x := by
    obtain rfl := Entity.kind_of_decode he
    exact ⟨rfl, Entity.decode_project_iff.1 he⟩
  have decoded : (es.map (Except.ok : Entity → Except DecodeError Entity)).Pairwise
      fun r r' => ∀ a b, r = .ok a → r' = .ok b → S a b := by
    rw [← h, List.pairwise_map]
    refine hx.imp fun {x y} hr a b ha hb => ?_
    exact hs x y a b (shown ha).1 (shown hb).1 (shown ha).2 (shown hb).2 hr
  exact (List.pairwise_map.1 decoded).imp fun h => h _ _ rfl rfl

end Kind.Decodes

namespace Store.Finds

variable {store : Store} (hs : store.Lexical) {k : Kind} {f : Filter} {order : Order}
  {xs : List Row} {es : List Entity} (h : store.Finds k f order xs) (hd : k.Decodes xs es)
include h hd

theorem mem_iff_of_decodes {e : Entity} : e ∈ es ↔
    e.kind = k ∧ ∃ x ∈ store.records k, e.Shows x ∧ (f.resolve k).Holds store k x := by
  rw [hd.mem_iff]
  constructor
  · rintro ⟨x, hx, he⟩
    obtain ⟨hx, hf⟩ := (h.mem_iff x).1 hx
    obtain rfl := Entity.kind_of_decode he
    exact ⟨rfl, x, hx, Entity.decode_project_iff.1 he, hf⟩
  · rintro ⟨rfl, x, hx, he, hf⟩
    exact ⟨x, (h.mem_iff x).2 ⟨hx, hf⟩, Entity.decode_project_iff.2 he⟩

include hs in
theorem nodup_ids : (es.map (·.id)).Nodup := by
  have keys : (xs.map (·.get k.primaryKey)).Nodup := by
    refine h.nodup.map_on fun x hx y hy hk => ?_
    exact hs.eq_of_key ((h.mem_iff x).1 hx).1 ((h.mem_iff y).1 hy).1 hk
  refine List.pairwise_map.2 (hd.pairwise (List.pairwise_map.1 keys) ?_)
  rintro x y a b rfl hb ha' hb' ne same
  refine ne ?_
  rw [ha'.get_primaryKey, same, ← hb, hb'.get_primaryKey]

end Store.Finds

theorem Store.Finds.exists_all {store : Store} {k : Kind} {f : Filter} {order : Order}
    {xs : List Row} (h : store.Finds k f order xs) (hd : store.Decodable) {q : Query}
    (hk : q.kind = k) (hg : q.Gives store none xs) :
    ∃ es, (q.all store).result = .ok es ∧ k.Decodes xs es := by
  obtain ⟨es, he⟩ := Except.exists_map_eq_ok fun x hx => hd k x ((h.mem_iff x).1 hx).1
  exact ⟨es, Query.all_of_gives hg (hk ▸ he), he⟩

namespace Load

variable {store : Store} (hs : store.Lexical)
include hs

theorem exists_many (hd : store.Decodable) {k : Kind} {f : Filter} {s : Field}
    (hf : f.Askable k) (ho : (Order.ascending s).Sorts k) :
    ∃ xs es, ((Load.many k f s).run store).result = .ok es ∧ k.Decodes xs es ∧
      store.Finds k f (.ascending s) xs := by
  obtain ⟨xs, hx, queries⟩ := Query.exists_finds hs hf ho
  obtain ⟨q, hq, hk, hg⟩ := queries none
  obtain ⟨es, hes, he⟩ := hx.exists_all hd hk hg
  exact ⟨xs, es, (Logged.result_bind_of_ok hq).trans hes, he, hx⟩

theorem result_one {e : Entity} (he : store.Has e) :
    ((Load.one e.kind e.id).run store).result = .ok [e] := by
  obtain ⟨x, hx, hdec⟩ := he
  have key := (Entity.decode_project_iff.1 hdec).get_primaryKey
  obtain ⟨xs, hf, queries⟩ := Query.exists_finds hs Filter.askable_idEquals
    (Order.sorts_primaryKey e.kind)
  obtain ⟨q, hq, hk, hg⟩ := queries (some 1)
  have only (y : Row) : y ∈ xs ↔ y = x := by
    rw [hf.mem_iff, Filter.resolve_idEquals_self]
    constructor
    · rintro ⟨hy, hh⟩
      exact (hs.get_key_iff hy hx key).1 ((Filter.holds_idEquals hs hy).1 hh)
    · rintro rfl
      exact ⟨hx, (Filter.holds_idEquals hs hx).2 key⟩
  obtain rfl : xs = [x] := List.perm_singleton.1 <|
    (List.perm_ext_iff_of_nodup hf.nodup (List.nodup_singleton x)).2 fun y => by simp [only]
  have first : (q.first store).result = .ok e := Query.first_of_gives hg (hk ▸ hdec)
  rw [run, Logged.result_bind_of_ok hq, Logged.result_bind_of_ok first]
  rfl

end Load

/-- What a record of the store gives along a relation, whatever was done with it before, as long as
the store is the same: these records. -/
def Store.Gives (store : Store) (e : Entity) (σ : Relation) (es : List Entity) : Prop :=
  ∀ h : List Visit, (∀ v ∈ h, v.store = store) →
    ∃ a, ((Record.ofEntity e).after h).ask store σ = some a ∧
      a.result.map (List.map Record.entity) = .ok es

theorem Load.result_of_mem_serve {load : Load} {k : Kind} {store : Store} {stores : List Store}
    {es : List Entity} (hr : (load.run store).result = .ok es) (hs : ∀ s ∈ stores, s = store)
    {a : Logged (List Entity)} (ha : a ∈ load.serve k stores) : a.result = .ok es := by
  cases stores with
  | nil => cases ha
  | cons s stores =>
    obtain ⟨rfl, -⟩ := List.forall_mem_cons.1 hs
    rw [Load.serve_cons_of_ok hr] at ha
    obtain rfl | ha := List.mem_cons.1 ha
    · exact hr
    · obtain ⟨_, -, rfl⟩ := List.mem_map.1 ha
      rfl

theorem Store.gives_of_run {store : Store} {e : Entity} {σ : Relation} {load : Load}
    {es : List Entity} (hl : e.load? σ = some load) (hr : (load.run store).result = .ok es) :
    store.Gives e σ es := by
  intro h same
  have entity : ((Record.ofEntity e).after h).entity = e := Record.entity_after
  obtain ⟨a, ha⟩ := Record.exists_ask (s := store) (entity.symm ▸ hl)
  refine ⟨a, ha, ?_⟩
  let asked : Visit := ⟨store, [.relation σ]⟩
  have served : (Record.ofEntity e).answers σ (h ++ [asked]) =
      load.serve e.kind (Visit.storesAlong σ (h ++ [asked])) := Record.answers_eq_serve hl rfl
  have last : List.map Record.entity <$> a ∈ (Record.ofEntity e).answers σ (h ++ [asked]) := by
    rw [Record.answers_concat rfl, ha]
    simp
  rw [← Logged.result_map]
  refine Load.result_of_mem_serve hr (fun s hs => ?_) (served ▸ last)
  obtain ⟨v, hv, rfl⟩ := List.mem_map.1 hs
  obtain hv | hv := List.mem_append.1 (List.mem_filter.1 hv).1
  · exact same v hv
  · rw [List.mem_singleton.1 hv]

end Lexiquery
