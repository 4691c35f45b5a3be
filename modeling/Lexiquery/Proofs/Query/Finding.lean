import Lexiquery.Proofs.Entity.Columns
import Lexiquery.Proofs.Query.Ordering
import Lexiquery.Proofs.Statement.Sizes

/-! What a query returns whose filter yields what it says and is not too large: all records of which
the filter holds, or as many as the limit allows, in the order asked for. -/

namespace Lexiquery

structure Filter.Askable (k : Kind) (f : Filter) : Prop where
  wellFormed : f.WellFormed
  overSchema : f.OverSchema
  guarded : (f.resolve k).Guarded
  small : (f.resolve k).nodeCount ≤ 31
  brief : f.Brief

structure Order.Sorts (k : Kind) (order : Order) : Prop where
  validate : order.validate k = .ok ()
  overSchema : order.OverSchema

structure Store.Finds (store : Store) (k : Kind) (f : Filter) (order : Order) (xs : List Row) :
    Prop where
  nodup : xs.Nodup
  mem_iff : ∀ x, x ∈ xs ↔ x ∈ store.records k ∧ (f.resolve k).Holds store k x
  pairwise : xs.Pairwise order.Places

variable {store : Store} {k : Kind} {f : Filter} {order : Order} {limit : Option UInt32}

def Query.Gives (q : Query) (store : Store) (limit : Option UInt32) (xs : List Row) : Prop :=
  q.statement.run store = .ok ((limit.elim xs (xs.take ·.toNat)).map q.kind.project)

theorem Query.exists_finds_of_fits (hs : store.Lexical) (hw : f.WellFormed) (hd : f.OverSchema)
    (hy : ∀ x, (f.resolve k).Yields store x true ↔ (f.resolve k).Holds store k x)
    (hfit : ∀ limit, (Statement.ofFilter k k.columns (f.resolve k) order limit).Fits)
    (ho : order.Sorts k) : ∃ xs, store.Finds k f order xs ∧ ∀ limit, ∃ q,
      (prepare store k f order limit).result = .ok q ∧ q.kind = k ∧ q.Gives store limit xs := by
  have hn := f.normal_resolve k
  have hsound := (hw.sound hd).resolve k
  let s : Statement := .ofFilter k k.columns (f.resolve k) order none
  have found (x : Row) : x ∈ s.found store ↔
      x ∈ store.records k ∧ (f.resolve k).Holds store k x := by
    have hg : s.groupColumn = k.primaryKey := by
      simp [s, Statement.groupColumn, Statement.ofFilter, k.columns_head?]
    rw [Statement.mem_found (s := s) (Filter.fresh_lower (f.resolve k) _ ⟨1, 0⟩) rfl hg
      fun x hx y hy => hs.eq_of_key_eq hx hy]
    exact and_congr_right fun _ => (Statement.picks_ofFilter_iff hs hn hsound).trans (hy x)
  refine ⟨s.found store, ⟨Statement.nodup_found, found, s.pairwise_found store⟩, fun limit => ?_⟩
  let t : Statement := .ofFilter k k.columns (f.resolve k) order limit
  have hc : t.check store = .ok () := Statement.check_ofFilter hs hn hsound ho.validate
    ho.overSchema (hfit limit)
  refine ⟨⟨k, f.resolve k, t⟩, prepare_eq_ok_iff.2 ⟨ho.validate, hc, rfl⟩, rfl, ?_⟩
  have unlimited : s.rows store = (s.found store).map k.project := Statement.rows_eq_found rfl
  have limited : t.rows store = limit.elim (s.rows store) ((s.rows store).take ·.toNat) :=
    Statement.rows_limit store t
  rw [Gives, Statement.run_of_check hc, limited, unlimited]
  cases limit with
  | none => rfl
  | some n => exact congrArg _ List.map_take.symm

theorem Query.exists_finds (hs : store.Lexical) (hf : f.Askable k) (ho : order.Sorts k) :
    ∃ xs, store.Finds k f order xs ∧ ∀ limit, ∃ q,
      (prepare store k f order limit).result = .ok q ∧ q.kind = k ∧ q.Gives store limit xs :=
  exists_finds_of_fits hs hf.wellFormed hf.overSchema
    (fun _ => hf.guarded.yields_iff (f.normal_resolve k) (f.compacted_resolve k))
    (fun _ => Statement.fits_ofFilter (f.normal_resolve k).belongs (hf.wellFormed.resolve k)
      (hf.brief.resolve k) hf.small) ho

theorem Query.all_of_gives {q : Query} {xs : List Row} {es : List Entity}
    (h : q.Gives store none xs) (he : q.kind.Decodes xs es) : (q.all store).result = .ok es := by
  have decoded : (xs.map q.kind.project).mapM (Entity.decode q.kind) = .ok es := by
    rw [Except.mapM_eq_ok_iff, ← he, List.map_map]
    rfl
  have run : q.statement.run store = .ok (xs.map q.kind.project) := h
  simp only [all, execute, run, id, decoded]

theorem Query.first_of_gives {q : Query} {x : Row} {xs : List Row} {e : Entity}
    (h : q.Gives store (some 1) (x :: xs))
    (he : Entity.decode q.kind (q.kind.project x) = .ok e) : (q.first store).result = .ok e := by
  have run : q.statement.run store = .ok [q.kind.project x] := h
  have decoded : [q.kind.project x].mapM (Entity.decode q.kind) = .ok [e] := by
    rw [Except.mapM_eq_ok_iff, List.map_singleton, List.map_singleton, he]
  have found : (q.execute store (·.take 1)).result = .ok [e] := by
    rw [execute, run]
    simp only [List.take_succ_cons, List.take_zero, decoded]
  change ((q.execute store (·.take 1)).andThen _).result = _
  rw [Logged.andThen, found]
  rfl

end Lexiquery
