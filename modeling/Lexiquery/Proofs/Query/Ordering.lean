import Lexiquery.Proofs.Query.Positive
import Lexiquery.Proofs.Statement.Arrangement

/-! What a query returns, with an order and a limit. However many related rows a record is joined
with, it is returned once; so it is records that are ordered and counted, not joined rows. -/

namespace Lexiquery

theorem Except.mapM_eq_ok_iff {α β ε : Type} {f : α → Except ε β} {as : List α} {bs : List β} :
    as.mapM f = .ok bs ↔ as.map f = bs.map .ok := by
  induction as generalizing bs with
  | nil => cases bs <;> simp [pure, Except.pure]
  | cons a as ih =>
    rw [List.mapM_cons]
    cases bs with
    | nil => cases f a <;> cases as.mapM f <;> simp [bind, Except.bind, pure, Except.pure]
    | cons b bs =>
      rw [List.map_cons, List.map_cons, List.cons.injEq, ← ih]
      cases f a <;> cases as.mapM f <;> simp [bind, Except.bind, pure, Except.pure]

theorem Except.exists_map_eq_ok {α β ε : Type} {f : α → Except ε β} {as : List α}
    (h : ∀ a ∈ as, ∃ b, f a = .ok b) : ∃ bs : List β, as.map f = bs.map .ok := by
  induction as with
  | nil => exact ⟨[], rfl⟩
  | cons a as ih =>
    obtain ⟨⟨b, hb⟩, has⟩ := List.forall_mem_cons.1 h
    obtain ⟨bs, hbs⟩ := ih has
    exact ⟨b :: bs, by rw [List.map_cons, List.map_cons, hb, hbs]⟩

def Kind.Decodes (k : Kind) (xs : List Row) (es : List Entity) : Prop :=
  xs.map (fun x => Entity.decode k (k.project x)) = es.map .ok

namespace Kind.Decodes

variable {k : Kind} {xs xs₀ : List Row} {es es₀ : List Entity} (h : k.Decodes xs es)
include h

theorem length_eq : es.length = xs.length := by
  simpa using (congrArg List.length h).symm

variable (h₀ : k.Decodes xs₀ es₀)
include h₀

theorem subset (hs : xs ⊆ xs₀) : es ⊆ es₀ := by
  have hs := List.map_subset (fun x => Entity.decode k (k.project x)) hs
  rw [h, h₀] at hs
  exact (List.map_subset_iff _ fun _ _ => Except.ok.inj).1 hs

theorem eq_take {n : Nat} (hs : xs = xs₀.take n) : es = es₀.take n := by
  have injective : Function.Injective (.ok : Entity → Except DecodeError Entity) :=
    fun _ _ => Except.ok.inj
  apply List.map_injective_iff.2 injective
  rw [← h, hs, List.map_take, h₀, List.map_take]

end Kind.Decodes

namespace Query

variable {store : Store} {k : Kind} {f : Filter} {order : Order} {limit : Option UInt32} {q : Query}

theorem prepare_eq_ok_iff : (prepare store k f order limit).result = .ok q ↔
    order.validate k = .ok () ∧
      (Statement.ofFilter k k.columns (f.resolve k) order limit).check store = .ok () ∧
      q = ⟨k, f.resolve k, .ofFilter k k.columns (f.resolve k) order limit⟩ := by
  rw [prepare]
  cases ho : order.validate k with
  | error e => simp [Statement.compile, ho, bind, Except.bind, Logged.fail]
  | ok =>
    rw [Statement.compile_resolve ho]
    cases hc : (Statement.ofFilter k k.columns (f.resolve k) order limit).check store with
    | error e => simp [hc]
    | ok => simp [hc, eq_comm]

/-- The entities that a query may return, the order of its statement leaving some choice. -/
def Returns (q : Query) (store : Store) (es : List Entity) : Prop :=
  ∃ xs, q.statement.MayGive store xs ∧ q.kind.Decodes xs es

theorem exists_all_returns (hq : (prepare store k f order limit).result = .ok q)
    (hd : ∀ x ∈ q.statement.found store, ∃ e, Entity.decode k (k.project x) = .ok e) :
    ∃ es, (q.all store).result = .ok es ∧ q.Returns store es := by
  obtain ⟨ho, hc, rfl⟩ := prepare_eq_ok_iff.1 hq
  obtain ⟨xs, hx, hr⟩ := Statement.exists_mayGive store
    (.ofFilter k k.columns (f.resolve k) order limit)
  obtain ⟨es, he⟩ := Except.exists_map_eq_ok fun x h => hd x (hx.subset h)
  refine ⟨es, ?_, xs, hx, he⟩
  have hrows : (Statement.ofFilter k k.columns (f.resolve k) order limit).rows store =
      xs.map k.project := hr
  have decoded : (xs.map k.project).mapM (Entity.decode k) = .ok es := by
    rw [Except.mapM_eq_ok_iff, ← he, List.map_map]
    rfl
  simp only [all, execute, Statement.run_of_check hc, hrows, id, decoded]

/-- A query with an order and a limit returns records that the unlimited query returns, as many as
there are up to the limit. Either returns each record that is selected once, however many related
rows are joined with it, in the order of the sort field, where null comes before all else; and if
that is the primary key, nothing is left open. -/
theorem all_arranged {s : Field} {d : Direction} {n : UInt32}
    (hu : (store.records k).Pairwise fun x y =>
      (x.get k.primaryKey).order (y.get k.primaryKey) ≠ .eq)
    (hq : (prepare store k f (.by s d) (some n)).result = .ok q)
    (hd : ∀ x ∈ store.records k, q.statement.Picks store x →
      ∃ e, Entity.decode k (k.project x) = .ok e) :
    ∃ q₀, (prepare store k f (.by s d) none).result = .ok q₀ ∧
      (∃ es, (q.all store).result = .ok es ∧ q.Returns store es) ∧
      (∃ es₀, (q₀.all store).result = .ok es₀ ∧ q₀.Returns store es₀) ∧
      ∀ es es₀, q.Returns store es → q₀.Returns store es₀ → ∃ xs xs₀ : List Row,
        k.Decodes xs es ∧ k.Decodes xs₀ es₀ ∧
        (∀ x, x ∈ xs₀ ↔ x ∈ store.records k ∧ q.statement.Picks store x) ∧
        xs.Nodup ∧ xs₀.Nodup ∧
        xs.Pairwise (fun x y => d.Places (x.get s.column) (y.get s.column)) ∧
        xs₀.Pairwise (fun x y => d.Places (x.get s.column) (y.get s.column)) ∧
        (∀ v, Value.null.AtMost v ∧ (v.AtMost .null ↔ v = .null)) ∧
        es.length = min n.toNat es₀.length ∧ es ⊆ es₀ ∧
        (s.column = k.primaryKey → es = es₀.take n.toNat) := by
  obtain ⟨ho, hc, rfl⟩ := prepare_eq_ok_iff.1 hq
  let q₀ : Query := ⟨k, f.resolve k, .ofFilter k k.columns (f.resolve k) (.by s d) none⟩
  have hq₀ : (prepare store k f (.by s d) none).result = .ok q₀ :=
    prepare_eq_ok_iff.2 ⟨ho, hc, rfl⟩
  have hu : ((store.records k).map fun x => (x.get k.primaryKey).key).Nodup :=
    List.pairwise_map.2 (hu.imp fun h he => h (Value.order_eq_iff.2 he))
  have hfound (x : Row) : x ∈ q₀.statement.found store ↔
      x ∈ store.records k ∧ q₀.statement.Picks store x := by
    have hg : q₀.statement.groupColumn = k.primaryKey := by
      simp [q₀, Statement.groupColumn, Statement.ofFilter, k.columns_head?]
    exact Statement.mem_found (s := q₀.statement) (Filter.fresh_lower (f.resolve k) _ ⟨1, 0⟩) rfl hg
      fun x hx y hy => List.inj_on_of_nodup_map hu hx hy
  have hd (x : Row) (h : x ∈ q₀.statement.found store) := hd x ((hfound x).1 h).1 ((hfound x).1 h).2
  refine ⟨q₀, hq₀, exists_all_returns hq hd, exists_all_returns hq₀ hd, ?_⟩
  rintro es es₀ ⟨xs, hx, he⟩ ⟨xs₀, hx₀, he₀⟩
  have hperm : xs₀.Perm (q₀.statement.found store) := hx₀.perm
  refine ⟨xs, xs₀, he, he₀, fun x => hperm.mem_iff.trans (hfound x), hx.nodup, hx₀.nodup,
    hx.pairwise, hx₀.pairwise, fun v => ⟨v.null_atMost, Value.atMost_null_iff⟩, ?_, ?_,
    fun hs => ?_⟩
  · rw [he.length_eq, he₀.length_eq]
    exact hx.length_eq rfl hx₀
  · apply he.subset he₀
    exact List.Subset.trans hx.subset hperm.symm.subset
  · refine he.eq_take he₀ (hx.eq_take rfl hx₀ fun x hx y hy h h' => ?_)
    refine List.inj_on_of_nodup_map hu ((hfound x).1 hx).1 ((hfound y).1 hy).1 ?_
    exact hs ▸ Direction.Places.key_eq h h'

def crowded : Store :=
  Store.sample.insertAll "synonymy" ([1, 3].map fun n => [.integer 2, .integer n])

/-- Only one of the words that have synonyms, the last one. -/
theorem crowded_all_arranged : ∃ q q₀ es es₀,
    let f := Filter.link Schema.Word.synonyms .hasSome .empty
    (prepare crowded .word f (.descending Schema.Word.id) (some 1)).result = .ok q ∧
    (prepare crowded .word f (.descending Schema.Word.id) none).result = .ok q₀ ∧
    (q.all crowded).result = .ok es ∧ (q₀.all crowded).result = .ok es₀ ∧
    es.length = min 1 es₀.length ∧ es = es₀.take 1 := by
  have hq : (prepare crowded .word (.link Schema.Word.synonyms .hasSome .empty)
      (.descending Schema.Word.id) (some 1)).result = .ok _ :=
    prepare_eq_ok_iff.2 ⟨rfl, by decide +kernel, rfl⟩
  have decodes : ∀ x ∈ crowded.records .word,
      (Entity.decode .word (Kind.word.project x)).toBool = true := by decide +kernel
  have hd : ∀ x ∈ crowded.records .word,
      ∃ e, Entity.decode .word (Kind.word.project x) = .ok e := by
    intro x hx
    have hx := decodes x hx
    revert hx
    cases Entity.decode .word (Kind.word.project x) with
    | ok e => exact fun _ => ⟨e, rfl⟩
    | error e => exact nofun
  obtain ⟨q₀, hq₀, ⟨es, he, hr⟩, ⟨es₀, he₀, hr₀⟩, h⟩ :=
    all_arranged (by decide +kernel) hq fun x hx _ => hd x hx
  obtain ⟨xs, xs₀, -, -, -, -, -, -, -, -, hl, -, ht⟩ := h es es₀ hr hr₀
  exact ⟨_, q₀, es, es₀, hq, hq₀, he, he₀, hl, ht rfl⟩

end Query

end Lexiquery
