import Lexiquery.Proofs.Statement.Closure
import Lexiquery.Proofs.Statement.Joining

/-! What a fragment adds to the select it stands in. It brings new aliases and new expressions only,
and the truth values of its condition on the rows it joins depend on nothing but the row it is
about; so fragments are put together by what they show of that row. -/

namespace Lexiquery

namespace Fragment

variable {β γ : Type} {store : Store} {a : Alias} {n : Numbering} {p : Fragment}

def ReadIn (p : Fragment) (store : Store) (n : Numbering) (d : Reading) : Prop :=
  ∃ known rest, (∀ q ∈ known, q.1.number ≤ n.ctes) ∧
    d = ⟨store, store.tabulate known p.ctes ++ rest⟩

/-- What is observed on the rows that a fragment joins to a row is what `Y` says of that row. -/
structure Shows (p : Fragment) (store : Store) (a : Alias) (n : Numbering)
    (observe : Reading → Env → β) (Y : Row → β → Prop) : Prop where
  fresh : ∀ j ∈ p.joins, n.aliases < j.table.number
  within : ∀ (d : Reading) {e e' : Env}, e.Agrees (n.after p).aliases e' →
    observe d e = observe d e'
  names : ∀ c ∈ p.ctes, c.name.number ≤ (n.after p).ctes
  outcome : ∀ {d : Reading}, p.ReadIn store n d → ∀ {e : Env} {x : Row}, e.lookup a = some x →
    ∀ b, (∃ e' ∈ d.joined p.joins e, observe d e' = b) ↔ Y x b

/-- The truth values of the condition of a fragment are those that `Y` says. -/
abbrev Realizes (p : Fragment) (store : Store) (a : Alias) (n : Numbering)
    (Y : Row → Bool → Prop) : Prop :=
  p.Shows store a n (fun d e => p.condition.holds d e) Y

theorem ReadIn.store_eq {d : Reading} (h : p.ReadIn store n d) : d.store = store := by
  obtain ⟨_, _, -, rfl⟩ := h
  rfl

theorem realizes_ofCondition {c : Condition} {Y : Row → Bool → Prop} (hw : c.Within n.aliases)
    (h : ∀ {d : Reading} {e : Env} {x : Row}, d.store = store → e.lookup a = some x →
      ∀ b, c.holds d e = b ↔ Y x b) : (ofCondition c).Realizes store a n Y where
  fresh := by simp [ofCondition]
  within := hw
  names := by simp [ofCondition]
  outcome hd _ _ hx b := by simpa [ofCondition] using h hd.store_eq hx b

theorem Shows.map {observe : Reading → Env → β} {Y : Row → β → Prop} (g : β → γ)
    (h : p.Shows store a n observe Y) :
    p.Shows store a n (fun d e => g (observe d e)) (fun x c => ∃ b, Y x b ∧ g b = c) where
  fresh := h.fresh
  within d _ _ he := congrArg g (h.within d he)
  names := h.names
  outcome hd _ _ hx c := by
    simp only [← h.outcome hd hx]
    constructor
    · rintro ⟨e', he, rfl⟩
      exact ⟨_, ⟨e', he, rfl⟩, rfl⟩
    · rintro ⟨_, ⟨e', he, rfl⟩, hc⟩
      exact ⟨e', he, hc⟩

theorem Shows.congr {observe observe' : Reading → Env → β} {Y Y' : Row → β → Prop}
    (h : p.Shows store a n observe Y) (ho : ∀ d e, observe d e = observe' d e)
    (hY : ∀ x b, Y x b ↔ Y' x b) : p.Shows store a n observe' Y' := by
  obtain rfl : observe = observe' := funext fun d => funext (ho d)
  obtain rfl : Y = Y' := funext fun x => funext fun b => propext (hY x b)
  exact h

section

variable {c : Connective} {ps : List Fragment}

theorem joins_all_cons : (all c (p :: ps)).joins = p.joins ++ (all c ps).joins := rfl

theorem ctes_all_cons : (all c (p :: ps)).ctes = p.ctes ++ (all c ps).ctes := rfl

theorem tables_all_cons : (all c (p :: ps)).tables = p.tables ++ (all c ps).tables := rfl

end

def verdicts (ps : List Fragment) (d : Reading) (e : Env) : List Bool :=
  ps.map (·.condition.holds d e)

theorem shows_all_nil (c : Connective) :
    (all c []).Shows store a n (verdicts []) (fun _ bs => bs = []) where
  fresh := by simp [all]
  within _ _ _ _ := rfl
  names := by simp [all]
  outcome _ _ _ _ bs := by simp [all, verdicts, eq_comm]

theorem after_all_cons (c : Connective) (ps : List Fragment) :
    n.after (all c (p :: ps)) = (n.after p).after (all c ps) := by
  simp [Numbering.after, all, Nat.add_assoc]

theorem ReadIn.cons {c : Connective} {ps : List Fragment} {d : Reading}
    (hn : ∀ c ∈ p.ctes, c.name.number ≤ (n.after p).ctes)
    (h : (all c (p :: ps)).ReadIn store n d) :
    p.ReadIn store n d ∧ (all c ps).ReadIn store (n.after p) d := by
  obtain ⟨known, rest, hk, rfl⟩ := h
  rw [ctes_all_cons, Store.tabulate_append]
  constructor
  · obtain ⟨more, hm, -⟩ :=
      store.exists_tabulate_eq (store.tabulate known p.ctes) (all c ps).ctes
    exact ⟨known, more ++ rest, hk, by rw [hm, List.append_assoc]⟩
  · refine ⟨_, rest, fun q hq => ?_, rfl⟩
    obtain hq | ⟨c, hc, hq⟩ := Store.mem_tabulate hq
    · exact Nat.le_add_right_of_le (hk q hq)
    · exact hq ▸ hn c hc

theorem shows_all_cons {c : Connective} {ps : List Fragment} {Y : Row → Bool → Prop}
    {Ys : Row → List Bool → Prop} (ha : a.number ≤ n.aliases) (h : p.Realizes store a n Y)
    (hs : (all c ps).Shows store a (n.after p) (verdicts ps) Ys) :
    (all c (p :: ps)).Shows store a n (verdicts (p :: ps))
      (fun x bs => ∃ b bs', Y x b ∧ Ys x bs' ∧ bs = b :: bs') where
  fresh := by
    rw [joins_all_cons, List.forall_mem_append]
    exact ⟨h.fresh, fun j hj => Nat.lt_of_le_of_lt (Nat.le_add_right _ _) (hs.fresh j hj)⟩
  within d _ _ he := by
    rw [after_all_cons] at he
    have h₁ := h.within d (he.mono (Nat.le_add_right _ _))
    have h₂ := hs.within d he
    simpa [verdicts] using ⟨h₁, by simpa [verdicts] using h₂⟩
  names := by
    rw [ctes_all_cons, after_all_cons, List.forall_mem_append]
    exact ⟨fun c hc => Nat.le_add_right_of_le (h.names c hc), hs.names⟩
  outcome {d} hd e x hx bs := by
    obtain ⟨hp, hps⟩ := hd.cons h.names
    simp only [joins_all_cons, Reading.joined_append, List.mem_flatMap]
    constructor
    · rintro ⟨e', ⟨e₁, h₁, he⟩, rfl⟩
      have hx₁ : e₁.lookup a = some x := (Reading.agrees_joined h.fresh h₁ a ha) ▸ hx
      refine ⟨_, _, (h.outcome hp hx _).1 ⟨e₁, h₁, rfl⟩, (hs.outcome hps hx₁ _).1 ⟨e', he, rfl⟩, ?_⟩
      rw [h.within d (Reading.agrees_joined hs.fresh he)]
      rfl
    · rintro ⟨b, bs', hb, hbs, rfl⟩
      obtain ⟨e₁, h₁, hb⟩ := (h.outcome hp hx b).2 hb
      have hx₁ : e₁.lookup a = some x := (Reading.agrees_joined h.fresh h₁ a ha) ▸ hx
      obtain ⟨e', he, hbs⟩ := (hs.outcome hps hx₁ bs').2 hbs
      refine ⟨e', ⟨e₁, h₁, he⟩, ?_⟩
      rw [h.within d (Reading.agrees_joined hs.fresh he)] at hb
      rw [← hb, ← hbs]
      rfl

theorem realizes_all {c : Connective} {ps : List Fragment} {Ys : Row → List Bool → Prop}
    (h : (all c ps).Shows store a n (verdicts ps) Ys) :
    (all c ps).Realizes store a n (fun x b => ∃ bs, Ys x bs ∧ c.decide bs = b) :=
  (h.map c.decide).congr (fun d e => by rw [all, Condition.holds_all, List.map_map]; rfl)
    fun _ _ => Iff.rfl

def enter (p : Fragment) (far : Alias) (on : List JoinOn) : Fragment :=
  { p with joins := ⟨.inner, far, on⟩ :: p.joins, tables := far :: p.tables }

theorem shows_enter {observe : Reading → Env → β} {Y : Row → β → Prop} {far : Alias}
    {on : List JoinOn} {R : Row → Row → Prop} (hf : far.number = n.aliases + 1)
    (h : p.Shows store far ⟨n.aliases + 1, n.ctes⟩ observe Y)
    (hon : ∀ {d : Reading} {e : Env} {x : Row}, d.store = store → e.lookup a = some x →
      ∀ y, (∀ o ∈ on, o.holds d ((far, y) :: e) = true) ↔ R x y)
    {rows : List Row} (hrows : ∀ {d : Reading}, d.store = store → d.rows far.source = rows) :
    (p.enter far on).Shows store a n observe (fun x b => ∃ y ∈ rows, R x y ∧ Y y b) where
  fresh := by
    refine List.forall_mem_cons.2 ⟨by simp [hf], fun j hj => ?_⟩
    exact Nat.lt_of_succ_lt (h.fresh j hj)
  within d _ _ he := h.within d (he.mono (by simp [enter, Numbering.after]; omega))
  names := h.names
  outcome {d} hd e x hx b := by
    have hp : p.ReadIn store ⟨n.aliases + 1, n.ctes⟩ d := hd
    simp only [enter, Reading.joined_cons, List.mem_flatMap, Reading.mem_extend_inner,
      hon hd.store_eq hx, hrows hd.store_eq]
    constructor
    · rintro ⟨e', ⟨_, ⟨y, hy, rfl, hr⟩, he⟩, hb⟩
      exact ⟨y, hy, hr, (h.outcome hp Env.lookup_cons_self b).1 ⟨e', he, hb⟩⟩
    · rintro ⟨y, hy, hr, hb⟩
      obtain ⟨e', he, hb⟩ := (h.outcome hp Env.lookup_cons_self b).2 hb
      exact ⟨e', ⟨_, ⟨y, hy, rfl, hr⟩, he⟩, hb⟩

end Fragment

end Lexiquery
