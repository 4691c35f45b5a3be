import Lexiquery.Statement.Run
import Lexiquery.Proofs.Filter.Outcome

/-! What the joins of a select do to the rows so far. They add rows under numbers of their own, so
that whatever was there before stays readable. -/

namespace Lexiquery

namespace Env

variable {l m n : Nat} {e e' e'' : Env} {a : Alias} {x : Row}

def Agrees (n : Nat) (e e' : Env) : Prop := ∀ a : Alias, a.number ≤ n → e.lookup a = e'.lookup a

theorem Agrees.refl : e.Agrees n e := fun _ _ => rfl

theorem Agrees.trans (h : e.Agrees n e') (h' : e'.Agrees n e'') : e.Agrees n e'' :=
  fun a ha => (h a ha).trans (h' a ha)

theorem Agrees.mono (hmn : m ≤ n) (h : e.Agrees n e') : e.Agrees m e' :=
  fun a ha => h a (Nat.le_trans ha hmn)

theorem Agrees.get_eq (h : e.Agrees n e') {r : ColumnRef} (hr : r.table.number ≤ n) :
    e.get r = e'.get r := by
  simp [get, h r.table hr]

theorem agrees_cons (ha : n < a.number) : e.Agrees n ((a, x) :: e) := by
  intro b hb
  have : (b == a) = false := by
    rw [beq_eq_false_iff_ne]
    rintro rfl
    exact Nat.not_lt.2 hb ha
  simp [List.lookup_cons, this]

theorem get_of_lookup (h : e.lookup a = some x) (c : String) : e.get ⟨a, c⟩ = x.get c := by
  simp [get, h]

@[simp] theorem lookup_cons_self : List.lookup a ((a, x) :: e) = some x := by
  simp

@[simp] theorem get_cons_self (c : String) : Env.get ((a, x) :: e) ⟨a, c⟩ = x.get c :=
  get_of_lookup lookup_cons_self c

theorem get_cons_of_lt {r : ColumnRef} (h : r.table.number < a.number) :
    Env.get ((a, x) :: e) r = e.get r :=
  ((agrees_cons h).get_eq (Nat.le_refl _)).symm

end Env

namespace Condition

variable {d : Reading} {e : Env}

theorem holdsAll_eq (cs : List Condition) : holdsAll d e cs = cs.all (·.holds d e) := by
  induction cs <;> simp [holdsAll, *]

theorem holdsAny_eq (cs : List Condition) : holdsAny d e cs = cs.any (·.holds d e) := by
  induction cs <;> simp [holdsAny, *]

theorem holds_of_isAlways {c : Condition} (h : c.isAlways = true) : c.holds d e = true := by
  cases c <;> simp_all [isAlways, holds]

theorem holds_all (c : Connective) (cs : List Condition) :
    (all c cs).holds d e = c.decide (cs.map (·.holds d e)) := by
  by_cases h : cs.all isAlways = true
  · rw [all.eq_def, if_pos h, holds]
    have ht : ∀ b ∈ cs.map (·.holds d e), b = true :=
      List.forall_mem_map.2 fun c hc => holds_of_isAlways (List.all_eq_true.1 h c hc)
    cases c with
    | and => simpa [Connective.decide] using ht
    | or => cases cs <;> simp_all [Connective.decide]
  · rw [all.eq_def, if_neg h]
    cases c with
    | and =>
      rw [holds, holdsAll_eq, Bool.eq_iff_iff]
      simp only [Connective.decide, List.all_eq_true, List.mem_filter, List.forall_mem_map]
      constructor
      · intro hc c hm
        by_cases ha : c.isAlways = true
        · exact holds_of_isAlways ha
        · exact hc c ⟨hm, by simpa using ha⟩
      · exact fun hc c hm => hc c hm.1
    | or =>
      cases cs with
      | nil => exact absurd rfl h
      | cons => simp [holds, holdsAny_eq, Connective.decide, Function.comp_def]

def Within (n : Nat) (c : Condition) : Prop :=
  ∀ (d : Reading) {e e' : Env}, e.Agrees n e' → c.holds d e = c.holds d e'

theorem within_always {n : Nat} : always.Within n := fun _ _ _ _ => rfl

theorem within_compare {n : Nat} {r : ColumnRef} {op : Operator} {b : Binding}
    (hr : r.table.number ≤ n) : (compare r op b).Within n := by
  intro d e e' he
  simp [holds, he.get_eq hr]

theorem within_null {n : Nat} {r : ColumnRef} {t : NullTest} (hr : r.table.number ≤ n) :
    (null r t).Within n := by
  intro d e e' he
  simp [holds, he.get_eq hr]

end Condition

namespace Reading

def joined (d : Reading) (js : List Join) (e : Env) : List Env :=
  js.foldl (fun es j => es.flatMap (j.extend d)) [e]

variable {d : Reading} {j : Join} {js js' : List Join} {e e' : Env}

@[simp] theorem joined_nil : d.joined [] = fun e => [e] := rfl

theorem foldl_extend (es : List Env) :
    js.foldl (fun es j => es.flatMap (j.extend d)) es = es.flatMap (d.joined js) := by
  induction js generalizing es with
  | nil => simp
  | cons j js ih =>
    have : d.joined (j :: js) = fun e => (j.extend d e).flatMap (d.joined js) := by
      funext e
      rw [joined, List.foldl_cons, ih]
      simp
    rw [List.foldl_cons, ih, this, List.flatMap_assoc]

theorem joined_cons : d.joined (j :: js) e = (j.extend d e).flatMap (d.joined js) := by
  rw [joined, List.foldl_cons, foldl_extend]
  simp

theorem joined_append : d.joined (js ++ js') e = (d.joined js e).flatMap (d.joined js') := by
  rw [joined, List.foldl_append, foldl_extend, joined]

theorem mem_extend_inner {a : Alias} {on : List JoinOn} :
    e' ∈ Join.extend d ⟨.inner, a, on⟩ e ↔
      ∃ y ∈ d.rows a.source, e' = (a, y) :: e ∧ ∀ o ∈ on, o.holds d ((a, y) :: e) = true := by
  simp only [Join.extend, List.mem_filter, List.mem_map, List.all_eq_true]
  constructor
  · rintro ⟨⟨y, hy, rfl⟩, h⟩
    exact ⟨y, hy, rfl, h⟩
  · rintro ⟨y, hy, rfl, h⟩
    exact ⟨⟨y, hy, rfl⟩, h⟩

theorem extend_left {a : Alias} {on : List JoinOn} :
    Join.extend d ⟨.left, a, on⟩ e =
      if (Join.extend d ⟨.inner, a, on⟩ e).isEmpty then [(a, []) :: e]
      else Join.extend d ⟨.inner, a, on⟩ e := rfl

theorem agrees_extend {n : Nat} (hj : n < j.table.number) (he : e' ∈ j.extend d e) :
    e.Agrees n e' := by
  obtain ⟨type, a, on⟩ := j
  have inner (he : e' ∈ Join.extend d ⟨.inner, a, on⟩ e) : e.Agrees n e' := by
    obtain ⟨y, -, rfl, -⟩ := mem_extend_inner.1 he
    exact Env.agrees_cons hj
  cases type with
  | inner => exact inner he
  | left =>
    rw [extend_left] at he
    split at he
    · rw [List.mem_singleton.1 he]
      exact Env.agrees_cons hj
    · exact inner he

theorem agrees_joined {n : Nat} (hj : ∀ j ∈ js, n < j.table.number) (he : e' ∈ d.joined js e) :
    e.Agrees n e' := by
  induction js generalizing e with
  | nil => rw [List.mem_singleton.1 he]; exact .refl
  | cons j js ih =>
    rw [joined_cons] at he
    obtain ⟨hj, hjs⟩ := List.forall_mem_cons.1 hj
    obtain ⟨e₁, h₁, he⟩ := List.mem_flatMap.1 he
    exact (agrees_extend hj h₁).trans (ih hjs he)

theorem mem_envs {main : Alias} {c : Condition} : e ∈ d.envs main js c ↔
    ∃ x ∈ d.rows main.source, e ∈ d.joined js [(main, x)] ∧ c.holds d e = true := by
  simp only [envs, foldl_extend, List.mem_filter, List.mem_flatMap, List.mem_map]
  constructor
  · rintro ⟨⟨_, ⟨x, hx, rfl⟩, he⟩, hc⟩
    exact ⟨x, hx, he, hc⟩
  · rintro ⟨x, hx, he, hc⟩
    exact ⟨⟨_, ⟨x, hx, rfl⟩, he⟩, hc⟩

theorem affinity_table {store : Store} {table column : String} {n : Nat} (h : d.store = store) :
    d.affinity ⟨⟨.table table, n⟩, column⟩ = store.affinity table column := by
  subst h
  rfl

theorem rows_table {store : Store} {table : String} (h : d.store = store) :
    d.rows (.table table) = store.rowsOf table := by
  subst h
  rfl

theorem equal_iff {l r : ColumnRef} (hl : d.affinity l = .integer) (hr : d.affinity r = .integer) :
    d.equal e l r = true ↔ (e.get l).Equals (e.get r) := by
  simp [equal, hl, hr, Value.Equals]

end Reading

theorem Select.mem_values {d : Reading} {s : Select} {v : Value} : v ∈ s.values d ↔
    ∃ y ∈ d.rows s.column.table.source, ∃ e ∈ d.joined s.joins [(s.column.table, y)],
      s.condition.holds d e = true ∧ e.get s.column = v := by
  simp only [Select.values, List.mem_map, Reading.mem_envs]
  constructor
  · rintro ⟨e, ⟨y, hy, he, hc⟩, hv⟩
    exact ⟨y, hy, e, he, hc, hv⟩
  · rintro ⟨y, hy, e, he, hc, hv⟩
    exact ⟨e, ⟨y, hy, he, hc⟩, hv⟩

def Store.tabulate (store : Store) (known : List (CteName × Table)) (ctes : List Cte) :
    List (CteName × Table) :=
  ctes.foldl (fun known c => known ++ [(c.name, c.table ⟨store, known⟩)]) known

namespace Store

variable {store : Store} {known : List (CteName × Table)} {ctes ctes' : List Cte} {c : Cte}

theorem tabulate_append :
    store.tabulate known (ctes ++ ctes') = store.tabulate (store.tabulate known ctes) ctes' :=
  List.foldl_append

theorem tabulate_concat : store.tabulate known (ctes ++ [c]) =
    store.tabulate known ctes ++ [(c.name, c.table ⟨store, store.tabulate known ctes⟩)] :=
  tabulate_append

theorem exists_tabulate_eq (store : Store) (known : List (CteName × Table)) (ctes : List Cte) :
    ∃ more, store.tabulate known ctes = known ++ more ∧
    more.map (·.1) = ctes.map (·.name) := by
  induction ctes generalizing known with
  | nil => exact ⟨[], by simp [tabulate]⟩
  | cons c ctes ih =>
    obtain ⟨more, hm, hn⟩ := ih (known ++ [(c.name, c.table ⟨store, known⟩)])
    refine ⟨(c.name, c.table ⟨store, known⟩) :: more, ?_, by simp [hn]⟩
    rw [tabulate, List.foldl_cons, ← tabulate, hm, List.append_assoc, List.singleton_append]

theorem mem_tabulate {p : CteName × Table} (h : p ∈ store.tabulate known ctes) :
    p ∈ known ∨ ∃ c ∈ ctes, c.name = p.1 := by
  obtain ⟨more, hm, hn⟩ := store.exists_tabulate_eq known ctes
  rw [hm, List.mem_append] at h
  refine h.imp_right fun h => ?_
  have := List.mem_map_of_mem (f := (·.1)) h
  rw [hn] at this
  exact List.mem_map.1 this

end Store

end Lexiquery
