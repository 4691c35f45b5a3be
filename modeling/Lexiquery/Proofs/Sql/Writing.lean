import Lexiquery.Proofs.Sql.Grammar

/-! Lexemes that are written item by item, row by row and clause by clause are read as these. -/

namespace Lexiquery

theorem List.splitOnP_intercalate {α : Type} {p : α → Bool} {sep : α} (hs : p sep = true)
    {ls : List (List α)} (hn : ls ≠ []) (h : ∀ l ∈ ls, ∀ a ∈ l, p a = false) :
    ([sep].intercalate ls).splitOnP p = ls := by
  induction ls with
  | nil => exact absurd rfl hn
  | cons l ls ih =>
    obtain ⟨hl, hls⟩ := List.forall_mem_cons.1 h
    cases ls with
    | nil => rw [List.intercalate_singleton, List.splitOnP_eq_singleton hl]
    | cons m ls =>
      rw [List.intercalate_cons_cons, List.append_assoc, List.singleton_append,
        List.splitOnP_append_cons_of_forall_mem hl sep hs, ih (List.cons_ne_nil _ _) hls]

theorem List.forall_mem_intercalate {α : Type} {P : α → Prop} {sep : α} (hs : P sep)
    {ls : List (List α)} (h : ∀ l ∈ ls, ∀ a ∈ l, P a) : ∀ a ∈ [sep].intercalate ls, P a := by
  induction ls with
  | nil => exact nofun
  | cons l ls ih =>
    obtain ⟨hl, hls⟩ := List.forall_mem_cons.1 h
    cases ls with
    | nil => rwa [List.intercalate_singleton]
    | cons m ls =>
      rw [List.intercalate_cons_cons, List.append_assoc, List.singleton_append]
      exact List.forall_mem_append.2 ⟨hl, List.forall_mem_cons.2 ⟨hs, ih hls⟩⟩

theorem Option.mapM_map_eq_some {α β γ : Type} {f : α → β} {g : β → Option γ} {h : α → γ}
    {l : List α} (hg : ∀ a ∈ l, g (f a) = some (h a)) : (l.map f).mapM g = some (l.map h) := by
  induction l with
  | nil => rfl
  | cons a l ih =>
    obtain ⟨ha, hl⟩ := List.forall_mem_cons.1 hg
    simp [ha, ih hl]

namespace Sql

@[elab_as_elim]
theorem Item.induction {motive : Item → Prop}
    (token : ∀ token, motive (.token token))
    (parens : ∀ items, (∀ i ∈ items, motive i) → motive (.parens items)) :
    ∀ i, motive i
  | .token t => token t
  | .parens is => parens is fun i _ => induction token parens i

mutual

def Item.write : Item → List Lexeme
  | .token t => [.token t]
  | .parens is => .opening :: writeAll is ++ [.closing]

def writeAll : List Item → List Lexeme
  | [] => []
  | i :: is => i.write ++ writeAll is

end

@[simp] theorem Item.write_token (t : Token) : (token t).write = [.token t] := rfl

@[simp] theorem Item.write_parens (is : List Item) :
    (parens is).write = .opening :: writeAll is ++ [.closing] := rfl

@[simp] theorem writeAll_nil : writeAll [] = [] := rfl

@[simp] theorem writeAll_cons (i : Item) (is : List Item) :
    writeAll (i :: is) = i.write ++ writeAll is := rfl

@[simp] theorem writeAll_append (is js : List Item) :
    writeAll (is ++ js) = writeAll is ++ writeAll js := by
  induction is <;> simp [*]

@[simp] theorem writeAll_map_token (ts : List Token) :
    writeAll (ts.map .token) = ts.map .token := by
  induction ts <;> simp [*]

theorem levels?_writeAll {is : List Item} (h : ∀ i ∈ is, ∀ ls js rest,
      levels? ls = some (js :: rest) → levels? (i.write ++ ls) = some ((i :: js) :: rest))
    {ls : List Lexeme} {js : List Item} {rest : List (List Item)}
    (hl : levels? ls = some (js :: rest)) :
    levels? (writeAll is ++ ls) = some ((is ++ js) :: rest) := by
  induction is with
  | nil => exact hl
  | cons i is ih =>
    obtain ⟨hi, his⟩ := List.forall_mem_cons.1 h
    rw [writeAll_cons, List.append_assoc]
    exact hi _ _ _ (ih his)

theorem levels?_write (i : Item) (ls : List Lexeme) (js : List Item) (rest : List (List Item))
    (hl : levels? ls = some (js :: rest)) :
    levels? (i.write ++ ls) = some ((i :: js) :: rest) := by
  induction i using Item.induction generalizing ls js rest with
  | token t =>
    rw [Item.write, List.singleton_append, levels?, hl]
    rfl
  | parens is ih =>
    have closed : levels? (.closing :: ls) = some ([] :: js :: rest) := by
      rw [levels?, hl]
      rfl
    have inner := levels?_writeAll ih closed
    rw [Item.write, List.cons_append, List.cons_append, List.append_assoc, List.singleton_append,
      levels?, inner, List.append_nil]
    rfl

theorem nest?_writeAll (is : List Item) : nest? (writeAll is) = some is := by
  have h : levels? (writeAll is ++ []) = some [is ++ []] := levels?_writeAll
    (fun i _ => levels?_write i) rfl
  rw [List.append_nil, List.append_nil] at h
  rw [nest?, h]

def Token.ofConnective : Connective → Token
  | .and => .keyword .and
  | .or => .keyword .or

namespace Expr

variable {α : Type} {c : Connective} {l : List α} {f : α → List Piece} {g : α → Expr}

@[simp] theorem row_singleton (c : Connective) (e : Expr) : row c [e] = e := rfl

theorem connective?_ofConnective (c : Connective) :
    (Piece.token (.ofConnective c)).connective? = some c := by
  cases c <;> rfl

theorem split_row (hn : l ≠ []) (hf : ∀ a ∈ l, ∀ p ∈ f a, p.connective? = none) :
    Piece.split c ([.token (.ofConnective c)].intercalate (l.map f)) = l.map f := by
  refine List.splitOnP_intercalate ?_ (by simpa using hn)
    (List.forall_mem_map.2 fun a ha p hp => ?_)
  · simp [connective?_ofConnective]
  · simp [hf a ha p hp]

theorem ofConjunction?_of_term {ps : List Piece} {e : Expr} (hp : ∀ p ∈ ps, p.connective? = none)
    (h : ofTerm? ps = some e) : ofConjunction? ps = some e := by
  have split : Piece.split .and ps = [ps] :=
    List.splitOnP_eq_singleton fun p hm => by simp [hp p hm]
  simp [ofConjunction?, split, h]

theorem ofPieces?_row (hn : l ≠ []) (hf : ∀ a ∈ l, ∀ p ∈ f a, p.connective? = none)
    (hg : ∀ a ∈ l, ofTerm? (f a) = some (g a)) :
    ofPieces? ([.token (.ofConnective c)].intercalate (l.map f)) = some (row c (l.map g)) := by
  cases c with
  | or =>
    have conjunctions : (l.map f).mapM ofConjunction? = some (l.map g) :=
      Option.mapM_map_eq_some fun a ha => ofConjunction?_of_term (hf a ha) (hg a ha)
    rw [ofPieces?, split_row hn hf, conjunctions]
    rfl
  | and =>
    -- no OR stands in it, so it is one conjunction
    have terms : (l.map f).mapM ofTerm? = some (l.map g) := Option.mapM_map_eq_some hg
    have split : ∀ ps : List Piece, (∀ p ∈ ps, p.connective? ≠ some .or) →
        Piece.split .or ps = [ps] :=
      fun ps hp => List.splitOnP_eq_singleton fun p hm => by simp [hp p hm]
    have conjunction : ofConjunction? ([.token (.ofConnective .and)].intercalate (l.map f)) =
        some (row .and (l.map g)) := by
      rw [ofConjunction?, split_row hn hf, terms]
      rfl
    rw [ofPieces?, split, List.mapM_cons, conjunction]
    · rfl
    · refine List.forall_mem_intercalate (by decide) (List.forall_mem_map.2 fun a ha p hp => ?_)
      simp [hf a ha p hp]

theorem pieces?_append {is js : List Item} {ps qs : List Piece} (hi : pieces? is = some ps)
    (hj : pieces? js = some qs) : pieces? (is ++ js) = some (ps ++ qs) := by
  induction is generalizing ps with
  | nil =>
    obtain rfl : [] = ps := Option.some.inj hi
    exact hj
  | cons i is ih =>
    obtain ⟨p, hp, h⟩ := Option.bind_eq_some_iff.1 hi
    obtain ⟨ps, hps, h⟩ := Option.bind_eq_some_iff.1 h
    obtain rfl := Option.some.inj h
    simp [pieces?, hp, ih hps]

theorem pieces?_tokens (ts : List Token) : pieces? (ts.map .token) = some (ts.map .token) := by
  induction ts with
  | nil => rfl
  | cons t ts ih => simp [pieces?, ofItem?, ih]

theorem ofItems?_of_pieces {is : List Item} {ps : List Piece} (h : pieces? is = some ps) :
    ofItems? is = ofPieces? ps := by
  rw [ofItems?, h]
  rfl

theorem pieces?_parens {is : List Item} {e : Expr} (h : ofItems? is = some e) :
    pieces? [.parens is] = some [.expr e] := by
  obtain ⟨ps, hps, he⟩ := Option.bind_eq_some_iff.1 h
  simp [pieces?, ofItem?, hps, he]

theorem pieces?_intercalate {h : α → List Item} (t : Token)
    (hp : ∀ a ∈ l, pieces? (h a) = some (f a)) :
    pieces? ([.token t].intercalate (l.map h)) = some ([.token t].intercalate (l.map f)) := by
  induction l with
  | nil => rfl
  | cons a l ih =>
    obtain ⟨ha, hl⟩ := List.forall_mem_cons.1 hp
    cases l with
    | nil => simpa using ha
    | cons b l =>
      rw [List.map_cons, List.map_cons, List.map_cons, List.map_cons, List.intercalate_cons_cons,
        List.intercalate_cons_cons]
      exact pieces?_append (pieces?_append ha rfl) (ih hl)

end Expr

namespace Clause

def whole (c : Clause) : List Item := .token (.keyword c.keyword) :: c.items

structure Proper (c : Clause) : Prop where
  leads : c.keyword.leads = true
  items : ∀ i ∈ c.items, i.leading? = none

theorem cut_append {is js : List Item} (h : ∀ i ∈ is, i.leading? = none) :
    cut (is ++ js) = (is ++ (cut js).1, (cut js).2) := by
  induction is with
  | nil => rfl
  | cons i is ih =>
    obtain ⟨hi, his⟩ := List.forall_mem_cons.1 h
    simp [cut, hi, ih his]

theorem cut_flatMap {cs : List Clause} (h : ∀ c ∈ cs, c.Proper) :
    cut (cs.flatMap whole) = ([], cs) := by
  induction cs with
  | nil => rfl
  | cons c cs ih =>
    obtain ⟨hc, hcs⟩ := List.forall_mem_cons.1 h
    have lead : (Item.token (.keyword c.keyword)).leading? = some c.keyword := by
      simp [Item.leading?, hc.leads]
    rw [List.flatMap_cons, whole, List.cons_append, cut, lead, cut_append hc.items, ih hcs]
    simp

theorem ofItems?_flatMap {cs : List Clause} (h : ∀ c ∈ cs, c.Proper) :
    ofItems? (cs.flatMap whole) = some cs := by
  rw [ofItems?, cut_flatMap h]

end Clause

end Sql

end Lexiquery
