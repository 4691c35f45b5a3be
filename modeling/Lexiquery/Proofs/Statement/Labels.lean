import Mathlib.Data.List.Nodup
import Lexiquery.Statement.Text
import Lexiquery.Store.Basic

/-! What aliases and expressions are called. A name ends in its number, so different numbers make
different names; and as no table is called a tree, no alias is called like an expression. -/

namespace Lexiquery

def Store.tableNames : List String := schema.map (·.1)

theorem toList_numbered (s : String) (n : Nat) :
    (s!"{s}_{n}").toList = s.toList ++ '_' :: Nat.toDigits 10 n := by
  simp [toString]

theorem numbered_inj {s t : String} {m n : Nat} :
    s!"{s}_{m}" = s!"{t}_{n}" ↔ s = t ∧ m = n := by
  refine ⟨fun h => ?_, fun ⟨hs, hn⟩ => by rw [hs, hn]⟩
  -- read from behind, the digits end at the first underscore
  have h := congrArg (fun u : String => u.toList.reverse) h
  simp only [toList_numbered, List.reverse_append, List.reverse_cons, List.append_assoc,
    List.singleton_append] at h
  have digits (n : Nat) (cs : List Char) :
      ((Nat.toDigits 10 n).reverse ++ '_' :: cs).takeWhile (· != '_') =
        (Nat.toDigits 10 n).reverse := by
    rw [List.takeWhile_append_of_pos, List.takeWhile_cons_of_neg (by simp), List.append_nil]
    intro c hc
    rw [bne_iff_ne]
    rintro rfl
    exact Nat.underscore_not_in_toDigits (List.mem_reverse.1 hc)
  have hd := congrArg (List.takeWhile (· != '_')) h
  rw [digits, digits] at hd
  rw [hd, List.append_cancel_left_eq, List.cons.injEq] at h
  have hn := congrArg (Nat.ofDigitChars 10 · 0) (List.reverse_injective hd)
  rw [Nat.ofDigitChars_toDigits (by decide) (by decide),
    Nat.ofDigitChars_toDigits (by decide) (by decide)] at hn
  exact ⟨String.toList_inj.1 (List.reverse_injective h.2), hn⟩

theorem Alias.text_inj {a b : Alias} :
    a.text = b.text ↔ a.source.text = b.source.text ∧ a.number = b.number :=
  numbered_inj

def CteName.stem (n : CteName) : String :=
  n.table ++ "_tree"

theorem CteName.text_eq (n : CteName) : n.text = s!"{n.stem}_{n.number}" := by
  simp [text, stem, String.append_assoc, toString]

theorem CteName.text_inj {m n : CteName} : m.text = n.text ↔ m = n := by
  rw [text_eq, text_eq, numbered_inj, stem, stem, String.append_left_inj]
  cases m
  cases n
  simp

theorem CteName.getLast?_stem (n : CteName) : n.stem.toList.getLast? = some 'e' := by
  simp [stem]

theorem getLast?_of_mem_tableNames :
    ∀ name ∈ Store.tableNames, name.toList.getLast? ≠ some 'e' := by
  decide

theorem CteName.getLast?_text (n : CteName) : n.text.toList.getLast? ≠ some 'e' := by
  have hd : Nat.toDigits 10 n.number ≠ [] := Nat.toDigits_ne_nil
  rw [text_eq, toList_numbered, List.getLast?_append_of_ne_nil _ (List.cons_ne_nil _ _),
    List.getLast?_eq_some_getLast (List.cons_ne_nil _ _), List.getLast_cons hd]
  intro h
  have hm := List.getLast_mem hd
  rw [Option.some.inj h] at hm
  simpa using Nat.isDigit_of_mem_toDigits (by decide) (by decide) hm

theorem Alias.text_ne {a : Alias} (ha : ∀ name, a.source = .table name → name ∈ Store.tableNames)
    (n : CteName) : a.text ≠ n.text := by
  intro h
  rw [n.text_eq] at h
  have hs : a.source.text = n.stem := (numbered_inj.1 h).1
  -- neither the name of a table nor that of an expression, which is numbered, ends like a stem
  have he := n.getLast?_stem
  rw [← hs] at he
  cases hsrc : a.source with
  | table name =>
    rw [hsrc] at he
    exact getLast?_of_mem_tableNames name (ha name hsrc) he
  | cte m =>
    rw [hsrc] at he
    exact m.getLast?_text he

theorem nodup_texts {as : List Alias} (h : (as.map (·.number)).Nodup) :
    (as.map (·.text)).Nodup := by
  rw [List.Nodup, List.pairwise_map] at h ⊢
  exact h.imp fun hn ht => hn (Alias.text_inj.1 ht).2

theorem nodup_cteTexts {ns : List CteName} (h : (ns.map (·.number)).Nodup) :
    (ns.map (·.text)).Nodup := by
  rw [List.Nodup, List.pairwise_map] at h ⊢
  exact h.imp fun hn ht => hn (congrArg CteName.number (CteName.text_inj.1 ht))

end Lexiquery
