import Mathlib.Data.List.SplitBy
import Lexiquery.Proofs.Statement.Labels

/-! The words and signs of a text of SQL. A word is as long as it can be, and so is a sign of
comparison; all else is a sign of its own, but two dashes, which would begin a remark. A placeholder
counts as the value that is bound to it. -/

namespace Lexiquery.Sql

inductive Keyword
  | and
  | as
  | asc
  | by
  | desc
  | from
  | group
  | inner
  | is
  | join
  | left
  | like
  | limit
  | not
  | null
  | on
  | or
  | order
  | recursive
  | select
  | union
  | where
  | with
  deriving DecidableEq

inductive Token
  | keyword (keyword : Keyword)
  | name (name : String)
  | number (number : Nat)
  | operator (operator : Operator)
  | minus
  | dot
  | comma
  | value (value : Binding)
  deriving DecidableEq

inductive Lexeme
  | opening
  | closing
  | token (token : Token)
  deriving DecidableEq

namespace Keyword

def text : Keyword → String
  | and => "AND"
  | as => "AS"
  | asc => "ASC"
  | .by => "BY"
  | desc => "DESC"
  | .from => "FROM"
  | group => "GROUP"
  | inner => "INNER"
  | is => "IS"
  | join => "JOIN"
  | left => "LEFT"
  | like => "LIKE"
  | limit => "LIMIT"
  | not => "NOT"
  | null => "NULL"
  | on => "ON"
  | or => "OR"
  | order => "ORDER"
  | recursive => "RECURSIVE"
  | select => "SELECT"
  | union => "UNION"
  | .where => "WHERE"
  | .with => "WITH"

def all : List Keyword :=
  [and, as, asc, .by, desc, .from, group, inner, is, join, left, like, limit, not, null, on, or,
    order, recursive, select, union, .where, .with]

def ofWord? (w : List Char) : Option Keyword :=
  all.find? (·.text.toList == w.map Char.toUpper)

end Keyword

def isWordChar (c : Char) : Bool := c.isAlphanum || c == '_'

def isComparison (c : Char) : Bool := c == '=' || c == '!' || c == '<' || c == '>'

/-- Whether two characters that follow one another are of one word or sign. -/
def adheres (c d : Char) : Bool :=
  isWordChar c && isWordChar d || isComparison c && isComparison d || c == '-' && d == '-'

def chunks (s : String) : List (List Char) := s.toList.splitBy adheres

def Token.ofWord? (w : List Char) : Option Token :=
  if w.all Char.isDigit then some (.number (Nat.ofDigitChars 10 w 0))
  else if w.head?.any Char.isDigit then none
  else some ((Keyword.ofWord? w).elim (.name (String.ofList w)) .keyword)

def comparisons : List Operator := [.equals, .differs, .atLeast, .greaterThan, .atMost, .lessThan]

def Token.ofSign? (w : List Char) : Option Token :=
  (comparisons.find? (·.text.toList == w)).map .operator

def Lexeme.ofChunk? : List Char → Option Lexeme
  | ['('] => some .opening
  | [')'] => some .closing
  | ['.'] => some (.token .dot)
  | [','] => some (.token .comma)
  | ['-'] => some (.token .minus)
  | w => (if w.all isWordChar then Token.ofWord? w else Token.ofSign? w).map .token

def isBlankChar (c : Char) : Bool := c == ' ' || c == '\t' || c == '\n' || c == '\r'

def lexemes : List (List Char) → List Binding → Option (List Lexeme)
  | [], [] => some []
  | [], _ :: _ => none
  | w :: ws, bs =>
    if w.any isBlankChar then lexemes ws bs
    else if w = ['?'] then do return .token (.value (← bs.head?)) :: (← lexemes ws bs.tail)
    else do return (← Lexeme.ofChunk? w) :: (← lexemes ws bs)

def lex (text : String) (bs : List Binding) : Option (List Lexeme) := lexemes (chunks text) bs

theorem lexemes_append {bs cs : List Binding} {ws vs : List (List Char)} {ls ms : List Lexeme}
    (h : lexemes ws bs = some ls) (h' : lexemes vs cs = some ms) :
    lexemes (ws ++ vs) (bs ++ cs) = some (ls ++ ms) := by
  induction ws generalizing bs ls with
  | nil =>
    cases bs with
    | nil =>
      obtain rfl : [] = ls := Option.some.inj h
      exact h'
    | cons => cases h
  | cons w ws ih =>
    rw [lexemes] at h
    rw [List.cons_append, lexemes]
    split at h
    · rename_i hw
      rw [if_pos hw]
      exact ih h
    · rename_i hw
      rw [if_neg hw]
      split at h
      · rename_i hw
        rw [if_pos hw]
        cases bs with
        | nil => cases h
        | cons b bs =>
          obtain ⟨_, hb, h⟩ := Option.bind_eq_some_iff.1 h
          obtain ⟨ls, hls, h⟩ := Option.bind_eq_some_iff.1 h
          obtain rfl := Option.some.inj hb
          obtain rfl := Option.some.inj h
          have hls := ih (List.tail_cons ▸ hls)
          simp [hls]
      · rename_i hw
        rw [if_neg hw]
        obtain ⟨l, hl, h⟩ := Option.bind_eq_some_iff.1 h
        obtain ⟨ls, hls, h⟩ := Option.bind_eq_some_iff.1 h
        obtain rfl := Option.some.inj h
        simp [hl, ih hls]

def isMark (c : Char) : Bool := !isWordChar c && !isComparison c && c != '-'

/-- Whether a text sets itself apart from what stands before it. -/
def Leads (s : String) : Prop := s.toList.head?.any isMark = true

def Ends (s : String) : Prop := s.toList.getLast?.any isMark = true

instance (s : String) : Decidable (Leads s) := inferInstanceAs (Decidable (_ = _))

instance (s : String) : Decidable (Ends s) := inferInstanceAs (Decidable (_ = _))

theorem Leads.append {s : String} (h : Leads s) (t : String) : Leads (s ++ t) := by
  obtain ⟨c, hc, hm⟩ := (Option.any_eq_true _ _).1 h
  rw [Leads, String.toList_append, List.head?_append, Option.mem_def.1 hc, Option.some_or,
    Option.any_some, hm]

theorem Ends.append {t : String} (h : Ends t) (s : String) : Ends (s ++ t) := by
  obtain ⟨c, hc, hm⟩ := (Option.any_eq_true _ _).1 h
  rw [Ends, String.toList_append, List.getLast?_append, Option.mem_def.1 hc, Option.some_or,
    Option.any_some, hm]

def Apart (s t : String) : Prop :=
  ∀ c ∈ s.toList.getLast?, ∀ d ∈ t.toList.head?, adheres c d = false

theorem Ends.apart {s : String} (h : Ends s) (t : String) : Apart s t := by
  intro c hc d _
  have hm : isMark c = true := by simpa [Ends, Option.mem_def.1 hc] using h
  simp_all [isMark, adheres]

theorem Leads.apart {t : String} (h : Leads t) (s : String) : Apart s t := by
  intro c _ d hd
  have hm : isMark d = true := by simpa [Leads, Option.mem_def.1 hd] using h
  simp_all [isMark, adheres]

theorem apart_empty (s : String) : Apart s "" := nofun

theorem apart_join {ss : List String} (h : ∀ s ∈ ss, Leads s) (s : String) :
    Apart s (String.join ss) := by
  cases ss with
  | nil => exact apart_empty s
  | cons t ss =>
    rw [String.join_cons]
    exact ((h t List.mem_cons_self).append _).apart s

def Lexes (s : String) (bs : List Binding) (ls : List Lexeme) : Prop := lex s bs = some ls

instance (s : String) (bs : List Binding) (ls : List Lexeme) : Decidable (Lexes s bs ls) :=
  inferInstanceAs (Decidable (_ = _))

namespace Lexes

variable {s t : String} {bs cs : List Binding} {ls ms : List Lexeme}

theorem append (hs : Lexes s bs ls) (ht : Lexes t cs ms) (h : Apart s t) :
    Lexes (s ++ t) (bs ++ cs) (ls ++ ms) := by
  rw [Lexes, lex, chunks, String.toList_append, List.splitBy_append h]
  exact lexemes_append hs ht

end Lexes

/-- What keeps the words before it and behind it apart. -/
structure Separates (s : String) (ls : List Lexeme) : Prop where
  lexes : Lexes s [] ls
  leads : Leads s
  ends : Ends s

namespace Separates

variable {sep s t : String} {bs cs : List Binding} {ks ls ms : List Lexeme}

instance : Decidable (Separates s ls) :=
  decidable_of_iff (Lexes s [] ls ∧ Leads s ∧ Ends s)
    ⟨fun ⟨h, hl, he⟩ => ⟨h, hl, he⟩, fun ⟨h, hl, he⟩ => ⟨h, hl, he⟩⟩

theorem before (h : Separates sep ks) (ht : Lexes t bs ms) : Lexes (sep ++ t) bs (ks ++ ms) :=
  h.lexes.append ht (h.ends.apart t)

theorem behind (hs : Lexes s bs ls) (h : Separates sep ks) :
    Lexes (s ++ sep) bs (ls ++ ks) := by
  simpa using hs.append h.lexes (h.leads.apart s)

theorem between (hs : Lexes s bs ls) (h : Separates sep ks) (ht : Lexes t cs ms) :
    Lexes (s ++ sep ++ t) (bs ++ cs) (ls ++ ks ++ ms) :=
  (h.behind hs).append ht ((h.ends.append s).apart t)

theorem blank : Separates " " [] := by decide

theorem dot : Separates "." [.token .dot] := by decide

theorem comma : Separates ", " [.token .comma] := by decide

theorem equals : Separates " = " [.token (.operator .equals)] := by decide

theorem as : Separates " AS " [.token (.keyword .as)] := by decide

theorem on : Separates " ON " [.token (.keyword .on)] := by decide

theorem opening : Separates "(" [.opening] := by decide

theorem closing : Separates ")" [.closing] := by decide

end Separates

theorem chunks_ofList {w : List Char} (hn : w ≠ []) (hw : ∀ c ∈ w, isWordChar c = true) :
    chunks (String.ofList w) = [w] := by
  rw [chunks, String.toList_ofList]
  refine List.splitBy_of_isChain hn (List.Pairwise.isChain ?_)
  exact List.pairwise_of_forall_mem_list fun c hc d hd => by simp [adheres, hw c hc, hw d hd]

theorem ofChunk?_of_word {w : List Char} (hw : ∀ c ∈ w, isWordChar c = true) :
    Lexeme.ofChunk? w = (Token.ofWord? w).map .token := by
  have all : w.all isWordChar = true := List.all_eq_true.2 hw
  unfold Lexeme.ofChunk?
  split
  case h_6 => rw [if_pos all]
  all_goals exact absurd all (by decide)

theorem lexes_word {w : List Char} (hn : w ≠ []) (hw : ∀ c ∈ w, isWordChar c = true) {t : Token}
    (ht : Token.ofWord? w = some t) : Lexes (String.ofList w) [] [.token t] := by
  have blank : ¬w.any isBlankChar = true := by
    rw [List.any_eq_true]
    rintro ⟨c, hc, hb⟩
    have hc := hw c hc
    simp only [isBlankChar, Bool.or_eq_true, beq_iff_eq] at hb
    obtain ((rfl | rfl) | rfl) | rfl := hb <;> exact absurd hc (by decide)
  have mark : w ≠ ['?'] := by
    rintro rfl
    exact absurd (hw '?' (by simp)) (by decide)
  rw [Lexes, lex, chunks_ofList hn hw, lexemes, if_neg blank, if_neg mark, ofChunk?_of_word hw, ht]
  rfl

def integerTokens : Int → List Token
  | .ofNat n => [.number n]
  | .negSucc n => [.minus, .number (n + 1)]

theorem isDigit_of_mem_toString {n : Nat} {c : Char} (h : c ∈ (toString n).toList) :
    c.isDigit = true :=
  Nat.isDigit_of_mem_toDigits (n := n) (b := 10) (by decide) (by decide) (by simpa using h)

theorem lexes_nat (n : Nat) : Lexes (toString n) [] [.token (.number n)] := by
  have digits : ∀ c ∈ Nat.toDigits 10 n, c.isDigit = true := fun c hc =>
    isDigit_of_mem_toString (by simpa using hc)
  have hn : Token.ofWord? (Nat.toDigits 10 n) = some (.number n) := by
    rw [Token.ofWord?, if_pos (List.all_eq_true.2 digits),
      Nat.ofDigitChars_toDigits (by decide) (by decide)]
  refine lexes_word (w := Nat.toDigits 10 n) Nat.toDigits_ne_nil (fun c hc => ?_) hn
  simp [isWordChar, Char.isAlphanum, digits c hc]

theorem lexes_int (n : Int) : Lexes (toString n) [] ((integerTokens n).map .token) := by
  cases n with
  | ofNat n => exact lexes_nat n
  | negSucc n =>
    have minus : Lexes "-" [] [.token .minus] := by decide
    refine minus.append (lexes_nat (n + 1)) fun c hc d hd => ?_
    obtain rfl : '-' = c := by simpa using hc
    have digit := isDigit_of_mem_toString (List.mem_of_mem_head? hd)
    have dash : d ≠ '-' := by
      rintro rfl
      cases digit
    simp [adheres, isWordChar, isComparison, dash]

def isIdentifier (s : String) : Bool :=
  s.toList.all isWordChar && s.toList.head?.any (!·.isDigit) && (Keyword.ofWord? s.toList).isNone

theorem isIdentifier_iff {s : String} : isIdentifier s = true ↔
    (∀ c ∈ s.toList, isWordChar c = true) ∧ (∃ c ∈ s.toList.head?, c.isDigit = false) ∧
      Keyword.ofWord? s.toList = none := by
  simp [isIdentifier, Option.any_eq_true, and_assoc]

theorem lexes_identifier {s : String} (h : isIdentifier s = true) :
    Lexes s [] [.token (.name s)] := by
  obtain ⟨hw, ⟨c, hc, hd⟩, hk⟩ := isIdentifier_iff.1 h
  have hn : s.toList ≠ [] := List.ne_nil_of_mem (List.mem_of_mem_head? hc)
  have digits : ¬s.toList.all Char.isDigit = true := fun hall =>
    Bool.false_ne_true (hd ▸ List.all_eq_true.1 hall c (List.mem_of_mem_head? hc))
  have first : ¬s.toList.head?.any Char.isDigit = true := by simp [Option.mem_def.1 hc, hd]
  have word : Token.ofWord? s.toList = some (.name s) := by
    rw [Token.ofWord?, if_neg digits, if_neg first, hk, Option.elim, String.ofList_toList]
  simpa using lexes_word hn hw word

theorem underscore_notMem_keyword (k : Keyword) : '_' ∉ k.text.toList := by
  cases k <;> decide

theorem isIdentifier_append {s t : String} (hs : isIdentifier s = true)
    (ht : ∀ c ∈ t.toList, isWordChar c = true) : isIdentifier (s ++ "_" ++ t) = true := by
  obtain ⟨hw, ⟨c, hc, hd⟩, -⟩ := isIdentifier_iff.1 hs
  rw [isIdentifier_iff, String.toList_append, String.toList_append]
  refine ⟨?_, ⟨c, ?_, hd⟩, ?_⟩
  · exact List.forall_mem_append.2 ⟨List.forall_mem_append.2 ⟨hw, by simp [isWordChar]⟩, ht⟩
  · simp [List.head?_append, Option.mem_def.1 hc]
  · rw [Keyword.ofWord?, List.find?_eq_none]
    intro k _ hk
    have hk : k.text.toList = _ := eq_of_beq hk
    apply underscore_notMem_keyword k
    rw [hk]
    exact List.mem_map_of_mem (f := Char.toUpper) (a := '_') (by simp)

theorem isIdentifier_numbered {s : String} (h : isIdentifier s = true) (n : Nat) :
    isIdentifier s!"{s}_{n}" = true := by
  refine isIdentifier_append h fun c hc => ?_
  simp [isWordChar, Char.isAlphanum, isDigit_of_mem_toString hc]

end Lexiquery.Sql
