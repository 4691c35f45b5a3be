import Lexiquery.Filter.Encoding
import Lexiquery.Proofs.Filter.Identity

/-! What is read back from the encoding of a filter: with anything after it, the encoding determines
the filter and the place where it ends. A length decides this only if it fits the four bytes it is
written in, so the statements are about filters whose texts and groups are no longer than that. -/

namespace Lexiquery

def Sha256.Collide (m n : List UInt8) : Prop := m ≠ n ∧ digest m = digest n

namespace Encoding

variable {α : Type}

/-- Among what satisfies `P`, an encoding with anything after it determines what is encoded and
where it ends. -/
def Delimits (P : α → Prop) (encode : α → List UInt8) : Prop :=
  ∀ ⦃a b⦄, P a → P b → ∀ ⦃s t⦄, encode a ++ s = encode b ++ t → a = b ∧ s = t

theorem Delimits.of_length {P : α → Prop} {encode : α → List UInt8} {n : Nat}
    (hn : ∀ a, (encode a).length = n)
    (h : ∀ ⦃a b⦄, P a → P b → encode a = encode b → a = b) : Delimits P encode := by
  intro a b ha hb s t he
  obtain ⟨heads, tails⟩ := List.append_inj he ((hn a).trans (hn b).symm)
  exact ⟨h ha hb heads, tails⟩

def Fits (n : Nat) : Prop := n < UInt32.size

instance (n : Nat) : Decidable (Fits n) := inferInstanceAs (Decidable (_ < _))

def Short (s : String) : Prop := Fits s.utf8ByteSize

instance (s : String) : Decidable (Short s) := inferInstanceAs (Decidable (Fits _))

theorem delimits_nat32 : Delimits Fits nat32 := by
  refine .of_length (fun _ => Sha256.length_beBytes 4 _) fun m n hm hn h => ?_
  have bound {n : Nat} (hn : Fits n) : min n (UInt32.size - 1) = n := by
    unfold Fits at hn; omega
  rw [nat32, nat32, bound hm, bound hn] at h
  exact (Sha256.beBytes_inj (n := 4) hm hn).1 h

theorem delimits_int64 : Delimits (fun _ => True) int64 := by
  refine .of_length (fun _ => Sha256.length_beBytes 8 _) fun m n _ _ h => ?_
  have words := (Sha256.beBytes_inj m.toUInt64.toNat_lt n.toUInt64.toNat_lt).1 h
  exact congrArg Int64.ofUInt64 (UInt64.toNat.inj words)

theorem delimits_string : Delimits Short string := by
  intro a b ha hb s t h
  simp only [string, List.append_assoc] at h
  obtain ⟨sizes, h⟩ := delimits_nat32 ha hb h
  obtain ⟨texts, rest⟩ := List.append_inj h (by rw [Utf8.length_encode, Utf8.length_encode, sizes])
  exact ⟨Utf8.encode_inj.1 texts, rest⟩

theorem Delimits.option {P : α → Prop} {encode : α → List UInt8} (h : Delimits P encode) :
    Delimits (fun a => ∀ b ∈ a, P b) (option encode) := by
  intro a b ha hb s t he
  cases a with
  | none =>
    cases b with
    | none => exact ⟨rfl, List.tail_eq_of_cons_eq he⟩
    | some b => simp [Encoding.option] at he
  | some a =>
    cases b with
    | none => simp [Encoding.option] at he
    | some b =>
      obtain ⟨rfl, rest⟩ := h (ha a rfl) (hb b rfl) (List.tail_eq_of_cons_eq he)
      exact ⟨rfl, rest⟩

theorem short_name (k : Kind) : Short k.name := by
  cases k <;> decide

theorem delimits_kind : Delimits (fun _ => True) kind := by
  intro k l _ _ s t h
  obtain ⟨names, rest⟩ := delimits_string (short_name k) (short_name l) h
  exact ⟨Kind.name_injective names, rest⟩

structure ShortIdentity (i : Field.Identity) : Prop where
  column : Short i.column
  table : ∀ s ∈ i.table, Short s
  joinColumn : ∀ s ∈ i.joinColumn, Short s
  fixedColumn : ∀ s ∈ i.fixedColumn, Short s

theorem delimits_identity : Delimits ShortIdentity identity := by
  intro i j hi hj s t h
  simp only [identity, List.cons_append, List.append_assoc, List.cons.injEq] at h
  obtain ⟨flavour, h⟩ := h
  obtain ⟨kind, h⟩ := delimits_kind trivial trivial h
  obtain ⟨column, h⟩ := delimits_string hi.column hj.column h
  obtain ⟨far, h⟩ := delimits_kind.option (fun _ _ => trivial) (fun _ _ => trivial) h
  obtain ⟨table, h⟩ := delimits_string.option hi.table hj.table h
  obtain ⟨joinColumn, h⟩ := delimits_string.option hi.joinColumn hj.joinColumn h
  obtain ⟨fixedColumn, h⟩ := delimits_string.option hi.fixedColumn hj.fixedColumn h
  obtain ⟨fixedValue, h⟩ := delimits_int64.option (fun _ _ => trivial) (fun _ _ => trivial) h
  cases i; cases j
  simp_all

def ShortField (f : Field) : Prop := ShortIdentity f.identity

def ShortTest : Test → Prop
  | .string _ s => Short s
  | _ => True

theorem delimits_clause {f g : Field} (hf : ShortField f) (hg : ShortField g) {c d : Comparison}
    {s t : List UInt8} (h : field f ++ c.tag :: s = field g ++ d.tag :: t) :
    f.identity = g.identity ∧ c = d ∧ s = t := by
  obtain ⟨fields, h⟩ := delimits_identity hf hg h
  obtain ⟨tags, rest⟩ := List.cons.inj h
  exact ⟨fields, Comparison.tag_injective tags, rest⟩

theorem delimits_operand {a b : Test} (ha : ShortTest a) (hb : ShortTest b)
    (hc : a.comparison = b.comparison) {s t : List UInt8} (h : operand a ++ s = operand b ++ t) :
    a = b ∧ s = t := by
  cases a <;> cases b <;>
    simp only [Test.comparison, Comparison.integer.injEq, Comparison.string.injEq,
      Comparison.null.injEq, reduceCtorEq] at hc <;>
    simp only [operand, List.cons_append, List.nil_append, List.cons.injEq, true_and] at h
  case integer =>
    obtain ⟨value, rest⟩ := delimits_int64 trivial trivial h
    exact ⟨by rw [hc, value], rest⟩
  case boolean v w =>
    refine ⟨?_, h.2⟩
    cases v <;> cases w <;> simp at h ⊢
  case string =>
    obtain ⟨value, rest⟩ := delimits_string ha hb h
    exact ⟨by rw [hc, value], rest⟩
  case null => exact ⟨by rw [hc], h⟩

end Encoding

namespace Filter

open Encoding

/-- Every text and every group of the filter is short. Of a field only its identity counts. -/
inductive Short : Filter → Prop
  | empty : Short empty
  | test {f : Field} {t : Test} : ShortField f → ShortTest t → Short (test f t)
  | link {r : Relationship} {t : LinkTest} {condition : Filter} :
    ShortField r → Short condition → Short (link r t condition)
  | group {c : Connective} {fs : List Filter} :
    Fits fs.length → (∀ f ∈ fs, Short f) → Short (group c fs)

theorem delimits_filters {fs gs : List Filter} (hlength : fs.length = gs.length)
    (ih : ∀ f ∈ fs, ∀ g ∈ gs, ∀ s t, filter f ++ s = filter g ++ t → (f == g) = true ∧ s = t)
    {s t : List UInt8} (h : filters fs ++ s = filters gs ++ t) :
    sameAll fs gs = true ∧ s = t := by
  induction fs generalizing gs with
  | nil =>
    cases gs with
    | nil => exact ⟨by rw [sameAll], h⟩
    | cons => simp at hlength
  | cons f fs ihs =>
    cases gs with
    | nil => simp at hlength
    | cons g gs =>
      simp only [filters, List.append_assoc] at h
      obtain ⟨head, h⟩ := ih f (by simp) g (by simp) _ _ h
      obtain ⟨tail, rest⟩ := ihs (Nat.succ.inj hlength)
        (fun f hf g hg => ih f (List.mem_cons_of_mem _ hf) g (List.mem_cons_of_mem _ hg)) h
      exact ⟨by rw [sameAll, Bool.and_eq_true]; exact ⟨head, tail⟩, rest⟩

theorem delimits_filter {f g : Filter} (hf : f.Short) (hg : g.Short) {s t : List UInt8}
    (h : filter f ++ s = filter g ++ t) : (f == g) = true ∧ s = t := by
  induction f using induction generalizing g s t with
  | empty =>
    cases hg with
    | empty => exact ⟨rfl, List.tail_eq_of_cons_eq h⟩
    | @group c => cases c <;> simp [filter, connective] at h
    | _ => simp [filter] at h
  | test f u =>
    cases hf with | test hf hu =>
    cases hg with
    | empty => simp [filter] at h
    | test hg hv =>
      simp only [filter, List.cons_append, List.append_assoc, List.cons.injEq, true_and] at h
      obtain ⟨fields, comparisons, h⟩ := delimits_clause hf hg h
      obtain ⟨rfl, rest⟩ := delimits_operand hu hv comparisons h
      exact ⟨beq_iff.2 (by rw [strip, strip, Field.identity_eq_iff.1 fields]), rest⟩
    | link hg =>
      simp only [filter, List.cons_append, List.append_assoc, List.cons.injEq, true_and] at h
      obtain ⟨-, comparisons, -⟩ := delimits_clause hf hg h
      cases u <;> cases comparisons
    | @group c => cases c <;> simp [filter, connective] at h
  | link r u condition ih =>
    cases hf with | link hf hc =>
    cases hg with
    | empty => simp [filter] at h
    | @test _ v hg =>
      simp only [filter, List.cons_append, List.append_assoc, List.cons.injEq, true_and] at h
      obtain ⟨-, comparisons, -⟩ := delimits_clause hf hg h
      cases v <;> cases comparisons
    | link hg hd =>
      simp only [filter, List.cons_append, List.append_assoc, List.cons.injEq, true_and] at h
      obtain ⟨fields, comparisons, tail⟩ := delimits_clause hf hg h
      obtain rfl := Comparison.link.inj comparisons
      obtain ⟨conditions, rest⟩ := ih hc hd (List.tail_eq_of_cons_eq tail)
      have fields := Relationship.beq_iff_strip.1 (Relationship.beq_iff.2 fields)
      exact ⟨beq_iff.2 (by rw [strip, strip, fields, beq_iff.1 conditions]), rest⟩
    | @group c => cases c <;> simp [filter, connective] at h
  | group c fs ih =>
    cases hf with | group hn hfs =>
    cases hg with
    | @group d gs hm hgs =>
      simp only [filter, List.cons_append, List.append_assoc, List.cons.injEq] at h
      obtain rfl : c = d := by
        cases c <;> cases d <;> first | rfl | exact absurd h.1 (by decide)
      obtain ⟨lengths, h⟩ := delimits_nat32 hn hm h.2
      obtain ⟨children, rest⟩ := delimits_filters lengths
        (fun f hf g hg s t h => ih f hf (hfs f hf) (hgs g hg) h) h
      exact ⟨Bool.and_eq_true_iff.2 ⟨beq_self_eq_true c, children⟩, rest⟩
    | _ => cases c <;> simp [filter, connective] at h

theorem encode_congr {f g : Filter} (h : (f == g) = true) : filter f = filter g := by
  rw [beq_iff] at h
  induction f using induction generalizing g with
  | empty =>
    cases g <;> simp only [strip, reduceCtorEq] at h
    rfl
  | test f t =>
    cases g <;> simp only [strip, test.injEq, reduceCtorEq] at h
    rw [filter, filter, Encoding.field, Field.identity_eq_iff.2 h.1, h.2]
    rfl
  | link r t condition ih =>
    cases g <;> simp only [strip, link.injEq, reduceCtorEq] at h
    have fields := Relationship.beq_iff.1 (Relationship.beq_iff_strip.2 h.1)
    rw [filter, filter, Encoding.field, fields, h.2.1, ih h.2.2]
    rfl
  | group c fs ih =>
    cases g <;> simp only [strip, group.injEq, reduceCtorEq] at h
    case group d gs =>
      obtain ⟨rfl, h⟩ := h
      have all := (List.forall₂_and_left _ _).2 ⟨ih, stripAll_eq_iff.1 h⟩
      have encodings : filters fs = filters gs := by
        clear ih h
        induction all with
        | nil => rfl
        | cons h _ ih => rw [filters, filters, h.1 h.2, ih]
      rw [filter, filter, all.length_eq, encodings]

theorem delimits_encoding {f g : Filter} (hf : f.Short) (hg : g.Short) {s t : List UInt8}
    (h : f.encoding ++ s = g.encoding ++ t) : (f == g) = true ∧ s = t := by
  rw [encoding, encoding, List.append_assoc, List.append_assoc, List.append_right_inj] at h
  exact delimits_filter hf hg h

theorem encoding_eq_iff {f g : Filter} (hf : f.Short) (hg : g.Short) :
    f.encoding = g.encoding ↔ (f == g) = true :=
  ⟨fun h => (delimits_encoding hf hg (congrArg (· ++ []) h)).1,
    fun h => congrArg (header ++ ·) (encode_congr h)⟩

theorem fingerprint_eq_iff {f g : Filter} :
    f.fingerprint = g.fingerprint ↔
      f.encoding = g.encoding ∨ Sha256.Collide f.encoding g.encoding := by
  rw [fingerprint, fingerprint, Fingerprint.mk.injEq, Sha256.Collide]
  constructor
  · exact fun h => (em _).imp id fun hne => ⟨hne, h⟩
  · rintro (h | h)
    · exact congrArg _ h
    · exact h.2

/-- Filters are told apart by what is digested for them: it is the same exactly for equal filters,
no such stream of bytes is continued by another, and with equal fingerprints two filters are equal
or exhibit a collision of the digest. -/
theorem encoding_determines (f g : Filter) (hf : f.Short) (hg : g.Short) :
    (f.encoding = g.encoding ↔ (f == g) = true) ∧
    (∀ s t, f.encoding ++ s = g.encoding ++ t → (f == g) = true ∧ s = t) ∧
    (f.encoding <+: g.encoding ∨ g.encoding <+: f.encoding → f.encoding = g.encoding) ∧
    (f.fingerprint = g.fingerprint ↔
      (f == g) = true ∨ Sha256.Collide f.encoding g.encoding) := by
  refine ⟨encoding_eq_iff hf hg, fun _ _ => delimits_encoding hf hg, ?_, ?_⟩
  · rintro (⟨rest, h⟩ | ⟨rest, h⟩)
    · have same := delimits_encoding (t := []) hf hg (by simpa using h)
      exact (encoding_eq_iff hf hg).2 same.1
    · have same := delimits_encoding (t := []) hg hf (by simpa using h)
      exact ((encoding_eq_iff hg hf).2 same.1).symm
  · rw [fingerprint_eq_iff, encoding_eq_iff hf hg]

/-- A link, and the same link with its condition wrapped in a group. -/
theorem encoding_determines_wrapped :
    let condition := test Schema.Form.text (.string .equals "happy")
    let f := link Schema.Pronunciation.forms .hasSome condition
    let g := link Schema.Pronunciation.forms .hasSome (group .and [condition])
    (f.Short ∧ g.Short) ∧
    (f.encoding = g.encoding ↔ (f == g) = true) ∧
    (∀ s t, f.encoding ++ s = g.encoding ++ t → (f == g) = true ∧ s = t) ∧
    (f.encoding <+: g.encoding ∨ g.encoding <+: f.encoding → f.encoding = g.encoding) ∧
    (f.fingerprint = g.fingerprint ↔
      (f == g) = true ∨ Sha256.Collide f.encoding g.encoding) := by
  intro condition f g
  have text : ShortField Schema.Form.text := ⟨by decide, nofun, nofun, nofun⟩
  have forms : ShortField Schema.Pronunciation.forms :=
    ⟨by decide, by rintro _ ⟨⟩; decide, by rintro _ ⟨⟩; decide, nofun⟩
  have value : Encoding.Short "happy" := by decide
  have hc : condition.Short := .test text value
  have hf : f.Short := .link forms hc
  have hg : g.Short := .link forms (.group (by decide) (by simpa using hc))
  exact ⟨⟨hf, hg⟩, encoding_determines f g hf hg⟩

end Filter

end Lexiquery
