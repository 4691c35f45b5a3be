import Mathlib.Data.List.Forall2
import Lexiquery.Store.Value

/-! Texts in bytes. Bytes are garbled just if no text has them. -/

namespace Lexiquery

namespace Utf8

theorem encode_ofList (cs : List Char) :
    encode (String.ofList cs) = cs.flatMap String.utf8EncodeChar := by
  rw [encode, String.toUTF8, String.toByteArray_ofList, List.utf8Encode, List.data_toByteArray]

section

variable {c : Char} {v : Nat} (hv : c.toNat = v)
include hv

theorem encodeChar_one (high : v ≤ 0x7f) : String.utf8EncodeChar c = [.ofNat v] := by
  subst hv
  exact if_pos high

theorem encodeChar_two (low : 0x7f < v) (high : v ≤ 0x7ff) :
    String.utf8EncodeChar c = [.ofNat (v / 64 % 32 + 192), .ofNat (v % 64 + 128)] := by
  subst hv
  change (if c.toNat ≤ 0x7f then _ else if c.toNat ≤ 0x7ff then _ else _) = _
  rw [if_neg (Nat.not_le_of_lt low), if_pos high]
  rfl

theorem encodeChar_three (low : 0x7ff < v) (high : v ≤ 0xffff) :
    String.utf8EncodeChar c =
      [.ofNat (v / 4096 % 16 + 224), .ofNat (v / 64 % 64 + 128), .ofNat (v % 64 + 128)] := by
  subst hv
  change (if c.toNat ≤ 0x7f then _ else if c.toNat ≤ 0x7ff then _ else
    if c.toNat ≤ 0xffff then _ else _) = _
  rw [if_neg (by omega), if_neg (Nat.not_le_of_lt low), if_pos high]
  rfl

theorem encodeChar_four (low : 0xffff < v) :
    String.utf8EncodeChar c = [.ofNat (v / 262144 % 8 + 240), .ofNat (v / 4096 % 64 + 128),
      .ofNat (v / 64 % 64 + 128), .ofNat (v % 64 + 128)] := by
  subst hv
  change (if c.toNat ≤ 0x7f then _ else if c.toNat ≤ 0x7ff then _ else
    if c.toNat ≤ 0xffff then _ else _) = _
  rw [if_neg (by omega), if_neg (by omega), if_neg (Nat.not_le_of_lt low)]
  rfl

end

theorem continuations_two : ∀ n < 32, 2 ≤ n → continuations (n + 192) = [(0x80, 0xbf)] := by
  decide

theorem continuations_three : ∀ n < 16, continuations (n + 224) =
    [if n = 0 then (0xa0, 0xbf) else if n = 13 then (0x80, 0x9f) else (0x80, 0xbf),
      (0x80, 0xbf)] := by
  decide

theorem continuations_four : ∀ n < 5, continuations (n + 240) =
    [if n = 0 then (0x90, 0xbf) else if n = 4 then (0x80, 0x8f) else (0x80, 0xbf), (0x80, 0xbf),
      (0x80, 0xbf)] := by
  decide

theorem matching_ofNat {range : Nat × Nat} {ranges : List (Nat × Nat)} {n : Nat}
    {bs : List UInt8} (hn : n < 256) (hr : range.1 ≤ n ∧ n ≤ range.2) :
    matching (range :: ranges) (.ofNat n :: bs) = matching ranges bs + 1 := by
  rw [← UInt8.toNat_ofNat_of_lt' hn] at hr
  exact if_pos hr

structure Spells (c : Char) (b : UInt8) (others : List UInt8) : Prop where
  first : 0x80 ≤ b.toNat
  ranges : continuations b.toNat ≠ []
  length : (continuations b.toNat).length = others.length
  matching : ∀ bs, matching (continuations b.toNat) (others ++ bs) = others.length
  spelled : spelled b.toNat others = c

theorem exists_spells {c : Char} (h : 0x7f < c.toNat) :
    ∃ b others, String.utf8EncodeChar c = b :: others ∧ Spells c b others := by
  have valid : c.toNat < 0xd800 ∨ 0xdfff < c.toNat ∧ c.toNat < 0x110000 := c.valid
  have ofNat {n : Nat} (hn : n = c.toNat) : Char.ofNat n = c := by rw [hn, Char.ofNat_toNat]
  have toNat {n : Nat} (hn : n < 256) : (UInt8.ofNat n).toNat = n := UInt8.toNat_ofNat_of_lt' hn
  have low (n : Nat) : n % 64 + 128 < 256 := by omega
  generalize hv : c.toNat = v at *
  by_cases two : v ≤ 0x7ff
  · have first := toNat (n := v / 64 % 32 + 192) (by omega)
    have ranges := continuations_two (v / 64 % 32) (by omega) (by omega)
    rw [← first] at ranges
    refine ⟨_, _, encodeChar_two hv h two, by omega, ranges ▸ List.cons_ne_nil _ _, ranges ▸ rfl,
      fun bs => ?_, ofNat ?_⟩
    · rw [ranges, List.cons_append, matching_ofNat (low _) (by omega)]
      rfl
    · simp only [first, toNat (low _), List.foldl_cons, List.foldl_nil, List.length_singleton]
      omega
  by_cases three : v ≤ 0xffff
  · have first := toNat (n := v / 4096 % 16 + 224) (by omega)
    have ranges := continuations_three (v / 4096 % 16) (by omega)
    rw [← first] at ranges
    refine ⟨_, _, encodeChar_three hv (by omega) three, by omega, ranges ▸ List.cons_ne_nil _ _,
      ranges ▸ rfl, fun bs => ?_, ofNat ?_⟩
    · rw [ranges, List.cons_append, List.cons_append,
        matching_ofNat (low _) (by split_ifs <;> dsimp only <;> omega),
        matching_ofNat (low _) (by omega)]
      rfl
    · simp only [first, toNat (low _), List.foldl_cons, List.foldl_nil, List.length_cons,
        List.length_nil]
      omega
  · have first := toNat (n := v / 262144 % 8 + 240) (by omega)
    have ranges := continuations_four (v / 262144 % 8) (by omega)
    rw [← first] at ranges
    refine ⟨_, _, encodeChar_four hv (by omega), by omega, ranges ▸ List.cons_ne_nil _ _,
      ranges ▸ rfl, fun bs => ?_, ofNat ?_⟩
    · rw [ranges, List.cons_append, List.cons_append, List.cons_append,
        matching_ofNat (low _) (by split_ifs <;> dsimp only <;> omega),
        matching_ofNat (low _) (by omega), matching_ofNat (low _) (by omega)]
      rfl
    · simp only [first, toNat (low _), List.foldl_cons, List.foldl_nil, List.length_cons,
        List.length_nil]
      omega

theorem exists_single {c : Char} (h : c.toNat ≤ 0x7f) :
    ∃ b, String.utf8EncodeChar c = [b] ∧ b.toNat = c.toNat :=
  ⟨_, encodeChar_one rfl h, UInt8.toNat_ofNat_of_lt' (Nat.lt_of_le_of_lt h (by decide))⟩

theorem decode_append (c : Char) (bs : List UInt8) :
    decode (String.utf8EncodeChar c ++ bs) = c :: decode bs := by
  by_cases h : c.toNat ≤ 0x7f
  · obtain ⟨b, he, hb⟩ := exists_single h
    rw [he, List.singleton_append, decode, hb, if_pos (Nat.lt_succ_of_le h), Char.ofNat_toNat]
  · obtain ⟨b, others, he, hs⟩ := exists_spells (Nat.lt_of_not_le h)
    rw [he, List.cons_append, decode, if_neg (Nat.not_lt.2 hs.first)]
    simp only [hs.matching, hs.length, hs.ranges, hs.spelled, List.take_left, List.drop_left,
      ne_eq, not_false_eq_true, and_self, if_true]

theorem faultFrom_skip (others bs : List UInt8) (place : Nat) :
    faultFrom place others.length (others ++ bs) = faultFrom (place + others.length) 0 bs := by
  induction others generalizing place with
  | nil => rfl
  | cons b others ih =>
    rw [List.cons_append, List.length_cons, faultFrom, ih, Nat.add_assoc, Nat.add_comm 1]

theorem exists_faultFrom_append (c : Char) (bs : List UInt8) (place : Nat) :
    ∃ place', faultFrom place 0 (String.utf8EncodeChar c ++ bs) = faultFrom place' 0 bs := by
  by_cases h : c.toNat ≤ 0x7f
  · obtain ⟨b, he, hb⟩ := exists_single h
    refine ⟨place + 1, ?_⟩
    rw [he, List.singleton_append, faultFrom, hb, if_pos (Nat.lt_succ_of_le h)]
  · obtain ⟨b, others, he, hs⟩ := exists_spells (Nat.lt_of_not_le h)
    refine ⟨place + 1 + others.length, ?_⟩
    rw [he, List.cons_append, faultFrom, if_neg (Nat.not_lt.2 hs.first)]
    simp only [hs.matching, hs.length, hs.ranges, ne_eq, not_false_eq_true, and_self, if_true,
      faultFrom_skip]

theorem faultFrom_flatMap (cs : List Char) (place : Nat) :
    faultFrom place 0 (cs.flatMap String.utf8EncodeChar) = none := by
  induction cs generalizing place with
  | nil => rfl
  | cons c cs ih =>
    obtain ⟨place', h⟩ := exists_faultFrom_append c (cs.flatMap String.utf8EncodeChar) place
    rw [List.flatMap_cons, h, ih]

theorem decode_flatMap (cs : List Char) : decode (cs.flatMap String.utf8EncodeChar) = cs := by
  induction cs with
  | nil => rw [List.flatMap_nil, decode]
  | cons c cs ih => rw [List.flatMap_cons, decode_append, ih]

theorem fault?_encode (s : String) : fault? (encode s) = none := by
  rw [← String.ofList_toList (s := s), encode_ofList]
  exact faultFrom_flatMap _ _

theorem text_encode (s : String) : text (encode s) = s := by
  rw [text, ← String.ofList_toList (s := s), encode_ofList, decode_flatMap]

theorem ofNat_eq {n : Nat} {b : UInt8} (h : n = b.toNat) : UInt8.ofNat n = b := by
  rw [h, UInt8.ofNat_toNat]

theorem exists_toNat_eq {v : Nat} (hv : v < 0xd800 ∨ 0xdfff < v ∧ v < 0x110000) :
    ∃ c : Char, c.toNat = v :=
  ⟨Char.ofNatAux v hv, rfl⟩

section

variable {b x y z : UInt8}

theorem exists_two (hb : 0xc2 ≤ b.toNat ∧ b.toNat < 0xe0)
    (hx : 0x80 ≤ x.toNat ∧ x.toNat ≤ 0xbf) : ∃ c, String.utf8EncodeChar c = [b, x] := by
  obtain ⟨c, hc⟩ := exists_toNat_eq (v := 64 * (b.toNat % 32) + x.toNat % 64) (by omega)
  refine ⟨c, ?_⟩
  rw [encodeChar_two hc (by omega) (by omega), ofNat_eq (b := b) (by omega),
    ofNat_eq (b := x) (by omega)]

theorem exists_three (hb : 0xe0 ≤ b.toNat ∧ b.toNat < 0xf0)
    (hx : 0x80 ≤ x.toNat ∧ x.toNat ≤ 0xbf) (least : b.toNat = 0xe0 → 0xa0 ≤ x.toNat)
    (surrogate : b.toNat = 0xed → x.toNat ≤ 0x9f) (hy : 0x80 ≤ y.toNat ∧ y.toNat ≤ 0xbf) :
    ∃ c, String.utf8EncodeChar c = [b, x, y] := by
  obtain ⟨c, hc⟩ := exists_toNat_eq
    (v := 64 * (64 * (b.toNat % 16) + x.toNat % 64) + y.toNat % 64) (by omega)
  refine ⟨c, ?_⟩
  rw [encodeChar_three hc (by omega) (by omega), ofNat_eq (b := b) (by omega),
    ofNat_eq (b := x) (by omega), ofNat_eq (b := y) (by omega)]

theorem exists_four (hb : 0xf0 ≤ b.toNat ∧ b.toNat ≤ 0xf4)
    (hx : 0x80 ≤ x.toNat ∧ x.toNat ≤ 0xbf) (least : b.toNat = 0xf0 → 0x90 ≤ x.toNat)
    (greatest : b.toNat = 0xf4 → x.toNat ≤ 0x8f) (hy : 0x80 ≤ y.toNat ∧ y.toNat ≤ 0xbf)
    (hz : 0x80 ≤ z.toNat ∧ z.toNat ≤ 0xbf) : ∃ c, String.utf8EncodeChar c = [b, x, y, z] := by
  obtain ⟨c, hc⟩ := exists_toNat_eq
    (v := 64 * (64 * (64 * (b.toNat % 8) + x.toNat % 64) + y.toNat % 64) + z.toNat % 64)
    (by omega)
  refine ⟨c, ?_⟩
  rw [encodeChar_four hc (by omega), ofNat_eq (b := b) (by omega), ofNat_eq (b := x) (by omega),
    ofNat_eq (b := y) (by omega), ofNat_eq (b := z) (by omega)]

end

theorem exists_forall₂_of_matching {ranges : List (Nat × Nat)} {bs : List UInt8}
    (h : matching ranges bs = ranges.length) : ∃ others rest, bs = others ++ rest ∧
      List.Forall₂ (fun range b => range.1 ≤ b.toNat ∧ b.toNat ≤ range.2) ranges others := by
  induction ranges generalizing bs with
  | nil => exact ⟨[], bs, rfl, .nil⟩
  | cons range ranges ih =>
    cases bs with
    | nil => cases h
    | cons b bs =>
      rw [matching] at h
      split_ifs at h with hb
      obtain ⟨others, rest, rfl, hs⟩ := ih (Nat.succ.inj h)
      exact ⟨b :: others, rest, rfl, .cons hb hs⟩

theorem exists_encodeChar {b : UInt8} {others : List UInt8} (hb : continuations b.toNat ≠ [])
    (h : List.Forall₂ (fun range b => range.1 ≤ b.toNat ∧ b.toNat ≤ range.2)
      (continuations b.toNat) others) : ∃ c, String.utf8EncodeChar c = b :: others := by
  rw [continuations] at h hb
  split_ifs at h hb
  all_goals first | exact absurd rfl hb | obtain _ | ⟨hx, _ | ⟨hy, _ | ⟨hz, _ | _⟩⟩⟩ := h
  all_goals dsimp only at *
  · exact exists_two (by omega) hx
  · exact exists_three (by omega) (by omega) (by omega) (by omega) hy
  · exact exists_three (by omega) (by omega) (by omega) (by omega) hy
  · exact exists_three (by omega) (by omega) (by omega) (by omega) hy
  · exact exists_four (by omega) (by omega) (by omega) (by omega) hy hz
  · exact exists_four (by omega) (by omega) (by omega) (by omega) hy hz
  · exact exists_four (by omega) (by omega) (by omega) (by omega) hy hz

theorem exists_flatMap_of_faultFrom (place : Nat) (bs : List UInt8)
    (h : faultFrom place 0 bs = none) :
    ∃ cs : List Char, bs = cs.flatMap String.utf8EncodeChar := by
  cases bs with
  | nil => exact ⟨[], rfl⟩
  | cons b bs =>
    rw [faultFrom] at h
    dsimp only at h
    split_ifs at h with hb hm
    · obtain ⟨c, hc⟩ := exists_toNat_eq (v := b.toNat) (by omega)
      obtain ⟨cs, rfl⟩ := exists_flatMap_of_faultFrom (place + 1) bs h
      refine ⟨c :: cs, ?_⟩
      rw [List.flatMap_cons, encodeChar_one hc (by omega), UInt8.ofNat_toNat]
      rfl
    · obtain ⟨others, rest, rfl, hs⟩ := exists_forall₂_of_matching hm.2
      obtain ⟨c, hc⟩ := exists_encodeChar hm.1 hs
      rw [hm.2, hs.length_eq, faultFrom_skip] at h
      obtain ⟨cs, rfl⟩ := exists_flatMap_of_faultFrom _ rest h
      exact ⟨c :: cs, by rw [List.flatMap_cons, hc]; rfl⟩
termination_by bs.length

theorem fault?_eq_none_iff {bs : List UInt8} : fault? bs = none ↔ ∃ s, encode s = bs := by
  constructor
  · intro h
    obtain ⟨cs, rfl⟩ := exists_flatMap_of_faultFrom 0 bs h
    exact ⟨String.ofList cs, encode_ofList cs⟩
  · rintro ⟨s, rfl⟩
    exact fault?_encode s

end Utf8

namespace Value

theorem ofUtf8_eq_text_iff {bs : List UInt8} {s : String} :
    ofUtf8 bs = text s ↔ Utf8.encode s = bs := by
  unfold ofUtf8
  split_ifs with h
  · refine iff_of_false not_false fun he => ?_
    rw [Utf8.fault?_eq_none_iff.2 ⟨s, he⟩] at h
    cases h
  · obtain ⟨t, rfl⟩ := Utf8.fault?_eq_none_iff.1 (Option.not_isSome_iff_eq_none.1 h)
    rw [Utf8.text_encode, text.injEq, Utf8.encode_inj, eq_comm]

end Value

theorem Garbled.encode_ne (g : Garbled) (s : String) : Utf8.encode s ≠ g.bytes := fun h => by
  have faulty := g.isFaulty
  rw [Utf8.fault?_eq_none_iff.2 ⟨s, h⟩] at faulty
  cases faulty

end Lexiquery
