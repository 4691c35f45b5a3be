import Mathlib.Data.List.DropRight
import Lexiquery.Shell.Command

/-! Which lines are which commands. A line is a word and what stands behind it; the word decides
what may follow, and a line that is nothing else is unknown as a whole. -/

namespace Lexiquery

def Gap (cs : List Char) : Prop := cs ≠ [] ∧ ∀ c ∈ cs, isBlank c = true

def Leads (word : String) (cs : List Char) : Prop :=
  ∃ rest, cs = word.toList ++ rest ∧ ∀ c ∈ rest.head?, isBlank c = true

theorem not_blank_of_all {word : String} (h : word.toList.all (!isBlank ·) = true) :
    ∀ c ∈ word.toList, isBlank c = false := by
  simpa using h

theorem trim_eq (cs : List Char) : trim cs = (cs.dropWhile isBlank).rdropWhile isBlank := rfl

theorem trim_eq_nil_iff {cs : List Char} : trim cs = [] ↔ ∀ c ∈ cs, isBlank c = true := by
  rw [trim_eq, List.rdropWhile_eq_nil_iff]
  refine ⟨fun h c hc => ?_, fun h c hc => h c ((List.dropWhile_suffix _).subset hc)⟩
  rw [← List.takeWhile_append_dropWhile (p := isBlank) (l := cs), List.mem_append] at hc
  exact hc.elim List.mem_takeWhile_imp (h c)

theorem trim_append {gap : List Char} (h : ∀ c ∈ gap, isBlank c = true) (cs : List Char) :
    trim (gap ++ cs) = trim cs := by
  rw [trim_eq, trim_eq, List.dropWhile_append_of_pos h]

theorem head?_trim (cs : List Char) : ∀ c ∈ (trim cs).head?, isBlank c = false := by
  intro c hc
  obtain ⟨rest, hr⟩ : trim cs <+: cs.dropWhile isBlank := List.rdropWhile_prefix _ _
  have front : (cs.dropWhile isBlank).head? = some c := by
    rw [← hr, List.head?_append, Option.mem_def.1 hc, Option.some_or]
  have := List.head?_dropWhile_not isBlank cs
  rwa [front] at this

theorem getLast?_trim (cs : List Char) : ∀ c ∈ (trim cs).getLast?, isBlank c = false := by
  intro c hc
  have hn : trim cs ≠ [] := by
    rintro h
    simp [h] at hc
  have last := List.rdropWhile_last_not isBlank (cs.dropWhile isBlank) hn
  rw [Option.mem_def, List.getLast?_eq_some_getLast hn, Option.some.injEq] at hc
  exact hc ▸ Bool.eq_false_iff.2 last

theorem trim_trim (cs : List Char) : trim (trim cs) = trim cs := by
  have front : (trim cs).dropWhile isBlank = trim cs := by
    cases h : trim cs with
    | nil => rfl
    | cons c rest =>
      have hc : isBlank c = false := head?_trim cs c (by simp [h])
      rw [List.dropWhile_cons_of_neg (by simp [hc])]
  rw [trim_eq (trim cs), front, trim_eq, List.rdropWhile_idempotent]

theorem trim_ne_nil_of_append {cs word rest : List Char} (h : trim cs = word ++ rest)
    (hr : rest ≠ []) : trim rest ≠ [] := by
  intro ht
  have last := rest.getLast_mem hr
  have blank := trim_eq_nil_iff.1 ht _ last
  have hc := getLast?_trim cs (rest.getLast hr) (by
    rw [h, List.getLast?_append_of_ne_nil _ hr, List.getLast?_eq_some_getLast hr, Option.mem_def])
  rw [blank] at hc
  cases hc

theorem splitHead_eq_iff {cs word rest : List Char} : splitHead cs = (word, rest) ↔
    (∀ c ∈ word, isBlank c = false) ∧
      ∃ tail, cs = word ++ tail ∧ (∀ c ∈ tail.head?, isBlank c = true) ∧ trim tail = rest := by
  constructor
  · rintro h
    obtain ⟨rfl, rfl⟩ := Prod.mk.inj h
    refine ⟨fun c hc => by simpa using List.mem_takeWhile_imp hc,
      _, List.takeWhile_append_dropWhile.symm, fun c hc => ?_, rfl⟩
    have := List.head?_dropWhile_not (!isBlank ·) cs
    rw [Option.mem_def.1 hc] at this
    simpa using this
  · rintro ⟨hw, tail, rfl, ht, rfl⟩
    have positive : ∀ c ∈ word, (!isBlank c) = true := fun c hc => by simp [hw c hc]
    have stop : tail.takeWhile (!isBlank ·) = [] ∧ tail.dropWhile (!isBlank ·) = tail := by
      cases tail with
      | nil => exact ⟨rfl, rfl⟩
      | cons c tail =>
        have hc : isBlank c = true := ht c rfl
        simp [hc]
    rw [splitHead, List.takeWhile_append_of_pos positive, List.dropWhile_append_of_pos positive,
      stop.1, stop.2, List.append_nil]

theorem splitHead_fst_eq_iff {cs : List Char} {word : String}
    (hw : ∀ c ∈ word.toList, isBlank c = false) :
    (splitHead cs).1 = word.toList ↔ Leads word cs := by
  constructor
  · intro h
    obtain ⟨-, tail, hc, ht, -⟩ := splitHead_eq_iff.1 (Prod.ext h rfl : splitHead cs = (_, _))
    exact ⟨tail, hc, ht⟩
  · rintro ⟨tail, hc, ht⟩
    rw [splitHead_eq_iff.2 ⟨hw, tail, hc, ht, rfl⟩]

theorem splitHead_eq_iff_gap {cs : List Char} {word : String} {rest : List Char}
    (hw : ∀ c ∈ word.toList, isBlank c = false) (hr : rest ≠ []) :
    splitHead cs = (word.toList, rest) ↔
      ∃ gap behind, Gap gap ∧ cs = word.toList ++ gap ++ behind ∧ trim behind = rest := by
  rw [splitHead_eq_iff]
  constructor
  · rintro ⟨-, tail, rfl, ht, rfl⟩
    cases tail with
    | nil => exact absurd rfl hr
    | cons c tail =>
      have blank : ∀ d ∈ [c], isBlank d = true := by simpa using ht c rfl
      exact ⟨[c], tail, ⟨by simp, blank⟩, by simp, (trim_append blank tail).symm⟩
  · rintro ⟨gap, behind, ⟨hg, blank⟩, rfl, rfl⟩
    refine ⟨hw, gap ++ behind, List.append_assoc .., fun c hc => ?_, trim_append blank behind⟩
    rw [List.head?_append_of_ne_nil _ hg] at hc
    exact blank c (List.mem_of_mem_head? hc)

theorem splitHead_trim_eq_nil_iff {cs : List Char} {word : String}
    (hw : ∀ c ∈ word.toList, isBlank c = false) :
    splitHead (trim cs) = (word.toList, []) ↔ trim cs = word.toList := by
  rw [splitHead_eq_iff]
  constructor
  · rintro ⟨-, tail, hc, -, ht⟩
    cases tail with
    | nil => rwa [List.append_nil] at hc
    | cons c tail => exact absurd ht (trim_ne_nil_of_append hc (List.cons_ne_nil _ _))
  · intro h
    exact ⟨hw, [], by simpa using h, nofun, rfl⟩

namespace Relative

theorem keyword_not_blank (r : Relative) : ∀ c ∈ r.keyword.toList, isBlank c = false := by
  cases r <;> exact not_blank_of_all rfl

end Relative

namespace Lookup

theorem parse?_eq_some_iff {cs : List Char} {l : Lookup} : parse? cs = some l ↔
    splitHead cs = (l.relative.keyword.toList, l.spelling.toList) ∧ l.spelling.toList ≠ [] := by
  have found {head : List Char} {r : Relative} :
      Relative.all.find? (·.keyword.toList == head) = some r ↔ head = r.keyword.toList := by
    constructor
    · intro h
      have : r.keyword.toList = head := by simpa using List.find?_some h
      exact this.symm
    · rintro rfl
      cases r <;> decide
  obtain ⟨r, w⟩ := l
  rw [parse?]
  cases splitHead cs with
  | mk head rest =>
    simp only [List.isEmpty_iff, Prod.mk.injEq]
    split
    · rename_i hr
      constructor
      · nofun
      · rintro ⟨⟨-, rfl⟩, hw⟩
        exact absurd hr hw
    · rename_i hr
      simp only [Option.map_eq_some_iff, found, mk.injEq]
      constructor
      · rintro ⟨s, hs, rfl, rfl⟩
        exact ⟨⟨hs, String.toList_ofList.symm⟩, by rwa [String.toList_ofList]⟩
      · rintro ⟨⟨hs, rfl⟩, -⟩
        exact ⟨r, hs, rfl, String.ofList_toList⟩

theorem parse?_eq_none {cs : List Char} (h : ∀ r : Relative, (splitHead cs).1 ≠ r.keyword.toList) :
    parse? cs = none := by
  rw [Option.eq_none_iff_forall_ne_some]
  intro l hl
  exact h l.relative (congrArg Prod.fst (parse?_eq_some_iff.1 hl).1)

end Lookup

namespace Command

/-- What the first word of a line and the rest make of it, unless it is unknown. -/
inductive Means (cs : List Char) : Command → Prop
  | lookup {l : Lookup} : Lookup.parse? cs = some l → Means cs (.lookup l)
  | explain {l : Lookup} : (splitHead cs).1 = "explain".toList →
    Lookup.parse? (splitHead cs).2 = some l → Means cs (.explain l)
  | metrics : splitHead cs = ("metrics".toList, []) → Means cs .metrics
  | help {word : String} : word ∈ ["help", "?"] → (splitHead cs).1 = word.toList → Means cs .help
  | quit {word : String} : word ∈ ["quit", "exit"] → (splitHead cs).1 = word.toList → Means cs .quit
  | empty : (splitHead cs).1 = [] → Means cs .empty

variable {cs : List Char} {c : Command}

theorem parse?_eq_none_of_word {word : String} (h : (splitHead cs).1 = word.toList)
    (hw : ∀ r : Relative, word ≠ r.keyword) : Lookup.parse? cs = none := by
  refine Lookup.parse?_eq_none fun r hr => hw r ?_
  rw [← String.toList_inj, ← h, hr]

theorem parseTrimmed_explain (h : (splitHead cs).1 = "explain".toList) :
    parseTrimmed cs =
      (Lookup.parse? (splitHead cs).2).elim (.unknown (String.ofList cs)) .explain := by
  rw [parseTrimmed]
  simp only [parse?_eq_none_of_word h nofun, h, String.ofList_toList]

theorem Means.parseTrimmed_eq (h : Means cs c) : parseTrimmed cs = c := by
  cases h with
  | lookup hl => simp only [parseTrimmed, hl]
  | explain hw hl => rw [parseTrimmed_explain hw, hl, Option.elim]
  | metrics hs =>
    have hw : (splitHead cs).1 = "metrics".toList := congrArg Prod.fst hs
    have hl := parse?_eq_none_of_word hw nofun
    simp only [parseTrimmed, hl, hs, String.ofList_toList, List.isEmpty_nil, if_true]
  | help hm hw =>
    obtain rfl | rfl : _ = "help" ∨ _ = "?" := by simpa using hm
    all_goals
      have hl := parse?_eq_none_of_word hw nofun
      simp only [parseTrimmed, hl, hw, String.ofList_toList]
  | quit hm hw =>
    obtain rfl | rfl : _ = "quit" ∨ _ = "exit" := by simpa using hm
    all_goals
      have hl := parse?_eq_none_of_word hw nofun
      simp only [parseTrimmed, hl, hw, String.ofList_toList]
  | empty hw =>
    have none : (splitHead cs).1 = "".toList := hw
    have hl := parse?_eq_none_of_word none nofun
    simp only [parseTrimmed, hl, hw]

theorem means_or_unknown (cs : List Char) :
    Means cs (parseTrimmed cs) ∨ parseTrimmed cs = .unknown (String.ofList cs) := by
  have word {w : String} (h : String.ofList (splitHead cs).1 = w) :
      (splitHead cs).1 = w.toList := by
    rw [← h, String.toList_ofList]
  rw [parseTrimmed]
  dsimp only
  cases hl : Lookup.parse? cs with
  | some l => exact .inl (.lookup hl)
  | none =>
    dsimp only
    split
    case h_1 h => exact .inl (.empty (word h))
    case h_2 h =>
      cases hr : Lookup.parse? (splitHead cs).2 with
      | none => exact .inr rfl
      | some l => exact .inl (.explain (word h) hr)
    case h_3 h =>
      split
      · rename_i he
        exact .inl (.metrics (Prod.ext (word h) (List.isEmpty_iff.1 he)))
      · exact .inr rfl
    case h_4 h => exact .inl (.help (by simp) (word h))
    case h_5 h => exact .inl (.help (by simp) (word h))
    case h_6 h => exact .inl (.quit (by simp) (word h))
    case h_7 h => exact .inl (.quit (by simp) (word h))
    case h_8 => exact .inr rfl

theorem parseTrimmed_eq_iff (h : ∀ w, c ≠ .unknown w) : parseTrimmed cs = c ↔ Means cs c := by
  refine ⟨?_, Means.parseTrimmed_eq⟩
  rintro rfl
  exact (means_or_unknown cs).resolve_right (h _)

theorem parseTrimmed_eq_lookup_iff {l : Lookup} :
    parseTrimmed cs = .lookup l ↔ Lookup.parse? cs = some l := by
  rw [parseTrimmed_eq_iff (by simp)]
  exact ⟨fun | .lookup hl => hl, .lookup⟩

theorem parse_ofList (cs : List Char) : parse (String.ofList cs) = parseTrimmed (trim cs) := by
  rw [parse, String.toList_ofList]

variable {line : String}

theorem parse_trim (line : String) : parse (String.ofList (trim line.toList)) = parse line := by
  rw [parse_ofList, trim_trim, parse]

theorem parse_eq_lookup_iff {r : Relative} {w : String} : parse line = .lookup ⟨r, w⟩ ↔
    ∃ gap rest, Gap gap ∧ rest ≠ [] ∧ trim line.toList = r.keyword.toList ++ gap ++ rest ∧
      trim rest = w.toList := by
  rw [parse, parseTrimmed_eq_lookup_iff, Lookup.parse?_eq_some_iff]
  constructor
  · rintro ⟨hs, hw⟩
    obtain ⟨gap, rest, hg, hc, hr⟩ := (splitHead_eq_iff_gap r.keyword_not_blank hw).1 hs
    refine ⟨gap, rest, hg, ?_, hc, hr⟩
    rintro rfl
    exact hw hr.symm
  · rintro ⟨gap, rest, hg, hn, hc, hr⟩
    have hw : w.toList ≠ [] := hr ▸ trim_ne_nil_of_append hc hn
    exact ⟨(splitHead_eq_iff_gap r.keyword_not_blank hw).2 ⟨gap, rest, hg, hc, hr⟩, hw⟩

theorem parse_eq_explain_iff {l : Lookup} : parse line = .explain l ↔
    ∃ gap rest, Gap gap ∧ trim line.toList = "explain".toList ++ gap ++ rest ∧
      parse (String.ofList rest) = .lookup l := by
  have word : ∀ c ∈ "explain".toList, isBlank c = false := not_blank_of_all rfl
  simp only [parse_ofList, parseTrimmed_eq_lookup_iff]
  rw [parse, parseTrimmed_eq_iff (by simp)]
  constructor
  · intro h
    cases h with
    | explain hw hl =>
      have hr : (splitHead (trim line.toList)).2 ≠ [] := by
        intro h
        rw [h] at hl
        cases hl
      obtain ⟨gap, rest, hg, hc, ht⟩ := (splitHead_eq_iff_gap word hr).1 (Prod.ext hw rfl)
      exact ⟨gap, rest, hg, hc, ht ▸ hl⟩
  · rintro ⟨gap, rest, hg, hc, hl⟩
    have hr : trim rest ≠ [] := by
      intro h
      rw [h] at hl
      cases hl
    have hs := (splitHead_eq_iff_gap word hr).2 ⟨gap, rest, hg, hc, rfl⟩
    exact .explain (by rw [hs]) (by rw [hs]; exact hl)

theorem parse_eq_unknown_of_explain_explain {gap rest : List Char} (hg : Gap gap)
    (hc : trim line.toList = "explain".toList ++ gap ++ rest) (hr : Leads "explain" (trim rest)) :
    parse line = .unknown (String.ofList (trim line.toList)) := by
  have word : ∀ c ∈ "explain".toList, isBlank c = false := not_blank_of_all rfl
  have inner := (splitHead_fst_eq_iff word).2 hr
  have hn : trim rest ≠ [] := by
    intro h
    rw [h] at inner
    cases inner
  have hs := (splitHead_eq_iff_gap word hn).2 ⟨gap, rest, hg, hc, rfl⟩
  rw [parse, parseTrimmed_explain (by rw [hs]), hs, parse?_eq_none_of_word inner nofun]
  rfl

theorem parse_eq_empty_iff : parse line = .empty ↔ ∀ c ∈ line.toList, isBlank c = true := by
  rw [parse, parseTrimmed_eq_iff (by simp), ← trim_eq_nil_iff]
  refine ⟨fun | .empty hw => ?_, fun h => .empty (by rw [h]; rfl)⟩
  cases ht : trim line.toList with
  | nil => rfl
  | cons c rest =>
    have hc : isBlank c = false := head?_trim line.toList c (by simp [ht])
    simp [ht, splitHead, hc] at hw

theorem parse_eq_metrics_iff : parse line = .metrics ↔ trim line.toList = "metrics".toList := by
  rw [parse, parseTrimmed_eq_iff (by simp),
    ← splitHead_trim_eq_nil_iff (not_blank_of_all rfl)]
  exact ⟨fun | .metrics hs => hs, .metrics⟩

theorem parse_eq_help_iff : parse line = .help ↔
    Leads "help" (trim line.toList) ∨ Leads "?" (trim line.toList) := by
  rw [parse, parseTrimmed_eq_iff (by simp), ← splitHead_fst_eq_iff (not_blank_of_all rfl),
    ← splitHead_fst_eq_iff (not_blank_of_all rfl)]
  constructor
  · intro h
    cases h with
    | help hm hw =>
      obtain rfl | rfl : _ = "help" ∨ _ = "?" := by simpa using hm
      · exact .inl hw
      · exact .inr hw
  · rintro (hw | hw)
    · exact .help (by simp) hw
    · exact .help (by simp) hw

theorem parse_eq_quit_iff : parse line = .quit ↔
    Leads "quit" (trim line.toList) ∨ Leads "exit" (trim line.toList) := by
  rw [parse, parseTrimmed_eq_iff (by simp), ← splitHead_fst_eq_iff (not_blank_of_all rfl),
    ← splitHead_fst_eq_iff (not_blank_of_all rfl)]
  constructor
  · intro h
    cases h with
    | quit hm hw =>
      obtain rfl | rfl : _ = "quit" ∨ _ = "exit" := by simpa using hm
      · exact .inl hw
      · exact .inr hw
  · rintro (hw | hw)
    · exact .quit (by simp) hw
    · exact .quit (by simp) hw

/-- Blanks at the ends of a line do not count. A line is a lookup if a blank and something else
stand behind its keyword, and the explanation of a lookup if that is one; it is empty if all of it
is blank, asks for metrics if the word stands alone, and for help or the end whatever stands behind
the word. Any other line is unknown, all of it but the blanks at its ends. -/
theorem parse_reads (line : String) :
    parse line = parse (String.ofList (trim line.toList)) ∧
    (∀ r w, parse line = .lookup ⟨r, w⟩ ↔ ∃ gap rest, Gap gap ∧ rest ≠ [] ∧
      trim line.toList = r.keyword.toList ++ gap ++ rest ∧ trim rest = w.toList) ∧
    (∀ l, parse line = .explain l ↔ ∃ gap rest, Gap gap ∧
      trim line.toList = "explain".toList ++ gap ++ rest ∧
      parse (String.ofList rest) = .lookup l) ∧
    (∀ gap rest, Gap gap → trim line.toList = "explain".toList ++ gap ++ rest →
      Leads "explain" (trim rest) → parse line = .unknown (String.ofList (trim line.toList))) ∧
    (parse line = .empty ↔ ∀ c ∈ line.toList, isBlank c = true) ∧
    (parse line = .metrics ↔ trim line.toList = "metrics".toList) ∧
    (parse line = .help ↔ Leads "help" (trim line.toList) ∨ Leads "?" (trim line.toList)) ∧
    (parse line = .quit ↔ Leads "quit" (trim line.toList) ∨ Leads "exit" (trim line.toList)) ∧
    ((∀ l, parse line ≠ .lookup l) → (∀ l, parse line ≠ .explain l) → parse line ≠ .empty →
      parse line ≠ .metrics → parse line ≠ .help → parse line ≠ .quit →
      parse line = .unknown (String.ofList (trim line.toList))) := by
  refine ⟨(parse_trim line).symm, fun _ _ => parse_eq_lookup_iff, fun _ => parse_eq_explain_iff,
    fun _ _ => parse_eq_unknown_of_explain_explain, parse_eq_empty_iff, parse_eq_metrics_iff,
    parse_eq_help_iff, parse_eq_quit_iff, fun hl he hn hm hh hq => ?_⟩
  refine (means_or_unknown (trim line.toList)).resolve_left fun means => ?_
  have read : parseTrimmed (trim line.toList) = parse line := rfl
  rw [read] at means
  cases h : parse line with
  | lookup l => exact hl l h
  | explain l => exact he l h
  | metrics => exact hm h
  | help => exact hh h
  | quit => exact hq h
  | empty => exact hn h
  | unknown w =>
    rw [h] at means
    cases means

example : parse " explain  explain rhymes dog " = .unknown "explain  explain rhymes dog" := by
  decide +kernel

end Command

end Lexiquery
