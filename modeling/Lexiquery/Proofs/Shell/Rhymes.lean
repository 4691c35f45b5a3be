import Mathlib.Data.List.Perm.Subperm
import Mathlib.Data.Set.List
import Lexiquery.Proofs.Entity.Converse
import Lexiquery.Proofs.Query.Relatives
import Lexiquery.Proofs.Query.Sharing
import Lexiquery.Shell.Reply

/-! What the shell answers when it is asked for rhymes: the forms that rhyme with a spelling, unless
the spelling has so many pronunciations that one select cannot join them all. -/

namespace Lexiquery

structure Store.Sounds (store : Store) (f : Form) (p : Pronunciation) : Prop where
  form : store.Has (.form f)
  pronunciation : store.Has (.pronunciation p)
  linked : store.Associates "forms_pronunciations"
    [("form_id", f.id), ("pronunciation_id", p.id)]

/-- Whether another pronunciation ends like this one and, if this one has an onset to go by, begins
otherwise. -/
def Pronunciation.RhymesWith (p q : Pronunciation) : Prop :=
  (∃ s, p.rhyme = some s ∧ q.rhyme = some s) ∧ q.id ≠ p.id ∧
    ∀ onset ∈ p.prerhyme, ∃ onset' ∈ q.prerhyme, onset' ≠ onset

def Store.Rhymes (store : Store) (text : String) (f : Form) : Prop :=
  ∃ q, store.Sounds f q ∧ ∃ p g, g.text = text ∧ store.Sounds g p ∧ p.RhymesWith q

/-! ## The alternatives -/

namespace Pronunciation

variable (p : Pronunciation) (rhyme : String)

theorem alternative_rhymeTests :
    (Filter.group .and (p.rhymeTests rhyme)).Alternative .form Schema.Form.pronunciations where
  wellFormed := (p.askable_rhymeTests rhyme).wellFormed
  overSchema := (p.askable_rhymeTests rhyme).overSchema
  scalar := .group ((p.forall_rhymeTests rhyme).2 ⟨.test rfl, .test rfl, fun _ _ => .test rfl⟩)
  compacted := by
    rw [← p.resolve_rhymeTests]
    exact Filter.compacted_resolve _ _
  normalize_eq := by
    refine Filter.normalize_tests rfl ((p.forall_rhymeTests rhyme).2 ?_)
    exact ⟨⟨_, _, rfl, rfl⟩, ⟨_, _, rfl, rfl⟩, fun _ _ => ⟨_, _, rfl, rfl⟩⟩
  low a n := by
    unfold rhymeTests
    cases p.prerhyme with
    | none => change 4 < 6; decide
    | some onset => change 5 < 6; decide
  few := by
    unfold rhymeTests
    cases p.prerhyme <;> exact of_decide_eq_true rfl
  brief := (p.askable_rhymeTests rhyme).brief

end Pronunciation

/-! ## The pronunciations of a spelling -/

theorem Store.Decodable.exists_shows {store : Store} (hd : store.Decodable) {k : Kind} {x : Row}
    (hx : x ∈ store.records k) : ∃ e, e.kind = k ∧ Entity.Shows x e := by
  obtain ⟨e, he⟩ := hd k x hx
  obtain rfl := Entity.kind_of_decode he
  exact ⟨e, rfl, Entity.decode_project_iff.1 he⟩

theorem Entity.eq_form_of_kind {e : Entity} (h : e.kind = .form) : ∃ f, e = .form f := by
  cases e with
  | form f => exact ⟨f, rfl⟩
  | _ => cases h

theorem Entity.eq_pronunciation_of_kind {e : Entity} (h : e.kind = .pronunciation) :
    ∃ p, e = .pronunciation p := by
  cases e with
  | pronunciation p => exact ⟨p, rfl⟩
  | _ => cases h

def Entity.rhymed? : Entity → Option Pronunciation
  | .pronunciation p => p.rhyme.map fun _ => p
  | _ => none

theorem Entity.rhymed?_eq_some {e : Entity} {p : Pronunciation} :
    e.rhymed? = some p ↔ e = .pronunciation p ∧ p.rhyme ≠ none := by
  cases e with
  | pronunciation q =>
    simp only [rhymed?, Option.map_eq_some_iff, pronunciation.injEq, Option.ne_none_iff_exists']
    constructor
    · rintro ⟨s, hs, rfl⟩
      exact ⟨rfl, s, hs⟩
    · rintro ⟨rfl, s, hs⟩
      exact ⟨s, hs, rfl⟩
  | _ => simp [rhymed?]

theorem Filter.askable_formText {text : String} : (formText text).Askable .pronunciation := by
  have resolved : (formText text).resolve .pronunciation =
      along (Schema.path .pronunciation .form) (formText text) := rfl
  exact askable_of_along resolved (.test rfl)
    (.test (Schema.declares_of_mem (by simp [Schema.catalogue]))) .test
    (by simp [formText, nodeCount]) (.test trivial)

section

variable {store : Store} (hs : store.Lexical) (hd : store.Decodable)
include hs hd

theorem Filter.holds_formText {text : String} {x : Row} (hx : x ∈ store.records .pronunciation)
    {p : Pronunciation} (hp : Entity.Shows x (.pronunciation p)) :
    ((formText text).resolve .pronunciation).Holds store .pronunciation x ↔
      ∃ f, f.text = text ∧ store.Sounds f p := by
  have spelled {y : Row} {f : Form} (hf : Entity.Shows y (.form f)) :
      (formText text).Holds store .form y ↔ f.text = text := by
    refine Iff.trans (holds_test_of_column hs (a := .text) rfl (by decide +kernel)) ?_
    change Test.Holds .text (y.get "form") _ ↔ _
    rw [hf.2.1]
    exact (Test.holds_string_equals_iff (o := some f.text)).trans (by simp)
  have linked {y : Row} {f : Form} (hy : y ∈ store.records .form)
      (hf : Entity.Shows y (.form f)) : Schema.Pronunciation.forms.Relates store x y ↔
        Relation.pronunciations.Connects store (.form f) (.pronunciation p) :=
    Relation.relates_iff_connects rfl rfl hp hf hy
  refine (holds_link (r := Schema.Pronunciation.forms) rfl).trans ?_
  constructor
  · rintro ⟨y, hr, hh⟩
    obtain ⟨_, hk, hf⟩ := hd.exists_shows hr.mem
    obtain ⟨f, rfl⟩ := Entity.eq_form_of_kind hk
    exact ⟨f, (spelled hf).1 hh, Store.has_iff.2 ⟨y, hr.mem, hf⟩, Store.has_iff.2 ⟨x, hx, hp⟩,
      (linked hr.mem hf).1 hr⟩
  · rintro ⟨f, ht, hsound⟩
    obtain ⟨y, hy, hf⟩ := Store.has_iff.1 hsound.form
    exact ⟨y, (linked hy hf).2 hsound.linked, (spelled hf).2 ht⟩

theorem Lookup.exists_rhymeFilters (text : String) : ∃ ps : List Pronunciation, ps.Nodup ∧
    (∀ p, p ∈ ps ↔ p.rhyme ≠ none ∧ ∃ f, f.text = text ∧ store.Sounds f p) ∧
    (rhymeFilters store text).result = .ok (ps.filterMap (·.rhymesFilter)) := by
  obtain ⟨xs, hx, queries⟩ := Query.exists_finds hs Filter.askable_formText
    (Order.sorts_primaryKey .pronunciation)
  obtain ⟨q, hq, hk, hg⟩ := queries none
  obtain ⟨es, hes, hdec⟩ := hx.exists_all hd hk hg
  have mem (p : Pronunciation) : .pronunciation p ∈ es ↔ ∃ f, f.text = text ∧ store.Sounds f p := by
    rw [hx.mem_iff_of_decodes hdec]
    constructor
    · rintro ⟨-, x, hx, hp, hh⟩
      exact (Filter.holds_formText hs hd hx hp).1 hh
    · rintro ⟨f, ht, hsound⟩
      obtain ⟨x, hx, hp⟩ := Store.has_iff.1 hsound.pronunciation
      exact ⟨rfl, x, hx, hp, (Filter.holds_formText hs hd hx hp).2 ⟨f, ht, hsound⟩⟩
  refine ⟨es.filterMap Entity.rhymed?, ?_, fun p => ?_, ?_⟩
  · refine (List.Nodup.of_map _ (hx.nodup_ids hs hdec)).filterMap fun a b p ha hb => ?_
    exact (Entity.rhymed?_eq_some.1 ha).1.trans (Entity.rhymed?_eq_some.1 hb).1.symm
  · simp only [List.mem_filterMap, Entity.rhymed?_eq_some]
    rw [← mem]
    constructor
    · rintro ⟨_, he, rfl, hr⟩
      exact ⟨hr, he⟩
    · rintro ⟨hr, he⟩
      exact ⟨_, he, rfl, hr⟩
  · refine (Logged.result_bind_of_ok hq).trans ((Logged.result_bind_of_ok hes).trans ?_)
    rw [List.filterMap_filterMap]
    refine congrArg Except.ok (List.filterMap_congr fun e _ => ?_)
    cases e with
    | pronunciation p => cases h : p.rhyme <;> simp [Entity.rhymed?, Pronunciation.rhymesFilter, h]
    | _ => rfl

end

/-! ## The forms that rhyme -/

section

variable {ps : List Pronunciation}

theorem Pronunciation.mem_rhymesFilters {f : Filter} : f ∈ ps.filterMap (·.rhymesFilter) ↔
    ∃ p ∈ ps, ∃ s, p.rhyme = some s ∧ f = .group .and (p.rhymeTests s) := by
  simp only [List.mem_filterMap, rhymesFilter_eq, Option.map_eq_some_iff, eq_comm (b := f)]

theorem Pronunciation.alternative_rhymesFilters : ∀ f ∈ ps.filterMap (·.rhymesFilter),
    f.Alternative .form Schema.Form.pronunciations := by
  intro f hf
  obtain ⟨p, -, s, -, rfl⟩ := mem_rhymesFilters.1 hf
  exact p.alternative_rhymeTests s

theorem Pronunciation.length_rhymesFilters (h : ∀ p ∈ ps, p.rhyme ≠ none) :
    (ps.filterMap (·.rhymesFilter)).length = ps.length := by
  rw [List.length_filterMap_eq_countP, List.countP_eq_length]
  intro p hp
  obtain ⟨s, hs⟩ := Option.ne_none_iff_exists'.1 (h p hp)
  simp [rhymesFilter_eq, hs]

theorem Filter.holds_rhymesFilters {store : Store} (hs : store.Lexical) (hd : store.Decodable)
    (hne : ps.filterMap (·.rhymesFilter) ≠ []) {x : Row} (hx : x ∈ store.records .form) {f : Form}
    (hf : Entity.Shows x (.form f)) :
    ((group .or (ps.filterMap (·.rhymesFilter))).resolve .form).Holds store .form x ↔
      ∃ q, store.Sounds f q ∧ ∃ p ∈ ps, p.RhymesWith q := by
  have linked {y : Row} {q : Pronunciation} (hy : y ∈ store.records .pronunciation)
      (hq : Entity.Shows y (.pronunciation q)) : Schema.Form.pronunciations.Relates store x y ↔
        Relation.forms.Connects store (.pronunciation q) (.form f) :=
    Relation.relates_iff_connects rfl rfl hf hq hy
  rw [resolve_eq_anyAlong Pronunciation.alternative_rhymesFilters hne,
    holds_anyAlong (k := .form) rfl hne]
  constructor
  · rintro ⟨_, hm, y, hr, hh⟩
    obtain ⟨p, hp, s, hrhyme, rfl⟩ := Pronunciation.mem_rhymesFilters.1 hm
    obtain ⟨_, hk, hq⟩ := hd.exists_shows hr.mem
    obtain ⟨q, rfl⟩ := Entity.eq_pronunciation_of_kind hk
    obtain ⟨same, apart⟩ := (Pronunciation.holds_rhymeTests hs hq).1 hh
    exact ⟨q, ⟨Store.has_iff.2 ⟨x, hx, hf⟩, Store.has_iff.2 ⟨y, hr.mem, hq⟩,
      (linked hr.mem hq).1 hr⟩, p, hp, ⟨s, hrhyme, same⟩, apart⟩
  · rintro ⟨q, hsound, p, hp, ⟨s, hrhyme, same⟩, apart⟩
    obtain ⟨y, hy, hq⟩ := Store.has_iff.1 hsound.pronunciation
    exact ⟨_, Pronunciation.mem_rhymesFilters.2 ⟨p, hp, s, hrhyme, rfl⟩, y,
      (linked hy hq).2 hsound.linked, (Pronunciation.holds_rhymeTests hs hq).2 ⟨same, apart⟩⟩

end

/-! ## The answer -/

theorem Shell.result_spellings (store : Store) (fs : List Form) :
    (spellings store (fs.map .form)).result = .ok (fs.map (·.text)) := by
  induction fs with
  | nil => rfl
  | cons f fs ih =>
    have first : (Entity.spelling store (.form f)).result = .ok f.text := rfl
    rw [List.map_cons, spellings, Logged.result_bind_of_ok first, Logged.result_bind_of_ok ih]
    rfl

theorem Shell.result_query? {store : Store} {text : String} {fs : List Filter}
    (h : (Lookup.rhymeFilters store text).result = .ok fs) :
    (query? store none ⟨.rhymes, text⟩).result = if fs = [] then .ok none
      else (Query.prepare store .form (.group .or fs) .random none).result.map some := by
  have lookup : (Lookup.filter? store ⟨.rhymes, text⟩).result =
      .ok (if fs = [] then none else some (.form, .group .or fs)) := by
    rw [Lookup.filter?]
    refine (Logged.result_bind_of_ok h).trans ?_
    cases fs <;> rfl
  rw [query?, Logged.result_bind_of_ok lookup]
  by_cases hfs : fs = []
  · rw [if_pos hfs, if_pos hfs]
    rfl
  · rw [if_neg hfs, if_neg hfs, Logged.result_bind]
    cases (Query.prepare store .form (.group .or fs) .random none).result <;> rfl

def Shell.ListsRhymes (shell : Shell) (text : String) : Prop :=
  ∃ fs : List Form, (fs.map (·.id)).Nodup ∧ (∀ f, f ∈ fs ↔ shell.database.store.Rhymes text f) ∧
    (shell.answer (.lookup ⟨.rhymes, text⟩)).result = .ok (.texts (fs.map (·.text)))

namespace Shell

variable {shell : Shell} (hs : shell.database.store.Lexical)
  (hd : shell.database.store.Decodable) (hl : shell.limit = none) {text : String}
  {ps : List Pronunciation}
  (hm : ∀ p, p ∈ ps ↔ p.rhyme ≠ none ∧ ∃ f, f.text = text ∧ shell.database.store.Sounds f p)
  (hf : (Lookup.rhymeFilters shell.database.store text).result =
    .ok (ps.filterMap (·.rhymesFilter)))

include hl hf in
theorem answer_nothing (h : ps = []) :
    (shell.answer (.lookup ⟨.rhymes, text⟩)).result = .ok (.texts []) := by
  subst h
  have none_found := result_query? hf
  rw [answer, hl, Logged.result_bind_of_ok none_found]
  rfl

include hm in
theorem rhymes_iff (f : Form) : shell.database.store.Rhymes text f ↔
    ∃ q, shell.database.store.Sounds f q ∧ ∃ p ∈ ps, p.RhymesWith q := by
  refine exists_congr fun q => and_congr_right fun _ => exists_congr fun p => ?_
  rw [hm]
  constructor
  · rintro ⟨g, ht, hsound, hr⟩
    obtain ⟨s, hs, -⟩ := hr.1
    exact ⟨⟨by simp [hs], g, ht, hsound⟩, hr⟩
  · rintro ⟨⟨-, g, ht, hsound⟩, hr⟩
    exact ⟨g, ht, hsound, hr⟩

include hs hd hl hm hf

theorem lists_rhymes (hn : ps.length ≤ 31) : shell.ListsRhymes text := by
  by_cases hne : ps = []
  · refine ⟨[], List.nodup_nil, fun f => ?_, answer_nothing hl hf hne⟩
    simp [rhymes_iff hm, hne]
  have length : (ps.filterMap (·.rhymesFilter)).length = ps.length :=
    Pronunciation.length_rhymesFilters fun p hp => ((hm p).1 hp).1
  have some_left : ps.filterMap (·.rhymesFilter) ≠ [] := by
    rwa [← List.length_pos_iff, length, List.length_pos_iff]
  obtain ⟨xs, hx, queries⟩ := Query.exists_finds_alternatives hs
    Pronunciation.alternative_rhymesFilters some_left rfl (Order.sorts_random _) rfl
    (by simp only [length, maxJoined]; omega)
  obtain ⟨q, hq, hk, hg⟩ := queries none
  obtain ⟨es, hes, hdec⟩ := hx.exists_all hd hk hg
  have mem (e : Entity) : e ∈ es ↔ ∃ f, e = .form f ∧ shell.database.store.Rhymes text f := by
    rw [hx.mem_iff_of_decodes hdec]
    constructor
    · rintro ⟨hk, x, hx, hf, hh⟩
      obtain ⟨f, rfl⟩ := Entity.eq_form_of_kind hk
      exact ⟨f, rfl, (rhymes_iff hm f).2 ((Filter.holds_rhymesFilters hs hd some_left hx hf).1 hh)⟩
    · rintro ⟨f, rfl, hr⟩
      obtain ⟨q, hsound, h⟩ := (rhymes_iff hm f).1 hr
      obtain ⟨x, hx, hf⟩ := Store.has_iff.1 hsound.form
      exact ⟨rfl, x, hx, hf, (Filter.holds_rhymesFilters hs hd some_left hx hf).2 ⟨q, hsound, h⟩⟩
  obtain ⟨fs, rfl⟩ : es ∈ Set.range (List.map Entity.form) := by
    rw [Set.range_list_map]
    exact fun e he => ((mem e).1 he).imp fun _ h => h.1.symm
  refine ⟨fs, ?_, fun f => ?_, ?_⟩
  · simpa [Function.comp_def, Entity.id] using hx.nodup_ids hs hdec
  · simpa using mem (.form f)
  · have found : (query? shell.database.store none ⟨.rhymes, text⟩).result = .ok (some q) := by
      rw [result_query? hf, if_neg some_left, hq]
      rfl
    rw [answer, hl, Logged.result_bind_of_ok found]
    refine (Logged.result_bind_of_ok hes).trans ?_
    exact Logged.result_bind_of_ok (result_spellings _ fs)

omit hd in
theorem answer_refused (hn : 31 < ps.length) : ∃ sql,
    (shell.answer (.lookup ⟨.rhymes, text⟩)).result = .error (.engine
      (if ps.length ≤ 99 then .tooManyJoined else .tooManySources) sql) := by
  have length : (ps.filterMap (·.rhymesFilter)).length = ps.length :=
    Pronunciation.length_rhymesFilters fun p hp => ((hm p).1 hp).1
  have some_left : ps.filterMap (·.rhymesFilter) ≠ [] := by
    rw [← List.length_pos_iff, length]
    omega
  obtain ⟨sql, refused⟩ := Query.result_prepare_alternatives hs
    Pronunciation.alternative_rhymesFilters some_left rfl (Order.sorts_random _)
    (by simp only [length, maxJoined]; omega) none
  refine ⟨sql, ?_⟩
  have failed : (query? shell.database.store none ⟨.rhymes, text⟩).result = .error (.engine
      (if ps.length ≤ 99 then .tooManyJoined else .tooManySources) sql) := by
    have read : 2 * ps.length < maxSources ↔ ps.length ≤ 99 := by
      simp only [maxSources]
      omega
    rw [result_query? hf, if_neg some_left, refused, length]
    simp only [read]
    rfl
  rw [answer, hl, Logged.result_bind_of_error failed]

end Shell

/-- Asked for rhymes the shell answers with the forms that rhyme, as long as the forms spelled so
have no more than 31 pronunciations with a rhyme, and with nothing if they have none. Each of these
pronunciations takes two joins of the one select, so of more the store does not look for rhymes. -/
theorem Shell.answer_rhymes {shell : Shell} (hs : shell.database.store.Lexical)
    (hd : shell.database.store.Decodable) (hl : shell.limit = none) (text : String) :
    ∃ ps : List Pronunciation, ps.Nodup ∧
      (∀ p, p ∈ ps ↔
        p.rhyme ≠ none ∧ ∃ f, f.text = text ∧ shell.database.store.Sounds f p) ∧
      (ps.length ≤ 31 → shell.ListsRhymes text) ∧
      (ps = [] → (shell.answer (.lookup ⟨.rhymes, text⟩)).result = .ok (.texts [])) ∧
      (31 < ps.length → ∃ sql, (shell.answer (.lookup ⟨.rhymes, text⟩)).result =
        .error (.engine (if ps.length ≤ 99 then .tooManyJoined else .tooManySources) sql)) := by
  obtain ⟨ps, hn, hm, hf⟩ := Lookup.exists_rhymeFilters hs hd text
  exact ⟨ps, hn, hm, lists_rhymes hs hd hl hm hf, answer_nothing hl hf,
    answer_refused hs hl hm hf⟩

/-! ## One rhyme, and too many -/

instance (store : Store) (f : Form) (p : Pronunciation) : Decidable (store.Sounds f p) :=
  decidable_of_iff (store.Has (.form f) ∧ store.Has (.pronunciation p) ∧
    ∃ z ∈ store.rowsOf "forms_pronunciations",
      ∀ c ∈ [("form_id", f.id), ("pronunciation_id", p.id)], (z.get c.1).Equals (.integer c.2))
    ⟨fun ⟨hf, hp, hl⟩ => ⟨hf, hp, hl⟩, fun h => ⟨h.form, h.pronunciation, h.linked⟩⟩

theorem Store.length_le_of_has {store : Store} {ps : List Pronunciation} (hn : ps.Nodup)
    (h : ∀ p ∈ ps, store.Has (.pronunciation p)) :
    ps.length ≤ (store.records .pronunciation).length := by
  let read (p : Pronunciation) : Except DecodeError Entity := .ok (.pronunciation p)
  have distinct : (ps.map read).Nodup := hn.map fun p q he => by simpa [read] using he
  have stored : ps.map read ⊆ (store.records .pronunciation).map fun x =>
      Entity.decode .pronunciation (Kind.project .pronunciation x) := by
    refine List.forall_mem_map.2 fun p hp => ?_
    obtain ⟨x, hx, he⟩ := h p hp
    exact List.mem_map.2 ⟨x, hx, he⟩
  simpa using (distinct.subperm stored).length_le

def Pronunciation.ringing (id : Int64) (onset : String) : Pronunciation :=
  ⟨id, onset ++ " AH1 N", some onset, some "AH1 N", 1, "1"⟩

def Form.run : Form := ⟨1, "run", 1, false, 3⟩

def Form.sun : Form := ⟨2, "sun", 1, false, 3⟩

def Form.ringing (n : Nat) : List (Form × Pronunciation) :=
  (sun, .ringing 0 "S") :: (List.range n).map fun i => (run, .ringing (.ofNat (i + 1)) "R")

def Store.ringing (n : Nat) : Store :=
  let forms : List (List Value) := [Form.run, .sun].map fun f =>
    [.integer f.id, .text f.text, .integer f.complexity, .integer 0, .integer f.length]
  let pronunciations : List (List Value) := (Form.ringing n).map fun s =>
    [.integer s.2.id, .text s.2.phonemes, .ofOption .text s.2.prerhyme,
      .ofOption .text s.2.rhyme, .integer s.2.numOfSyllables, .text s.2.stress]
  let links : List (List Value) := (Form.ringing n).map fun s =>
    [.integer s.1.id, .integer s.2.id]
  ((empty.insertAll "forms" forms).insertAll "pronunciations" pronunciations).insertAll
    "forms_pronunciations" links

def Shell.over (store : Store) : Shell := { database := ⟨store, false⟩, limit := none }

theorem Pronunciation.ringing_rhymesWith {m n : Int64} (h : n ≠ m) :
    (ringing m "R").RhymesWith (ringing n "S") := by
  refine ⟨⟨_, rfl, rfl⟩, h, ?_⟩
  rintro _ ⟨⟩
  exact ⟨"S", rfl, by decide⟩

theorem Shell.ringing_answer_rhymes : ∃ fs : List Form, Form.sun ∈ fs ∧
    (∀ f, f ∈ fs ↔ (Store.ringing 1).Rhymes "run" f) ∧
    ((Shell.over (.ringing 1)).answer (.lookup ⟨.rhymes, "run"⟩)).result =
      .ok (.texts (fs.map (·.text))) := by
  obtain ⟨ps, hn, hm, lists, -⟩ := @answer_rhymes (.over (.ringing 1))
    (by decide +kernel) (by decide +kernel) rfl "run"
  have few := Store.length_le_of_has hn fun p hp => by
    obtain ⟨-, f, -, hsound⟩ := (hm p).1 hp
    exact hsound.pronunciation
  obtain ⟨fs, -, hf, answer⟩ := lists (Nat.le_trans few (by decide +kernel))
  refine ⟨fs, (hf _).2 ⟨.ringing 0 "S", by decide +kernel, .ringing 1 "R", .run, rfl,
    by decide +kernel, Pronunciation.ringing_rhymesWith (by decide)⟩, hf, answer⟩

theorem Store.sounds_ringing : ∀ s ∈ Form.ringing 32, (Store.ringing 32).Sounds s.1 s.2 := by
  have forms : Kind.form.Decodes ((Store.ringing 32).records .form)
      [.form .run, .form .sun] := by
    rw [Kind.Decodes]
    decide +kernel
  have pronunciations : Kind.pronunciation.Decodes ((Store.ringing 32).records .pronunciation)
      ((Form.ringing 32).map fun s => .pronunciation s.2) := by
    rw [Kind.Decodes]
    decide +kernel
  have links : (Store.ringing 32).rowsOf "forms_pronunciations" = (Form.ringing 32).map fun s =>
      [("form_id", .integer s.1.id), ("pronunciation_id", .integer s.2.id)] := by
    decide +kernel
  intro s hs
  refine ⟨forms.mem_iff.1 ?_, pronunciations.mem_iff.1 (List.mem_map.2 ⟨s, hs, rfl⟩),
    _, links ▸ List.mem_map.2 ⟨s, hs, rfl⟩, ?_⟩
  · have named : ∀ s ∈ Form.ringing 32, Entity.form s.1 ∈ [Entity.form .run, .form .sun] := by
      simp [Form.ringing]
    exact named s hs
  · have apart : sameName "form_id" "pronunciation_id" = false := by decide +kernel
    simp [Row.get, sameName_refl, apart, Value.integer_equals_iff]

/-- With 32 pronunciations the shell does not find the form that rhymes. -/
theorem Shell.ringing_not_lists_rhymes : (Store.ringing 32).Lexical ∧ (Store.ringing 32).Decodable ∧
    (Store.ringing 32).Rhymes "run" .sun ∧ (Shell.over (.ringing 32)).limit = none ∧
      ¬ (Shell.over (.ringing 32)).ListsRhymes "run" := by
  have hs : (Store.ringing 32).Lexical := by decide +kernel
  have hd : (Store.ringing 32).Decodable := by decide +kernel
  have runs {i : Nat} (hi : i < 32) :
      (Store.ringing 32).Sounds .run (.ringing (.ofNat (i + 1)) "R") :=
    Store.sounds_ringing (_, _) <| List.mem_cons_of_mem _ <|
      List.mem_map.2 ⟨i, List.mem_range.2 hi, rfl⟩
  obtain ⟨ps, -, hm, hf⟩ := Lookup.exists_rhymeFilters hs hd "run"
  have distinct : ((List.range 32).map fun i =>
      Pronunciation.ringing (.ofNat (i + 1)) "R").Nodup := by decide +kernel
  have many : 32 ≤ ps.length := List.Subperm.length_le <| distinct.subperm fun p hp => by
    obtain ⟨i, hi, rfl⟩ := List.mem_map.1 hp
    exact (hm _).2 ⟨nofun, .run, rfl, runs (List.mem_range.1 hi)⟩
  refine ⟨hs, hd, ?_, rfl, ?_⟩
  · exact ⟨_, Store.sounds_ringing (_, _) List.mem_cons_self, _, .run, rfl,
      runs (i := 0) (by decide), Pronunciation.ringing_rhymesWith (by decide)⟩
  · rintro ⟨fs, -, -, answer⟩
    obtain ⟨sql, refused⟩ := @answer_refused (.over (.ringing 32)) hs rfl _ _ hm hf many
    exact absurd (answer.symm.trans refused) nofun

end Lexiquery
