import Lexiquery.Proofs.Entity.Giving

/-! The records along a relation, and the relation that leads back from each of them. -/

namespace Lexiquery

def Store.Associates (store : Store) (table : String) (cells : List (String × Int64)) : Prop :=
  ∃ z ∈ store.rowsOf table, ∀ c ∈ cells, (z.get c.1).Equals (.integer c.2)

instance (store : Store) (table : String) (cells : List (String × Int64)) :
    Decidable (store.Associates table cells) :=
  inferInstanceAs (Decidable (∃ z ∈ _, ∀ c ∈ _, _))

namespace Relation

/-- Whether a relation that leads to a list is to lead from one record to another: the other one
names it, or a table associates the two. -/
def Connects (store : Store) : Relation → Entity → Entity → Prop
  | words, .notion n, .word w => w.notionId = n.id
  | words, .group g, .word w => w.groupId = some g.id
  | frames, .group g, .frame f => f.groupId = g.id
  | parts, .frame f, .part p => p.frameId = f.id
  | inflections i, .word w, .form f => store.Associates "lemmas_forms"
      [("lemma_id", w.lemmaId), ("form_id", f.id), ("category", Enumeration.code i)]
  | pronunciations, .form f, .pronunciation p =>
    store.Associates "forms_pronunciations" [("form_id", f.id), ("pronunciation_id", p.id)]
  | forms, .pronunciation p, .form f =>
    store.Associates "forms_pronunciations" [("form_id", f.id), ("pronunciation_id", p.id)]
  | _, _, _ => False

def back? : Relation → Kind → Option Relation
  | words, .notion => some notion
  | words, .group => some group
  | frames, .group => some group
  | parts, .frame => some frame
  | pronunciations, .form => some forms
  | forms, .pronunciation => some pronunciations
  | _, _ => none

/-- What the records along a relation are ordered by: parts by their place in the frame, all others
by their primary keys. -/
def place : Relation → Entity → Int64
  | parts, .part p => p.index
  | _, e => e.id

def via? : Relation → Kind → Option Relationship
  | words, .notion => some Schema.Word.notions
  | words, .group => some Schema.Word.groups
  | frames, .group => some Schema.Frame.groups
  | parts, .frame => some Schema.Part.frames
  | inflections i, .word => some (Schema.Form.words i)
  | pronunciations, .form => some Schema.Pronunciation.forms
  | forms, .pronunciation => some Schema.Form.pronunciations
  | _, _ => none

def sortField : Relation → Kind → Field
  | parts, _ => Schema.Part.index
  | _, k => Schema.idField k

variable {store : Store} {σ : Relation} {e e' : Entity} {r : Relationship} {x y : Row}

theorem exists_via (hσ : σ.isList = true) (h : σ ∈ e.kind.relations) :
    ∃ r, σ.via? e.kind = some r := by
  obtain ⟨load, hl⟩ := Entity.exists_load?_iff.2 h
  cases σ <;> cases e <;> cases hσ <;> cases hl <;> exact ⟨_, rfl⟩

theorem relates_iff_connects (hr : σ.via? e.kind = some r) (hk : e'.kind = r.kind)
    (hx : e'.Shows x) (hy : e.Shows y) (hm : y ∈ store.records r.far) :
    r.Relates store x y ↔ σ.Connects store e e' := by
  have equals_comm {v w : Value} : v.Equals w ↔ w.Equals v := ⟨.symm, .symm⟩
  cases σ <;> cases e <;> cases hr <;> cases e' <;> cases hk <;>
    refine (and_iff_right hm).trans ?_ <;> simp only [Connects, Store.Associates]
  case words.notion.refl.word.refl n w =>
    change (x.get "notion_id").Equals (y.get "notion_id") ↔ _
    rw [hx.2.1, hy.1, Value.integer_equals_iff]
  case words.group.refl.word.refl g w =>
    change (x.get "group_id").Equals (y.get "group_id") ↔ _
    rw [hx.2.2.2.2.2, hy.1, Value.ofOption_equals_iff]
  case frames.group.refl.frame.refl g f =>
    change (x.get "group_id").Equals (y.get "group_id") ↔ _
    rw [hx.2.1, hy.1, Value.integer_equals_iff]
  case parts.frame.refl.part.refl f p =>
    change (x.get "frame_id").Equals (y.get "frame_id") ↔ _
    rw [hx.2.1, hy.1, Value.integer_equals_iff]
  case inflections.word.refl.form.refl i w f =>
    refine exists_congr fun z => and_congr_right fun _ => ?_
    change (x.get "form_id").Equals (z.get "form_id") ∧ (∀ f ∈ some _, Fixed.Holds f z) ∧
      (z.get "lemma_id").Equals (y.get "lemma_id") ↔ _
    rw [hx.1, hy.2.2.1, equals_comm]
    simp [Fixed.Holds]
    tauto
  case pronunciations.form.refl.pronunciation.refl f p =>
    refine exists_congr fun z => and_congr_right fun _ => ?_
    change (x.get "pronunciation_id").Equals (z.get "pronunciation_id") ∧
      (∀ f ∈ none, Fixed.Holds f z) ∧ (z.get "form_id").Equals (y.get "form_id") ↔ _
    rw [hx.1, hy.1, equals_comm]
    simp [and_comm]
  case forms.pronunciation.refl.form.refl p f =>
    refine exists_congr fun z => and_congr_right fun _ => ?_
    change (x.get "form_id").Equals (z.get "form_id") ∧ (∀ f ∈ none, Fixed.Holds f z) ∧
      (z.get "pronunciation_id").Equals (y.get "pronunciation_id") ↔ _
    rw [hx.1, hy.1, equals_comm]
    simp

theorem far_of_via (hr : σ.via? e.kind = some r) : r.far = e.kind := by
  cases σ <;> cases e <;> cases hr <;> rfl

theorem declares_of_via (hr : σ.via? e.kind = some r) : Schema.Declares r.field := by
  cases σ <;> cases e <;> cases hr
  case inflections.word.refl i w => exact .words i
  all_goals exact Schema.declares_of_mem (by simp [Schema.catalogue])

theorem sorts_sortField (hr : σ.via? e.kind = some r) :
    (Order.ascending (σ.sortField r.kind)).Sorts r.kind := by
  cases σ <;> cases e <;> cases hr
  case parts.frame.refl =>
    change (Order.ascending Schema.Part.index).Sorts .part
    exact ⟨rfl, Schema.declares_of_mem (by simp [Schema.catalogue])⟩
  all_goals exact Order.sorts_primaryKey _

theorem get_sortField (hr : σ.via? e.kind = some r) (hk : e'.kind = r.kind) (hx : e'.Shows x) :
    x.get (σ.sortField r.kind).column = .integer (σ.place e') := by
  cases σ <;> cases e <;> cases hr <;> cases e' <;> cases hk
  case parts.frame.refl.part.refl => exact hx.2.2.1
  all_goals exact hx.1

theorem exists_load (hr : σ.via? e.kind = some r) : ∃ f,
    e.load? σ = some (.many r.kind f (σ.sortField r.kind)) ∧
      f.resolve r.kind = r.withRelated e.id ∧ f.Askable r.kind := by
  have hd := declares_of_via hr
  cases σ <;> cases e <;> cases hr
  case inflections.word.refl i w =>
    exact ⟨_, rfl, rfl, Filter.askable_link_idEquals hd rfl⟩
  all_goals exact ⟨_, rfl, rfl, Filter.askable_idEquals⟩

theorem kind_of_connects (hr : σ.via? e.kind = some r) (h : σ.Connects store e e') :
    e'.kind = r.kind := by
  cases σ <;> cases e <;> cases hr <;> cases e' <;> first | rfl | exact h.elim

end Relation

namespace Store

section

variable {store : Store} (hs : store.Lexical) (hd : store.Decodable) {e : Entity}
  (he : store.Has e) {σ : Relation}
include hs hd he

theorem exists_related {r : Relationship} (hr : σ.via? e.kind = some r) :
    ∃ es, store.Gives e σ es ∧ (∀ e', e' ∈ es ↔ store.Has e' ∧ σ.Connects store e e') ∧
      (es.map (·.id)).Nodup ∧ es.Pairwise fun a b => σ.place a ≤ σ.place b := by
  obtain ⟨y, hy, hey⟩ := has_iff.1 he
  obtain ⟨f, hl, hf, ask⟩ := Relation.exists_load hr
  have hfar := Relation.far_of_via hr
  obtain ⟨xs, es, hes, hdec, hfind⟩ := Load.exists_many hs hd ask (Relation.sorts_sortField hr)
  refine ⟨es, gives_of_run hl hes, fun e' => ?_, hfind.nodup_ids hs hdec, ?_⟩
  · rw [hfind.mem_iff_of_decodes hdec, hf, has_iff]
    have connects {x : Row} (hk : e'.kind = r.kind) (hx : e'.Shows x) :
        (r.withRelated e.id).Holds store r.kind x ↔ σ.Connects store e e' := by
      rw [← hfar] at hy
      rw [Filter.holds_withRelated hs hy (hfar ▸ hey.get_primaryKey)]
      exact Relation.relates_iff_connects hr hk hx hey hy
    constructor
    · rintro ⟨hk, x, hx, hex, hh⟩
      exact ⟨⟨x, hk ▸ hx, hex⟩, (connects hk hex).1 hh⟩
    · rintro ⟨⟨x, hx, hex⟩, hc⟩
      have hk := Relation.kind_of_connects hr hc
      exact ⟨hk, x, hk ▸ hx, hex, (connects hk hex).2 hc⟩
  · refine hdec.pairwise hfind.pairwise fun x y a b ha hb hax hby (h : Value.AtMost _ _) => ?_
    rw [Relation.get_sortField hr ha hax, Relation.get_sortField hr hb hby] at h
    simpa only [Value.AtMost, Value.order, Std.isLE_compare] using h

/-- A list relation gives the records that it is to lead to, each of them once and in order of their
place, and from each of them the relation back leads to the record one started from. -/
theorem related_and_back (hσ : σ.isList = true) (h : σ ∈ e.kind.relations) :
    ∃ es, store.Gives e σ es ∧ (∀ e', e' ∈ es ↔ store.Has e' ∧ σ.Connects store e e') ∧
      (es.map (·.id)).Nodup ∧ es.Pairwise (fun a b => σ.place a ≤ σ.place b) ∧
      ∀ e' ∈ es, ∀ τ ∈ σ.back? e.kind, ∃ es', store.Gives e' τ es' ∧
        if τ.isList then e ∈ es' else es' = [e] := by
  obtain ⟨r, hr⟩ := Relation.exists_via hσ h
  obtain ⟨es, hg, hm, hn, ho⟩ := exists_related hs hd he hr
  refine ⟨es, hg, hm, hn, ho, fun e' he' τ hτ => ?_⟩
  obtain ⟨hhas, hc⟩ := (hm e').1 he'
  have single {l : Load} (h : e'.load? τ = some l) (h' : l = .one e.kind e.id) :
      ∃ es', store.Gives e' τ es' ∧ es' = [e] :=
    ⟨[e], gives_of_run h (h' ▸ Load.result_one hs he), rfl⟩
  have several {s : Relationship} (h : τ.via? e'.kind = some s)
      (h' : τ.Connects store e' e) : ∃ es', store.Gives e' τ es' ∧ e ∈ es' := by
    obtain ⟨es', hg', hm', -⟩ := exists_related hs hd hhas h
    exact ⟨es', hg', (hm' e).2 ⟨he, h'⟩⟩
  cases σ <;> cases e <;> cases hr <;> cases hτ <;> cases e' <;> simp only [Relation.Connects] at hc
  case words.notion.refl.refl.word n w => exact single rfl (by rw [hc]; rfl)
  case words.group.refl.refl.word g w => exact single rfl (by rw [hc]; rfl)
  case frames.group.refl.refl.frame g f => exact single rfl (by rw [hc]; rfl)
  case parts.frame.refl.refl.part f p => exact single rfl (by rw [hc]; rfl)
  case pronunciations.form.refl.refl.pronunciation f p => exact several rfl hc
  case forms.pronunciation.refl.refl.form p f => exact several rfl hc

end

def spoken : Store :=
  (Record.spelled.insertAll "pronunciations" [[.integer 7, .text "K AE1 T", .text "K",
    .text "AE1 T", .integer 1, .text "1"]]).insertAll "forms_pronunciations"
    [[.integer 1, .integer 7]]

/-- From the concept to its word and back, on to the form, and from there to the pronunciation and
back. -/
theorem spoken_related_back :
    let cat : Entity := .word ⟨4, 2, 4, none, none, none⟩
    let spelling : Entity := .form ⟨1, "cat", 1, false, 3⟩
    (∃ es, spoken.Gives (.notion ⟨2, .noun, none, none⟩) .words es ∧ cat ∈ es ∧ ∀ e' ∈ es,
      ∃ es', spoken.Gives e' .notion es' ∧ es' = [.notion ⟨2, .noun, none, none⟩]) ∧
    (∃ es, spoken.Gives cat (.inflections .base) es ∧ spelling ∈ es) ∧
    ∃ es, spoken.Gives spelling .pronunciations es ∧
      .pronunciation ⟨7, "K AE1 T", some "K", some "AE1 T", 1, "1"⟩ ∈ es ∧
      ∀ e' ∈ es, ∃ es', spoken.Gives e' .forms es' ∧ spelling ∈ es' := by
  have hs : spoken.Lexical := by decide +kernel
  have hd : spoken.Decodable := by decide +kernel
  let cat : Entity := .word ⟨4, 2, 4, none, none, none⟩
  let spelling : Entity := .form ⟨1, "cat", 1, false, 3⟩
  have hc : spoken.Has cat := by decide +kernel
  have hf : spoken.Has spelling := by decide +kernel
  refine ⟨?words, ?forms, ?pronunciations⟩
  case words =>
    obtain ⟨es, hg, hm, -, -, hb⟩ := @related_and_back spoken hs hd
      (.notion ⟨2, .noun, none, none⟩) (by decide +kernel) .words rfl (by decide)
    exact ⟨es, hg, (hm cat).2 ⟨hc, rfl⟩, fun e' he' => hb e' he' .notion rfl⟩
  case forms =>
    obtain ⟨es, hg, hm, -⟩ := @related_and_back spoken hs hd cat hc (.inflections .base) rfl
      (by decide)
    have linked : spoken.Associates "lemmas_forms"
        [("lemma_id", 4), ("form_id", 1), ("category", 0)] := by decide +kernel
    exact ⟨es, hg, (hm spelling).2 ⟨hf, linked⟩⟩
  case pronunciations =>
    obtain ⟨es, hg, hm, -, -, hb⟩ := @related_and_back spoken hs hd spelling hf .pronunciations rfl
      (by decide)
    have linked : spoken.Associates "forms_pronunciations"
        [("form_id", 1), ("pronunciation_id", 7)] := by decide +kernel
    exact ⟨es, hg, (hm _).2 ⟨by decide +kernel, linked⟩, fun e' he' => hb e' he' .forms rfl⟩

end Store

end Lexiquery
