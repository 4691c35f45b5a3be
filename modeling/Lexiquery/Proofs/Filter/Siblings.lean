import Lexiquery.Filter.Normal

/-! How a child joins its siblings: at the end, or inside the first link that asks the same of the
same rows. The principles below leave nothing else to consider. -/

namespace Lexiquery

theorem Relationship.beq_iff {r s : Relationship} :
    (r == s) = true ↔ r.field.identity = s.field.identity :=
  Field.beq_iff

theorem Relationship.beq_refl (r : Relationship) : (r == r) = true := beq_iff.2 rfl

theorem Relationship.far_eq_of_beq {r s : Relationship} (h : (r == s) = true) : r.far = s.far := by
  have := congrArg Field.Identity.far (beq_iff.1 h)
  simpa [Field.identity, Field.far?] using this

def Filter.Merges (c : Connective) (f g : Filter) : Prop :=
  ∃ r s t condition condition', f = link r t condition ∧ g = link s t condition' ∧
    (r == s) = true ∧ t.mergesUnder c = true

theorem Filter.Merges.symm {c : Connective} {f g : Filter} (h : Merges c f g) : Merges c g f := by
  obtain ⟨r, s, t, condition, condition', rfl, rfl, hr, ht⟩ := h
  exact ⟨s, r, t, condition', condition, rfl, rfl,
    Relationship.beq_iff.2 (Relationship.beq_iff.1 hr).symm, ht⟩

theorem Filter.merges_link_left {c : Connective} {r : Relationship} {t : LinkTest}
    {condition g : Filter} : Merges c (link r t condition) g ↔
      ∃ s condition', g = link s t condition' ∧ (r == s) = true ∧ t.mergesUnder c = true := by
  constructor
  · rintro ⟨_, s, _, _, condition', ⟨⟩, rfl, hr, ht⟩
    exact ⟨s, condition', rfl, hr, ht⟩
  · rintro ⟨s, condition', rfl, hr, ht⟩
    exact ⟨r, s, t, condition, condition', rfl, rfl, hr, ht⟩

theorem Filter.merges_link_right {c : Connective} {s : Relationship} {t : LinkTest}
    {f condition : Filter} : Merges c f (link s t condition) ↔
      ∃ r condition', f = link r t condition' ∧ (r == s) = true ∧ t.mergesUnder c = true := by
  constructor
  · rintro ⟨r, _, _, condition', _, rfl, ⟨⟩, hr, ht⟩
    exact ⟨r, condition', rfl, hr, ht⟩
  · rintro ⟨r, condition', rfl, hr, ht⟩
    exact ⟨r, s, t, condition', condition, rfl, rfl, hr, ht⟩

namespace Sibling

def Asks (r : Relationship) (t : LinkTest) : Sibling → Prop
  | single (.link s u _) | merged s u _ _ => (s == r) = true ∧ u = t
  | _ => False

inductive Under : Connective → Sibling → Prop
  | single {c : Connective} (f : Filter) : Under c (single f)
  | merged {c : Connective} (r : Relationship) {t : LinkTest} {conditions : List Sibling} :
    t.mergesUnder c = true → (∀ s ∈ conditions, Under (t.within c) s) →
    Under c (merged r t (t.within c) conditions)

theorem under_merged_iff {r : Relationship} {t : LinkTest} {c d : Connective}
    {conditions : List Sibling} :
    (merged r t d conditions).Under c ↔
      t.mergesUnder c = true ∧ d = t.within c ∧ ∀ s ∈ conditions, s.Under d := by
  constructor
  · intro h
    cases h with
    | merged _ ht hc => exact ⟨ht, rfl, hc⟩
  · rintro ⟨ht, rfl, hc⟩
    exact .merged r ht hc

theorem Asks.eq_single_or_merged {r : Relationship} {t : LinkTest} {s : Sibling}
    (h : s.Asks r t) :
    (∃ s' first, s = single (.link s' t first) ∧ (s' == r) = true) ∨
      ∃ s' d conditions, s = merged s' t d conditions ∧ (s' == r) = true := by
  match s with
  | single (.link s' _ first) => exact .inl ⟨s', first, by rw [h.2], h.1⟩
  | merged s' _ d conditions => exact .inr ⟨s', d, conditions, by rw [h.2], h.1⟩
  | single .empty | single (.test ..) | single (.group ..) => exact h.elim

theorem absorb_of_forall {r : Relationship} {t : LinkTest} {c : Connective} {condition : Filter}
    {add : List Sibling → List Sibling} {ss : List Sibling} (h : ∀ s ∈ ss, ¬ s.Asks r t) :
    absorb r t c condition add ss = ss ++ [single (.link r t condition)] := by
  induction ss with
  | nil => rfl
  | cons s ss ih =>
    obtain ⟨hs, hss⟩ := List.forall_mem_cons.1 h
    match s with
    | single (.link s u first) => simp_all [absorb, Asks]
    | merged s u d conditions => simp_all [absorb, Asks]
    | single .empty | single (.test ..) | single (.group ..) => simp_all [absorb]

theorem absorb_append {r : Relationship} {t : LinkTest} {c : Connective} {condition : Filter}
    {add : List Sibling → List Sibling} {before after : List Sibling}
    (h : ∀ s ∈ before, ¬ s.Asks r t) :
    absorb r t c condition add (before ++ after) =
      before ++ absorb r t c condition add after := by
  induction before with
  | nil => rfl
  | cons s ss ih =>
    obtain ⟨hs, hss⟩ := List.forall_mem_cons.1 h
    match s with
    | single (.link s u first) => simp_all [absorb, Asks]
    | merged s u d conditions => simp_all [absorb, Asks]
    | single .empty | single (.test ..) | single (.group ..) => simp_all [absorb]

theorem forall_or_exists_split (p : Sibling → Prop) (ss : List Sibling) : (∀ s ∈ ss, ¬ p s) ∨
    ∃ before s after, ss = before ++ s :: after ∧ (∀ s ∈ before, ¬ p s) ∧ p s := by
  classical
  induction ss with
  | nil => exact .inl (by simp)
  | cons s ss ih =>
    by_cases hs : p s
    · exact .inr ⟨[], s, ss, rfl, by simp, hs⟩
    · obtain h | ⟨before, s', after, rfl, hb, hs'⟩ := ih
      · exact .inl (by simpa [hs] using h)
      · exact .inr ⟨s :: before, s', after, rfl, by simpa [hs] using hb, hs'⟩

theorem merges_toFilter_iff {c : Connective} {s : Sibling} {f : Filter} :
    Filter.Merges c s.toFilter f ↔
      ∃ r t condition, f = .link r t condition ∧ t.mergesUnder c = true ∧ s.Asks r t := by
  match s with
  | single (.link s u first) =>
    rw [toFilter, Filter.merges_link_left]
    constructor
    · rintro ⟨r, condition, rfl, hr, hu⟩
      exact ⟨r, u, condition, rfl, hu, hr, rfl⟩
    · rintro ⟨r, _, condition, rfl, hu, hr, rfl⟩
      exact ⟨r, condition, rfl, hr, hu⟩
  | merged s u d conditions =>
    rw [toFilter, Filter.merges_link_left]
    constructor
    · rintro ⟨r, condition, rfl, hr, hu⟩
      exact ⟨r, u, condition, rfl, hu, hr, rfl⟩
    · rintro ⟨r, _, condition, rfl, hu, hr, rfl⟩
      exact ⟨r, condition, rfl, hr, hu⟩
  | single .empty | single (.test ..) | single (.group ..) =>
    simp [toFilter, Filter.Merges, Asks]

theorem insert_of_forall {f : Filter} {c : Connective} {ss : List Sibling}
    (h : ∀ s ∈ ss, ¬ Filter.Merges c s.toFilter f) : insert f c ss = ss ++ [single f] := by
  match f with
  | .link r t condition =>
    rw [insert]
    split
    · rename_i ht
      exact absorb_of_forall fun s hs ha =>
        h s hs (merges_toFilter_iff.2 ⟨r, t, condition, rfl, ht, ha⟩)
    · rfl
  | .empty | .test .. | .group .. => rfl

theorem insert_append {f : Filter} {c : Connective} {before after : List Sibling}
    (h : ∀ s ∈ before, ¬ Filter.Merges c s.toFilter f) :
    insert f c (before ++ after) = before ++ insert f c after := by
  match f with
  | .link r t condition =>
    rw [insert, insert]
    split
    · rename_i ht
      exact absorb_append fun s hs ha =>
        h s hs (merges_toFilter_iff.2 ⟨r, t, condition, rfl, ht, ha⟩)
    · rw [List.append_assoc]
  | .empty | .test .. | .group .. => exact List.append_assoc ..

theorem insert_of_ne_link {f : Filter} (h : ∀ r t condition, f ≠ .link r t condition)
    (c : Connective) (ss : List Sibling) : insert f c ss = ss ++ [single f] := by
  cases f with
  | link r t condition => exact absurd rfl (h r t condition)
  | _ => rfl

section

variable {r s : Relationship} {t : LinkTest} {c d : Connective} {condition first : Filter}
  {conditions before after : List Sibling}

theorem insert_join (ht : t.mergesUnder c = true) (hr : (s == r) = true)
    (hb : ∀ s ∈ before, ¬ s.Asks r t) :
    insert (.link r t condition) c (before ++ single (.link s t first) :: after) =
      before ++ merged s t (t.within c) (insert condition (t.within c) [single first]) ::
        after := by
  rw [insert, if_pos ht, absorb_append hb, absorb, if_pos (by simp [hr])]

theorem insert_add (ht : t.mergesUnder c = true) (hr : (s == r) = true)
    (hb : ∀ s ∈ before, ¬ s.Asks r t) :
    insert (.link r t condition) c (before ++ merged s t d conditions :: after) =
      before ++ merged s t d (insert condition (t.within c) conditions) :: after := by
  rw [insert, if_pos ht, absorb_append hb, absorb, if_pos (by simp [hr])]

theorem insert_nil (f : Filter) (c : Connective) : insert f c [] = [single f] :=
  insert_of_forall nofun

theorem insert_link_single (ht : t.mergesUnder c = true) :
    insert (.link r t condition) c [single (.link r t first)] =
      [merged r t (t.within c) (insert condition (t.within c) [single first])] :=
  insert_join ht r.beq_refl (List.forall_mem_nil _)

theorem insert_link_merged (ht : t.mergesUnder c = true) :
    insert (.link r t condition) c [merged r t d conditions] =
      [merged r t d (insert condition (t.within c) conditions)] :=
  insert_add ht r.beq_refl (List.forall_mem_nil _)

end

/-- What holds of a child that comes last, of one that joins a link and of one that joins links
already merged, holds of every child among its siblings. -/
theorem insert_induction {motive : Filter → Connective → List Sibling → List Sibling → Prop}
    (last : ∀ f c ss, (∀ s ∈ ss, ¬ Filter.Merges c s.toFilter f) →
      motive f c ss (ss ++ [single f]))
    (join : ∀ r s t condition first c before after, t.mergesUnder c = true → (s == r) = true →
      (∀ s ∈ before, ¬ s.Asks r t) →
      motive condition (t.within c) [single first] (insert condition (t.within c) [single first]) →
      motive (.link r t condition) c (before ++ single (.link s t first) :: after)
        (before ++ merged s t (t.within c) (insert condition (t.within c) [single first]) :: after))
    (add : ∀ r s t condition conditions c before after, t.mergesUnder c = true →
      (s == r) = true → (∀ s ∈ before, ¬ s.Asks r t) →
      motive condition (t.within c) conditions (insert condition (t.within c) conditions) →
      motive (.link r t condition) c (before ++ merged s t (t.within c) conditions :: after)
        (before ++ merged s t (t.within c) (insert condition (t.within c) conditions) :: after))
    (f : Filter) (c : Connective) (ss : List Sibling) (hss : ∀ s ∈ ss, s.Under c) :
    motive f c ss (insert f c ss) := by
  induction f using Filter.induction generalizing c ss with
  | link r t condition ih =>
    obtain h | ⟨before, s, after, rfl, hb, hs⟩ :=
      forall_or_exists_split (fun s => Filter.Merges c s.toFilter (.link r t condition)) ss
    · rw [insert_of_forall h]
      exact last _ _ _ h
    · obtain ⟨_, _, _, heq, ht, hs⟩ := merges_toFilter_iff.1 hs
      cases heq
      have hb : ∀ s ∈ before, ¬ s.Asks r t := fun s hs ha =>
        hb s hs (merges_toFilter_iff.2 ⟨r, t, condition, rfl, ht, ha⟩)
      have hu : s.Under c := hss s (by simp)
      obtain ⟨s, first, rfl, hr⟩ | ⟨s, d, conditions, rfl, hr⟩ := hs.eq_single_or_merged
      · rw [insert_join ht hr hb]
        exact join _ _ _ _ _ _ _ _ ht hr hb (ih _ _ (by simp [Under.single]))
      · obtain ⟨_, rfl, hc⟩ := under_merged_iff.1 hu
        rw [insert_add ht hr hb]
        exact add _ _ _ _ _ _ _ _ ht hr hb (ih _ _ hc)
  | empty => exact last _ _ _ (by simp [Filter.Merges])
  | test => exact last _ _ _ (by simp [Filter.Merges])
  | group => exact last _ _ _ (by simp [Filter.Merges])

theorem under_insert {f : Filter} {c : Connective} {ss : List Sibling}
    (h : ∀ s ∈ ss, s.Under c) : ∀ s ∈ insert f c ss, s.Under c := by
  refine insert_induction (motive := fun f c ss ss' => (∀ s ∈ ss, s.Under c) → ∀ s ∈ ss', s.Under c)
    ?_ ?_ ?_ f c ss h h
  · intro f c ss _ h
    simpa [or_imp, forall_and, Under.single] using h
  · intro r s t condition first c before after ht _ _ ih h
    simp only [List.forall_mem_append, List.forall_mem_cons] at h ⊢
    exact ⟨h.1, .merged s ht (ih (by simp [Under.single])), h.2.2⟩
  · intro r s t condition conditions c before after ht _ _ ih h
    simp only [List.forall_mem_append, List.forall_mem_cons] at h ⊢
    obtain ⟨hb, hu, ha⟩ := h
    exact ⟨hb, .merged s ht (ih (under_merged_iff.1 hu).2.2), ha⟩

end Sibling

namespace Filter

theorem mergeSiblings_induction {c : Connective} {motive : List Filter → List Sibling → Prop}
    (nil : motive [] [])
    (snoc : ∀ f fs ss, (∀ s ∈ ss, s.Under c) → motive fs ss →
      motive (fs ++ [f]) (Sibling.insert f c ss)) (fs : List Filter) :
    ∃ ss, mergeSiblings c fs = ss.map Sibling.toFilter ∧ motive fs ss := by
  suffices h : ∀ gs ss, (∀ s ∈ ss, s.Under c) → motive gs ss →
      motive (gs ++ fs) (fs.foldl (fun ss f => Sibling.insert f c ss) ss) from
    ⟨_, Sibling.toFilters_eq _, h [] [] (by simp) nil⟩
  induction fs with
  | nil => simp
  | cons f fs ih =>
    intro gs ss hu hm
    rw [List.append_cons]
    apply ih _ _ (Sibling.under_insert hu) (snoc f gs ss hu hm)

/-- What siblings are merged into, links that were merged being kept apart. -/
def siblings (c : Connective) (fs : List Filter) : List Sibling :=
  fs.foldl (fun ss f => Sibling.insert f c ss) []

theorem mergeSiblings_eq (c : Connective) (fs : List Filter) :
    mergeSiblings c fs = (siblings c fs).map Sibling.toFilter :=
  Sibling.toFilters_eq _

theorem siblings_concat (c : Connective) (fs : List Filter) (f : Filter) :
    siblings c (fs ++ [f]) = Sibling.insert f c (siblings c fs) :=
  List.foldl_append

theorem siblings_singleton (c : Connective) (f : Filter) : siblings c [f] = [.single f] :=
  Sibling.insert_nil f c

theorem under_siblings (c : Connective) (fs : List Filter) : ∀ s ∈ siblings c fs, s.Under c := by
  suffices h : ∀ ss, (∀ s ∈ ss, s.Under c) →
      ∀ s ∈ fs.foldl (fun ss f => Sibling.insert f c ss) ss, s.Under c from h [] (by simp)
  induction fs with
  | nil => simp
  | cons f fs ih => exact fun ss hu => ih _ (Sibling.under_insert hu)

theorem mergeSiblings_map {c d : Connective} {g : Filter → Filter} {h : Sibling → Sibling}
    (hi : ∀ f ss, Sibling.insert (g f) d (ss.map h) = (Sibling.insert f c ss).map h)
    (ht : ∀ s, (h s).toFilter = g s.toFilter) (fs : List Filter) :
    mergeSiblings d (fs.map g) = (mergeSiblings c fs).map g := by
  -- the induction needs the siblings that were inserted before
  suffices hs : ∀ ss : List Sibling,
      (fs.map g).foldl (fun ss f => Sibling.insert f d ss) (ss.map h) =
        (fs.foldl (fun ss f => Sibling.insert f c ss) ss).map h by
    have hs := hs []
    rw [List.map_nil] at hs
    rw [mergeSiblings, mergeSiblings, hs, Sibling.toFilters_eq, Sibling.toFilters_eq, List.map_map,
      List.map_map]
    exact List.map_congr_left fun s _ => ht s
  induction fs with
  | nil => exact fun _ => rfl
  | cons f fs ih =>
    intro ss
    rw [List.map_cons, List.foldl_cons, List.foldl_cons, hi, ih]

end Filter

end Lexiquery
