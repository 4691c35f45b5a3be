import Lexiquery.Schema.Route
import Lexiquery.Store.Basic

/-! What the fields of the schema have in common. The catalogue is gone through once for each; the
three families have the form of their members. -/

namespace Lexiquery

namespace Store

def column? (table column : String) : Option Column :=
  (schema.lookup table).bind fun columns => Table.column? ⟨columns, []⟩ column

end Store

namespace Relationship

theorem field_injective {r s : Relationship} (h : r.field = s.field) : r = s := by
  simpa using congrArg Field.relationship? h

def columns (r : Relationship) : List (String × String) :=
  (r.kind.table, r.column) ::
    match r.link with
    | .key far _ => [(far.table, r.column)]
    | .keyWhere far fixed => [(far.table, r.column), (far.table, fixed.column)]
    | .through far table foreignColumn fixed =>
      (table, r.column) :: (table, foreignColumn) :: (far.table, foreignColumn) ::
        (fixed.map fun f => (table, f.column)).toList
    | .self table joinColumn foreignJoinColumn _ =>
      [(table, joinColumn), (table, foreignJoinColumn)]

end Relationship

namespace Schema

theorem declares_of_lookup {name : String} {f : Field} (h : catalogue.lookup name = some f) :
    Declares f := by
  obtain ⟨_, _, hl, -⟩ := List.lookup_eq_some_iff.1 h
  exact @Declares.constant name f (by simp [hl])

theorem route_of_mem_path {k l : Kind} {r : Relationship} (h : r ∈ path k l) :
    ∃ k', route k' l = some r := by
  rw [path] at h
  generalize diameter = n at h
  induction n generalizing k with
  | zero => simp [pathFrom] at h
  | succ n ih =>
    rw [pathFrom] at h
    split at h
    · simp at h
    · rename_i via hv
      obtain rfl | h := List.mem_cons.1 h
      · exact ⟨k, hv⟩
      · apply ih h

theorem declares_of_route {k l : Kind} {r : Relationship} (h : route k l = some r) :
    Declares r.field := by
  cases k <;> cases l <;> cases h <;> first
    | exact .forms .base
    | exact .words .base
    | exact .constant (by repeat first | exact .head _ | apply List.Mem.tail)

theorem catalogue_identity : ∀ p ∈ catalogue, ∀ q ∈ catalogue,
    p.2.identity = q.2.identity → p.2 = q.2 := by
  decide +kernel

theorem catalogue_tag : ∀ p ∈ catalogue, p.2.flavour.tag ≠ 5 ∧ p.2.flavour.tag ≠ 7 := by
  decide +kernel

theorem Declares.eq_of_identity {f g : Field} (hf : Declares f) (hg : Declares g)
    (h : f.identity = g.identity) : f = g := by
  have tag : f.flavour.tag = g.flavour.tag := congrArg Field.Identity.flavour h
  have kind : f.kind = g.kind := congrArg Field.Identity.kind h
  have value : f.fixed?.map (·.value) = g.fixed?.map (·.value) :=
    congrArg Field.Identity.fixedValue h
  cases hf with
  | constant hf =>
    cases hg with
    | constant hg => exact catalogue_identity _ hf _ hg h
    | forms => exact absurd tag (catalogue_tag _ hf).2
    | words => exact absurd tag (catalogue_tag _ hf).2
    | partAt => exact absurd tag (catalogue_tag _ hf).1
  | forms i =>
    cases hg with
    | constant hg => exact absurd tag.symm (catalogue_tag _ hg).2
    | forms j =>
      have : Enumeration.code i = Enumeration.code j := Option.some.inj value
      simp [Word.forms, this]
    | words => cases kind
    | partAt => cases kind
  | words i =>
    cases hg with
    | constant hg => exact absurd tag.symm (catalogue_tag _ hg).2
    | forms => cases kind
    | words j =>
      have : Enumeration.code i = Enumeration.code j := Option.some.inj value
      simp [Form.words, this]
    | partAt => cases kind
  | partAt index =>
    cases hg with
    | constant hg => exact absurd tag.symm (catalogue_tag _ hg).1
    | forms => cases kind
    | words => cases kind
    | partAt index' =>
      have : index = index' := Option.some.inj value
      simp [this]

theorem Declares.eq_of_beq {r s : Relationship} (hr : Declares r.field) (hs : Declares s.field)
    (h : (s == r) = true) : s = r :=
  Relationship.field_injective (hs.eq_of_identity hr (Field.beq_iff.1 h))

theorem column_of_isHierarchical_of_mem_catalogue : ∀ p ∈ catalogue, p.2.isHierarchical = true →
    p.2.column = p.2.kind.primaryKey := by
  decide +kernel

theorem Declares.column_of_isHierarchical {r : Relationship} (h : Declares r.field)
    (hr : r.isHierarchical = true) : r.column = r.kind.primaryKey := by
  generalize hf : r.field = f at h
  have hf' : f.isHierarchical = true := by
    rw [← hf, Field.isHierarchical, Field.relationship?_field]
    exact hr
  have hc : f.column = f.kind.primaryKey := by
    cases h with
    | constant h => exact column_of_isHierarchical_of_mem_catalogue _ h hf'
    | forms => cases hf'
    | words => cases hf'
    | partAt => cases hf'
  rwa [← hf] at hc

def IsIntegral (p : String × String) : Prop :=
  (Store.column? p.1 p.2).map (·.affinity) = some .integer

instance : DecidablePred IsIntegral := fun p =>
  inferInstanceAs (Decidable ((Store.column? p.1 p.2).map (·.affinity) = some .integer))

theorem isIntegral_columns_of_mem_catalogue : ∀ p ∈ catalogue, ∀ r ∈ p.2.relationship?,
    ∀ q ∈ r.columns, IsIntegral q := by
  decide +kernel

theorem Declares.isIntegral {r : Relationship} (h : Declares r.field) :
    ∀ q ∈ r.columns, IsIntegral q := by
  generalize hf : r.field = f at h
  cases h with
  | constant h => exact isIntegral_columns_of_mem_catalogue _ h r (by simp [← hf])
  | forms i =>
    obtain rfl := Relationship.field_injective hf
    have : (Word.forms i).columns = (Word.forms .base).columns := rfl
    rw [this]
    decide +kernel
  | words i =>
    obtain rfl := Relationship.field_injective hf
    have : (Form.words i).columns = (Form.words .base).columns := rfl
    rw [this]
    decide +kernel
  | partAt index =>
    obtain rfl := Relationship.field_injective hf
    have : (Frame.partAt index).columns = (Frame.partAt 0).columns := rfl
    rw [this]
    decide +kernel

theorem isIntegral_of_isBoolean_of_mem_catalogue : ∀ p ∈ catalogue, p.2.isBoolean = true →
    IsIntegral (p.2.kind.table, p.2.column) := by
  decide +kernel

theorem Declares.isIntegral_of_isBoolean {f : Field} (h : Declares f) (hb : f.isBoolean = true) :
    IsIntegral (f.kind.table, f.column) := by
  cases h with
  | constant h => exact isIntegral_of_isBoolean_of_mem_catalogue _ h hb
  | forms => cases hb
  | words => cases hb
  | partAt => cases hb

theorem exists_column_of_mem_catalogue : ∀ p ∈ catalogue,
    (Store.column? p.2.kind.table p.2.column).isSome = true := by
  decide +kernel

theorem Declares.exists_column {f : Field} (h : Declares f) :
    (Store.column? f.kind.table f.column).isSome = true := by
  cases h with
  | constant h => exact exists_column_of_mem_catalogue _ h
  | forms =>
    change (Store.column? "words" "lemma_id").isSome = true
    decide +kernel
  | words =>
    change (Store.column? "forms" "form_id").isSome = true
    decide +kernel
  | partAt =>
    change (Store.column? "frames" "frame_id").isSome = true
    decide +kernel

theorem Declares.exists_link_column {r : Relationship} (h : Declares r.field)
    {q : String × String} (hq : q ∈ r.columns) : (Store.column? q.1 q.2).isSome = true := by
  obtain ⟨c, hc, -⟩ := Option.map_eq_some_iff.1 (h.isIntegral q hq)
  rw [hc, Option.isSome_some]

end Schema

end Lexiquery
