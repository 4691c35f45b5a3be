import Mathlib.Data.List.Forall2
import Lexiquery.Proofs.Filter.Every
import Lexiquery.Proofs.Filter.NormalForm

/-! Filters that are equal. Two fields are, if they differ in nothing but nullability and the far
column of a self-relation; two filters are, if their fields are. What they resolve to is then equal
too, for links merge by equality alone. -/

namespace Lexiquery

def Link.plain : Link → Link
  | key far _ => key far false
  | link => link

/-- The link without what equality does not see. -/
def Link.blind : Link → Link
  | key far _ => key far false
  | self table joinColumn _ hierarchical => self table joinColumn "" hierarchical
  | link => link

def Field.strip (m : Link → Link) (f : Field) : Field :=
  ⟨f.kind, f.column,
    match f.flavour with
    | .scalar (.string _) => .scalar (.string false)
    | .scalar (.integer _) => .scalar (.integer false)
    | .scalar .boolean => .scalar .boolean
    | .link link => .link (m link)⟩

def Relationship.strip (m : Link → Link) (r : Relationship) : Relationship :=
  ⟨r.kind, r.column, m r.link⟩

@[simp]
theorem Link.blind_blind (link : Link) : link.blind.blind = link.blind := by
  cases link <;> rfl

theorem Relationship.identity_strip_blind (r : Relationship) :
    (r.strip .blind).field.identity = r.field.identity := by
  obtain ⟨k, c, _ | _ | ⟨_, _, _, _ | _⟩ | ⟨_, _, _, _ | _⟩⟩ := r <;> rfl

theorem Field.identity_eq_iff {f g : Field} :
    f.identity = g.identity ↔ f.strip .blind = g.strip .blind := by
  obtain ⟨k, c, (_ | _ | _) | _ | ⟨_, _, _⟩ | ⟨_, _, _, _ | ⟨_, _⟩⟩ | ⟨_, _, _, _ | _⟩⟩ := f <;>
    obtain ⟨k', c', (_ | _ | _) | _ | ⟨_, _, _⟩ | ⟨_, _, _, _ | ⟨_, _⟩⟩ | ⟨_, _, _, _ | _⟩⟩ := g <;>
      simp +contextual [identity, strip, Flavour.tag, Link.blind, far?, table?, foreignColumn?,
        joinColumn?, fixed?, relationship?, Relationship.far, Relationship.fixed?]

theorem Relationship.beq_iff_strip {r s : Relationship} :
    (r == s) = true ↔ r.strip .blind = s.strip .blind := by
  rw [beq_iff, Field.identity_eq_iff]
  simp [strip, Field.strip, field]

variable (m : Link → Link)

namespace Filter

mutual

/-- The filter with each of its relationships stripped. What a field that is tested has to do with
links counts for nothing. -/
def strip : Filter → Filter
  | empty => empty
  | test f t => test (f.strip .blind) t
  | link r t condition => link (r.strip m) t condition.strip
  | group c fs => group c (stripAll fs)

def stripAll : List Filter → List Filter
  | [] => []
  | f :: fs => f.strip :: stripAll fs

end

theorem stripAll_eq (fs : List Filter) : stripAll m fs = fs.map (strip m) := by
  induction fs <;> simp [stripAll, *]

variable {m}

theorem stripAll_eq_iff {fs gs : List Filter} : stripAll m fs = stripAll m gs ↔
    List.Forall₂ (fun f g => f.strip m = g.strip m) fs gs := by
  rw [stripAll_eq, stripAll_eq, ← List.forall₂_eq_eq_eq, List.forall₂_map_left_iff,
    List.forall₂_map_right_iff]

theorem beq_iff {f g : Filter} : (f == g) = true ↔ f.strip .blind = g.strip .blind := by
  have all {fs : List Filter}
      (h : ∀ f ∈ fs, ∀ g, f.sameAs g = true ↔ f.strip .blind = g.strip .blind)
      (gs : List Filter) : sameAll fs gs = true ↔ stripAll .blind fs = stripAll .blind gs := by
    induction fs generalizing gs with
    | nil => cases gs <;> simp [sameAll, stripAll]
    | cons f fs ih =>
      obtain ⟨hf, hfs⟩ := List.forall_mem_cons.1 h
      cases gs <;> simp [sameAll, stripAll, hf, ih hfs]
  have same (f g : Filter) : (f == g) = f.sameAs g := rfl
  rw [same]
  induction f using induction generalizing g with
  | empty => cases g <;> simp [sameAs, strip]
  | test f t =>
    cases g <;> simp [sameAs, strip, Field.beq_iff, Field.identity_eq_iff]
  | link r t condition ih =>
    cases g <;> simp [sameAs, strip, Relationship.beq_iff_strip, ih, and_assoc]
  | group c fs ih =>
    cases g <;> simp [sameAs, strip, all ih]

end Filter

namespace Sibling

mutual

def strip : Sibling → Sibling
  | single f => single (f.strip .blind)
  | merged r t c conditions => merged (r.strip .blind) t c (stripAll conditions)

def stripAll : List Sibling → List Sibling
  | [] => []
  | s :: ss => s.strip :: stripAll ss

end

theorem stripAll_eq (ss : List Sibling) : stripAll ss = ss.map strip := by
  induction ss <;> simp [stripAll, *]

mutual

theorem toFilter_strip : ∀ s : Sibling, s.strip.toFilter = s.toFilter.strip .blind
  | single _ => rfl
  | merged r t c conditions => by
    simp only [strip, toFilter, Filter.strip, toFilters_stripAll conditions]

theorem toFilters_stripAll : ∀ ss : List Sibling,
    toFilters (stripAll ss) = Filter.stripAll .blind (toFilters ss)
  | [] => rfl
  | s :: ss => by
    simp only [stripAll, toFilters, Filter.stripAll, toFilter_strip s, toFilters_stripAll ss]

end

theorem absorb_strip {r : Relationship} {t : LinkTest} {c : Connective} {condition : Filter}
    {add add' : List Sibling → List Sibling}
    (h : ∀ ss, add' (ss.map strip) = (add ss).map strip) (ss : List Sibling) :
    absorb (r.strip .blind) t c (condition.strip .blind) add' (ss.map strip) =
      (absorb r t c condition add ss).map strip := by
  have same (s : Relationship) : (s.strip .blind == r.strip .blind) = (s == r) := by
    rw [Bool.eq_iff_iff, Relationship.beq_iff, Relationship.beq_iff,
      Relationship.identity_strip_blind, Relationship.identity_strip_blind]
  induction ss with
  | nil => rfl
  | cons s ss ih =>
    match s with
    | single (.link s u first) =>
      have hf : add' [single (first.strip .blind)] = (add [single first]).map strip :=
        h [single first]
      simp only [List.map_cons, strip, Filter.strip, absorb, ih, hf, same]
      split <;> simp [strip, stripAll_eq, Filter.strip]
    | merged s u d conditions =>
      simp only [List.map_cons, strip, stripAll_eq, absorb, ih, h, same]
      split <;> simp [strip, stripAll_eq]
    | single .empty | single (.test ..) | single (.group ..) =>
      simp only [List.map_cons, strip, Filter.strip, absorb, ih]

theorem insert_strip (f : Filter) (c : Connective) (ss : List Sibling) :
    insert (f.strip .blind) c (ss.map strip) = (insert f c ss).map strip := by
  induction f using Filter.induction generalizing c ss with
  | link r t condition ih =>
    rw [Filter.strip, insert, insert]
    split
    · exact absorb_strip (ih _) ss
    · simp [strip, Filter.strip]
  | _ => simp [insert, strip, Filter.strip]

end Sibling

namespace Filter

theorem isEmpty_strip (f : Filter) : (f.strip .blind).isEmpty = f.isEmpty := by
  cases f <;> rfl

theorem compact_strip (f : Filter) : (f.strip .blind).compact = f.compact.strip .blind := by
  induction f using induction with
  | empty => rfl
  | test => rfl
  | link r t condition ih => rw [strip, compact, ih, compact, strip]
  | group c fs ih =>
    rw [strip, stripAll_eq, compact, compact, compactAll_map ih isEmpty_strip]
    cases compactAll fs <;> simp [strip, stripAll_eq]

theorem along_strip (hops : List Relationship) (f : Filter) :
    (along hops f).strip .blind = along (hops.map (·.strip .blind)) (f.strip .blind) := by
  induction hops with
  | nil => rfl
  | cons r hops ih => exact congrArg (link (r.strip .blind) .hasSome) ih

theorem mergeSiblings_strip (c : Connective) (fs : List Filter) :
    mergeSiblings c (fs.map (strip .blind)) = (mergeSiblings c fs).map (strip .blind) :=
  mergeSiblings_map (fun f => Sibling.insert_strip f c) Sibling.toFilter_strip fs

theorem strip_normalize_strip (f : Filter) (k : Kind) :
    ((f.strip .blind).normalize k).strip .blind = (f.normalize k).strip .blind := by
  induction f using induction generalizing k with
  | empty => rfl
  | test f t =>
    have idem : (f.strip .blind).strip .blind = f.strip .blind := by
      obtain ⟨k, c, (_ | _ | _) | _⟩ := f <;> simp [Field.strip]
    rw [strip, normalize, normalize, along_strip, along_strip, strip, idem, strip]
    rfl
  | link r t condition ih =>
    have idem : (r.strip .blind).strip .blind = r.strip .blind := by simp [Relationship.strip]
    have far : (r.strip .blind).far = r.far :=
      Relationship.far_eq_of_beq (Relationship.beq_iff.2 r.identity_strip_blind)
    rw [strip, normalize, normalize, along_strip, along_strip, strip, idem, far, ih, strip]
    rfl
  | group c fs ih =>
    simp only [strip, normalize, stripAll_eq, normalizeAll_eq, List.map_map,
      ← mergeSiblings_strip]
    congr 2
    exact List.map_congr_left fun f hf => ih f hf k

theorem strip_resolve_congr {f g : Filter} (h : f.strip .blind = g.strip .blind) (k : Kind) :
    (f.resolve k).strip .blind = (g.resolve k).strip .blind := by
  rw [resolve, resolve, ← compact_strip, ← compact_strip, ← strip_normalize_strip f, h,
    strip_normalize_strip]

end Filter

theorem Filter.resolve_beq {f g : Filter} (h : (f == g) = true) (k : Kind) :
    (f.resolve k == g.resolve k) = true :=
  beq_iff.2 (strip_resolve_congr (beq_iff.1 h) k)

end Lexiquery
