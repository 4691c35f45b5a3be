import Lexiquery.Entity.Basic
import Lexiquery.Proofs.Statement.Selection

/-! Which record a row holds: its fields are the values of its own columns. -/

namespace Lexiquery

theorem Except.bind_eq_ok_iff {α β ε : Type} {x : Except ε α} {f : α → Except ε β} {b : β} :
    (x >>= f) = .ok b ↔ ∃ a, x = .ok a ∧ f a = .ok b := by
  cases x <;> simp [bind, Except.bind]

def Value.ofOption {α : Type} (f : α → Value) (o : Option α) : Value := o.elim .null f

namespace Cells

variable {c : Cells} {i : Nat}

theorem integer_eq_ok_iff {n : Int64} : c.integer i = .ok n ↔ c.value i = .integer n := by
  unfold integer
  cases c.value i <;> simp [refuse]

theorem text_eq_ok_iff {s : String} : c.text i = .ok s ↔ c.value i = .text s := by
  unfold text
  cases c.value i <;> simp [refuse]

theorem integerOrNull_eq_ok_iff {o : Option Int64} :
    c.integerOrNull i = .ok o ↔ c.value i = .ofOption .integer o := by
  unfold integerOrNull integer
  cases o <;> cases c.value i <;> simp [refuse, Value.isNull, Value.ofOption]

theorem textOrNull_eq_ok_iff {o : Option String} :
    c.textOrNull i = .ok o ↔ c.value i = .ofOption .text o := by
  unfold textOrNull text
  cases o <;> cases c.value i <;> simp [refuse, Value.isNull, Value.ofOption]

theorem bool_eq_ok_iff {b : Bool} :
    c.bool i = .ok b ↔ ∃ n, c.value i = .integer n ∧ (n != 0) = b := by
  unfold bool integer
  cases c.value i <;> simp [refuse]

theorem code_eq_ok_iff {α : Type} [Enumeration α] {a : α}
    (h : Enumeration.ofCode (Enumeration.code a) = .ok a) :
    c.code i = .ok a ↔ c.value i = .integer (Enumeration.code a) := by
  have ofCode {n : Int64} : (Enumeration.ofCode n : Except _ α) = .ok a ↔
      n = Enumeration.code a := by
    refine ⟨fun hn => ?_, fun hn => hn ▸ h⟩
    unfold Enumeration.ofCode at hn
    cases hf : (Enumeration.all (α := α)).find? (Enumeration.code · == n) with
    | none => simp [hf] at hn
    | some a' =>
      obtain rfl : a' = a := by simpa [hf] using hn
      have found : Enumeration.code a' = n := by simpa using List.find?_some hf
      exact found.symm
  have mapError (n : Int64) : (Enumeration.ofCode n : Except _ α).mapError DecodeError.unknown =
      .ok a ↔ n = Enumeration.code a := by
    rw [← ofCode]
    cases (Enumeration.ofCode n : Except _ α) <;> simp [Except.mapError]
  simp only [code, Except.bind_eq_ok_iff, integer_eq_ok_iff, mapError]
  exact ⟨fun ⟨n, hn, ha⟩ => ha ▸ hn, fun h => ⟨_, h, rfl⟩⟩

end Cells

namespace Entity

def Shows (x : Row) : Entity → Prop
  | notion n =>
    x.get "notion_id" = .integer n.id ∧
      x.get "part_of_speech" = .integer (Enumeration.code n.partOfSpeech) ∧
      x.get "wnid" = .ofOption .integer n.wnid ∧
      x.get "images" = .ofOption .integer n.numOfImages
  | word w =>
    x.get "word_id" = .integer w.id ∧ x.get "notion_id" = .integer w.notionId ∧
      x.get "lemma_id" = .integer w.lemmaId ∧
      x.get "tag_count" = .ofOption .integer w.tagCount ∧
      x.get "position" = .ofOption .integer w.adjectivePosition ∧
      x.get "group_id" = .ofOption .integer w.groupId
  | group g => x.get "group_id" = .integer g.id ∧ x.get "data" = .text g.data
  | frame f =>
    x.get "frame_id" = .integer f.id ∧ x.get "group_id" = .integer f.groupId ∧
      x.get "data" = .text f.data
  | part p =>
    x.get "part_id" = .integer p.id ∧ x.get "frame_id" = .integer p.frameId ∧
      x.get "part_index" = .integer p.index ∧
      x.get "part_type" = .integer (Enumeration.code p.type) ∧
      x.get "role" = .ofOption .text p.role ∧ x.get "value" = .ofOption .text p.value
  | form f =>
    x.get "form_id" = .integer f.id ∧ x.get "form" = .text f.text ∧
      x.get "complexity" = .integer f.complexity ∧
      (∃ n, x.get "proper" = .integer n ∧ (n != 0) = f.proper) ∧
      x.get "length" = .integer f.length
  | pronunciation p =>
    x.get "pronunciation_id" = .integer p.id ∧ x.get "phonemes" = .text p.phonemes ∧
      x.get "prerhyme" = .ofOption .text p.prerhyme ∧ x.get "rhyme" = .ofOption .text p.rhyme ∧
      x.get "syllables" = .integer p.numOfSyllables ∧ x.get "stress" = .text p.stress

theorem kind_of_decode {k : Kind} {row : Row} {e : Entity} (h : decode k row = .ok e) :
    e.kind = k := by
  cases k <;>
    simp only [decode, Except.bind_eq_ok_iff, pure, Except.pure, Except.ok.injEq] at h
  case notion => obtain ⟨_, -, _, -, _, -, _, -, rfl⟩ := h; rfl
  case word => obtain ⟨_, -, _, -, _, -, _, -, _, -, _, -, rfl⟩ := h; rfl
  case group => obtain ⟨_, -, _, -, rfl⟩ := h; rfl
  case frame => obtain ⟨_, -, _, -, _, -, rfl⟩ := h; rfl
  case part => obtain ⟨_, -, _, -, _, -, _, -, _, -, _, -, rfl⟩ := h; rfl
  case form => obtain ⟨_, -, _, -, _, -, _, -, _, -, rfl⟩ := h; rfl
  case pronunciation => obtain ⟨_, -, _, -, _, -, _, -, _, -, _, -, rfl⟩ := h; rfl

theorem decode_project_iff {x : Row} {e : Entity} :
    decode e.kind (e.kind.project x) = .ok e ↔ e.Shows x := by
  have cell {k : Kind} (i : Nat) : (Cells.mk k (k.project x)).value i =
      (k.columns[i]?.map x.get).getD .null := by
    simp only [Cells.value, Kind.project, List.getElem?_map, Option.map_map]
    rfl
  cases e <;>
    simp only [kind, decode, Except.bind_eq_ok_iff, pure, Except.pure, Except.ok.injEq,
      Cells.integer_eq_ok_iff, Cells.text_eq_ok_iff, Cells.integerOrNull_eq_ok_iff,
      Cells.textOrNull_eq_ok_iff, Cells.bool_eq_ok_iff, cell,
      Cells.code_eq_ok_iff (PartOfSpeech.ofCode_code _),
      Cells.code_eq_ok_iff (PartType.ofCode_code _)]
  case notion n =>
    exact ⟨fun ⟨_, h₀, _, h₁, _, h₂, _, h₃, h⟩ => by cases h; exact ⟨h₀, h₁, h₂, h₃⟩,
      fun ⟨h₀, h₁, h₂, h₃⟩ => ⟨_, h₀, _, h₁, _, h₂, _, h₃, rfl⟩⟩
  case word w =>
    exact ⟨fun ⟨_, h₀, _, h₁, _, h₂, _, h₃, _, h₄, _, h₅, h⟩ => by
        cases h; exact ⟨h₀, h₁, h₂, h₃, h₄, h₅⟩,
      fun ⟨h₀, h₁, h₂, h₃, h₄, h₅⟩ => ⟨_, h₀, _, h₁, _, h₂, _, h₃, _, h₄, _, h₅, rfl⟩⟩
  case group g =>
    exact ⟨fun ⟨_, h₀, _, h₁, h⟩ => by cases h; exact ⟨h₀, h₁⟩,
      fun ⟨h₀, h₁⟩ => ⟨_, h₀, _, h₁, rfl⟩⟩
  case frame f =>
    exact ⟨fun ⟨_, h₀, _, h₁, _, h₂, h⟩ => by cases h; exact ⟨h₀, h₁, h₂⟩,
      fun ⟨h₀, h₁, h₂⟩ => ⟨_, h₀, _, h₁, _, h₂, rfl⟩⟩
  case part p =>
    exact ⟨fun ⟨_, h₀, _, h₁, _, h₂, _, h₃, _, h₄, _, h₅, h⟩ => by
        cases h; exact ⟨h₀, h₁, h₂, h₃, h₄, h₅⟩,
      fun ⟨h₀, h₁, h₂, h₃, h₄, h₅⟩ => ⟨_, h₀, _, h₁, _, h₂, _, h₃, _, h₄, _, h₅, rfl⟩⟩
  case form f =>
    exact ⟨fun ⟨_, h₀, _, h₁, _, h₂, _, h₃, _, h₄, h⟩ => by
        cases h; exact ⟨h₀, h₁, h₂, h₃, h₄⟩,
      fun ⟨h₀, h₁, h₂, h₃, h₄⟩ => ⟨_, h₀, _, h₁, _, h₂, _, h₃, _, h₄, rfl⟩⟩
  case pronunciation p =>
    exact ⟨fun ⟨_, h₀, _, h₁, _, h₂, _, h₃, _, h₄, _, h₅, h⟩ => by
        cases h; exact ⟨h₀, h₁, h₂, h₃, h₄, h₅⟩,
      fun ⟨h₀, h₁, h₂, h₃, h₄, h₅⟩ => ⟨_, h₀, _, h₁, _, h₂, _, h₃, _, h₄, _, h₅, rfl⟩⟩

theorem Shows.get_primaryKey {x : Row} {e : Entity} (h : e.Shows x) :
    x.get e.kind.primaryKey = .integer e.id := by
  cases e <;> exact h.1

end Entity

namespace Store

def Has (store : Store) (e : Entity) : Prop :=
  ∃ x ∈ store.records e.kind, Entity.decode e.kind (e.kind.project x) = .ok e

def Decodable (store : Store) : Prop :=
  ∀ k, ∀ x ∈ store.records k, ∃ e, Entity.decode k (k.project x) = .ok e

instance (store : Store) (e : Entity) : Decidable (store.Has e) :=
  inferInstanceAs (Decidable (∃ x ∈ store.records e.kind, _))

theorem decodable_iff {store : Store} : store.Decodable ↔ ∀ k ∈ Kind.all, ∀ x ∈ store.records k,
    (Entity.decode k (k.project x)).toBool = true := by
  have ok (r : Except DecodeError Entity) : (∃ e, r = .ok e) ↔ r.toBool = true := by
    cases r <;> simp [Except.toBool]
  simp [Decodable, ok, Kind.mem_all]

instance (store : Store) : Decidable store.Decodable := decidable_of_iff' _ decodable_iff

theorem has_iff {store : Store} {e : Entity} :
    store.Has e ↔ ∃ x ∈ store.records e.kind, e.Shows x :=
  exists_congr fun _ => and_congr_right fun _ => Entity.decode_project_iff

end Store

end Lexiquery
