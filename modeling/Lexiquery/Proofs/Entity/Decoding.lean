import Lexiquery.Proofs.Entity.Columns

/-! Which rows hold no record. The columns are read one by one, in the order in which they are
selected, and the first whose value is none of its type is what is wrong with the row. -/

namespace Lexiquery

inductive ColumnType
  | integer
  | text
  | integerOrNull
  | textOrNull
  | code (label : String) (codes : List Int64)

namespace ColumnType

def ofEnumeration (α : Type) [Enumeration α] : ColumnType :=
  .code (Enumeration.label α) ((Enumeration.all (α := α)).map Enumeration.code)

def classes : ColumnType → List StorageClass
  | integer | code .. => [.integer]
  | text => [.text]
  | integerOrNull => [.integer, .null]
  | textOrNull => [.text, .null]

def fault? (t : ColumnType) (c : Cells) (i : Nat) : Option DecodeError :=
  if (c.value i).storageClass ∈ t.classes then
    match t, c.value i with
    | code label codes, .integer n => if n ∈ codes then none else some (.unknown ⟨label, n⟩)
    | _, .garbled g => some (.garbled c.kind i g.fault)
    | _, _ => none
  else some (.invalidType c.kind i (c.value i).storageClass)

end ColumnType

namespace Kind

def columnTypes : Kind → List ColumnType
  | notion => [.integer, .ofEnumeration PartOfSpeech, .integerOrNull, .integerOrNull]
  | word => [.integer, .integer, .integer, .integerOrNull, .integerOrNull, .integerOrNull]
  | group => [.integer, .text]
  | frame => [.integer, .integer, .text]
  | part => [.integer, .integer, .integer, .ofEnumeration PartType, .textOrNull, .textOrNull]
  | form => [.integer, .text, .integer, .integer, .integer]
  | pronunciation => [.integer, .text, .textOrNull, .textOrNull, .integer, .text]

/-- What is wrong with the first column of a row with which something is wrong. -/
def fault? (k : Kind) (row : Row) : Option DecodeError :=
  k.columnTypes.zipIdx.findSome? fun q => q.1.fault? ⟨k, row⟩ q.2

end Kind

theorem List.findSome?_cons_or {α β : Type} {f : α → Option β} {a : α} {as : List α} :
    (a :: as).findSome? f = (f a).or (as.findSome? f) := by
  rw [List.findSome?_cons]
  cases f a <;> rfl

theorem Except.mapError_eq_ok_iff {α ε ε' : Type} {x : Except ε α} {f : ε → ε'} {a : α} :
    x.mapError f = .ok a ↔ x = .ok a := by
  cases x <;> simp [Except.mapError]

theorem Except.mapError_eq_error_iff {α ε ε' : Type} {x : Except ε α} {f : ε → ε'} {e' : ε'} :
    x.mapError f = .error e' ↔ ∃ e, x = .error e ∧ f e = e' := by
  cases x <;> simp [Except.mapError]

def Except.FailsWith {α ε : Type} (x : Except ε α) (o : Option ε) : Prop :=
  ∀ e, x = .error e ↔ o = some e

namespace Except.FailsWith

variable {α β ε : Type} {x : Except ε α} {o : Option ε}

theorem pure (a : α) : FailsWith (Pure.pure a : Except ε α) none := by
  simp [FailsWith, Pure.pure, Except.pure]

theorem map (hx : FailsWith x o) (f : α → β) : FailsWith (f <$> x) o := by
  intro e
  rw [← hx e]
  cases x <;> simp [Functor.map, Except.map]

theorem bind {f : α → Except ε β} {r : Option ε} (hx : FailsWith x o)
    (hf : ∀ a, FailsWith (f a) r) : FailsWith (x >>= f) (o.or r) := by
  cases x with
  | error e =>
    obtain rfl := (hx e).1 rfl
    intro e'
    simp [Bind.bind, Except.bind]
  | ok a =>
    obtain rfl : o = none := Option.eq_none_iff_forall_ne_some.2 fun e => by simp [← hx e]
    exact hf a

theorem mapM {f : α → Except ε β} {o : α → Option ε} (h : ∀ a, FailsWith (f a) (o a))
    (as : List α) : FailsWith (as.mapM f) (as.findSome? o) := by
  induction as with
  | nil => exact .pure []
  | cons a as ih =>
    rw [List.mapM_cons, List.findSome?_cons_or, ← Option.or_none (o := as.findSome? o)]
    exact (h a).bind fun _ => ih.bind fun _ => .pure _

theorem exists_ok_iff (hx : FailsWith x o) : (∃ a, x = .ok a) ↔ o = none := by
  rw [Option.eq_none_iff_forall_ne_some]
  cases x with
  | error e => simpa using ⟨e, (hx e).1 rfl⟩
  | ok a => simp [← hx _]

end Except.FailsWith

namespace Cells

variable (c : Cells) (i : Nat)

theorem integer_fails : Except.FailsWith (c.integer i) (ColumnType.integer.fault? c i) := by
  unfold integer Except.FailsWith
  cases h : c.value i <;>
    simp [refuse, ColumnType.fault?, ColumnType.classes, h, Value.storageClass]

theorem text_fails : Except.FailsWith (c.text i) (ColumnType.text.fault? c i) := by
  unfold text Except.FailsWith
  cases h : c.value i <;>
    simp [refuse, ColumnType.fault?, ColumnType.classes, h, Value.storageClass]

theorem integerOrNull_fails :
    Except.FailsWith (c.integerOrNull i) (ColumnType.integerOrNull.fault? c i) := by
  unfold integerOrNull integer Except.FailsWith
  cases h : c.value i <;>
    simp [refuse, ColumnType.fault?, ColumnType.classes, h, Value.storageClass,
      Value.isNull, Functor.map, Except.map]

theorem textOrNull_fails :
    Except.FailsWith (c.textOrNull i) (ColumnType.textOrNull.fault? c i) := by
  unfold textOrNull text Except.FailsWith
  cases h : c.value i <;>
    simp [refuse, ColumnType.fault?, ColumnType.classes, h, Value.storageClass,
      Value.isNull, Functor.map, Except.map]

theorem bool_fails : Except.FailsWith (c.bool i) (ColumnType.integer.fault? c i) :=
  (c.integer_fails i).map _

theorem ofCode_fails {α : Type} [Enumeration α] (n : Int64) :
    Except.FailsWith ((Enumeration.ofCode n : Except _ α).mapError DecodeError.unknown)
      (if n ∈ (Enumeration.all (α := α)).map Enumeration.code then none
        else some (.unknown ⟨Enumeration.label α, n⟩)) := by
  unfold Enumeration.ofCode Except.FailsWith
  cases h : (Enumeration.all (α := α)).find? (Enumeration.code · == n) with
  | some a =>
    have found : Enumeration.code a = n := by simpa using List.find?_some h
    simp [← found, List.mem_map_of_mem (List.mem_of_find?_eq_some h), Except.mapError]
  | none =>
    have missing : n ∉ (Enumeration.all (α := α)).map Enumeration.code := by
      simpa using List.find?_eq_none.1 h
    simp [missing, Except.mapError]

theorem code_fails {α : Type} [Enumeration α] :
    Except.FailsWith (c.code i : Except _ α) ((ColumnType.ofEnumeration α).fault? c i) := by
  unfold code integer
  cases h : c.value i with
  | integer n =>
    simp only [ColumnType.fault?, ColumnType.ofEnumeration, ColumnType.classes, h,
      Value.storageClass, List.mem_singleton, if_true]
    exact ofCode_fails n
  | _ =>
    simp [refuse, ColumnType.fault?, ColumnType.ofEnumeration, ColumnType.classes, h,
      Value.storageClass, bind, Except.bind, Except.FailsWith]

end Cells

namespace Entity

open Cells in
/-- A row fails to decode for what is wrong with the first column with which something is wrong. -/
theorem decode_fails (k : Kind) (row : Row) : Except.FailsWith (decode k row) (k.fault? row) := by
  cases k <;>
    simp only [Kind.fault?, Kind.columnTypes, List.zipIdx_cons, List.zipIdx_nil,
      List.findSome?_cons_or, List.findSome?_nil]
  case notion =>
    exact (integer_fails _ 0).bind fun _ => (code_fails _ 1).bind fun _ =>
      (integerOrNull_fails _ 2).bind fun _ => (integerOrNull_fails _ 3).bind fun _ => .pure _
  case word =>
    exact (integer_fails _ 0).bind fun _ => (integer_fails _ 1).bind fun _ =>
      (integer_fails _ 2).bind fun _ => (integerOrNull_fails _ 3).bind fun _ =>
      (integerOrNull_fails _ 4).bind fun _ => (integerOrNull_fails _ 5).bind fun _ => .pure _
  case group =>
    exact (integer_fails _ 0).bind fun _ => (text_fails _ 1).bind fun _ => .pure _
  case frame =>
    exact (integer_fails _ 0).bind fun _ => (integer_fails _ 1).bind fun _ =>
      (text_fails _ 2).bind fun _ => .pure _
  case part =>
    exact (integer_fails _ 0).bind fun _ => (integer_fails _ 1).bind fun _ =>
      (integer_fails _ 2).bind fun _ => (code_fails _ 3).bind fun _ =>
      (textOrNull_fails _ 4).bind fun _ => (textOrNull_fails _ 5).bind fun _ => .pure _
  case form =>
    exact (integer_fails _ 0).bind fun _ => (text_fails _ 1).bind fun _ =>
      (integer_fails _ 2).bind fun _ => (bool_fails _ 3).bind fun _ =>
      (integer_fails _ 4).bind fun _ => .pure _
  case pronunciation =>
    exact (integer_fails _ 0).bind fun _ => (text_fails _ 1).bind fun _ =>
      (textOrNull_fails _ 2).bind fun _ => (textOrNull_fails _ 3).bind fun _ =>
      (integer_fails _ 4).bind fun _ => (text_fails _ 5).bind fun _ => .pure _

end Entity

end Lexiquery
