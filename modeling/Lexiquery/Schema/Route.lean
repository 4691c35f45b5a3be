import Lexiquery.Schema.Fields

/-! The fixed path of relationships from one kind to another. The kinds form a tree: notion, word,
group, frame, part in a row, and form and pronunciation in a row behind word. -/

namespace Lexiquery.Schema

/-- The first hop from `target` towards `other`. -/
def route (target other : Kind) : Option Relationship :=
  if target = other then none
  else some <| match target, other with
    | .notion, _ => Notion.words
    | .word, .notion => Word.notions
    | .word, .group | .word, .frame | .word, .part => Word.groups
    | .word, _ => Word.forms .base
    | .group, .frame | .group, .part => Group.frames
    | .group, _ => Group.words
    | .frame, .part => Frame.parts
    | .frame, _ => Frame.groups
    | .part, _ => Part.frames
    | .form, .pronunciation => Form.pronunciations
    | .form, _ => Form.words .base
    | .pronunciation, _ => Pronunciation.forms

/-- The number of hops between the two kinds that lie farthest apart. -/
def diameter : Nat := 5

def pathFrom : Nat → Kind → Kind → List Relationship
  | 0, _, _ => []
  | n + 1, target, other =>
    match route target other with
    | none => []
    | some via => via :: pathFrom n via.far other

def path (target other : Kind) : List Relationship :=
  pathFrom diameter target other

def Leads : Kind → List Relationship → Kind → Prop
  | k, [], l => k = l
  | k, r :: rs, l => r.kind = k ∧ Leads r.far rs l

instance decidableLeads : (k : Kind) → (rs : List Relationship) → (l : Kind) →
    Decidable (Leads k rs l)
  | k, [], l => decEq k l
  | k, r :: rs, l =>
    have := decidableLeads r.far rs l
    inferInstanceAs (Decidable (r.kind = k ∧ Leads r.far rs l))

theorem path_leads (k l : Kind) : Leads k (path k l) l := by
  cases k <;> cases l <;> decide

theorem length_path_le (k l : Kind) : (path k l).length ≤ diameter := by
  cases k <;> cases l <;> decide

@[simp] theorem path_self (k : Kind) : path k k = [] := by
  cases k <;> rfl

theorem path_eq (k l : Kind) :
    path k l = match route k l with
      | none => []
      | some via => via :: path via.far l := by
  cases k <;> cases l <;> rfl

end Lexiquery.Schema
