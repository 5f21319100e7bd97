import AgentFlow.Schema.Number
import AgentFlow.Value.Basic

/-!
# Members of a model

A model is read from a mapping member by member; members that it does not know are passed over.
All problems of all members are listed, in the order of the model. Numbers may be written in other
ways than as integers, as long as they are whole.

* `Member.integer`: what counts as an integer.
* `Checked.both`: two readings, with the problems of both.
-/

namespace AgentFlow

/-- A reading, or the problems that stand against it. -/
abbrev Checked (α : Type) := Except (List Problem) α

namespace Checked

/-- A reading that has one problem right here. -/
def problem {α : Type} (kind : ProblemKind) : Checked α := .error [⟨[], kind⟩]

/-- Two readings one after the other; the problems of both are kept. -/
def both {α β γ : Type} (f : α → β → γ) (a : Checked α) (b : Checked β) : Checked γ :=
  match a, b with
  | .ok a, .ok b => .ok (f a b)
  | .error ps, .ok _ => .error ps
  | .ok _, .error qs => .error qs
  | .error ps, .error qs => .error (ps ++ qs)

/-- A reading of a part, whose problems lie on the way to that part. -/
def inside {α : Type} (steps : List Step) (a : Checked α) : Checked α :=
  a.mapError fun ps => ps.map (Problem.inside steps)

/-- The readings of all items of a list, whose problems lie at the items. -/
def all {α : Type} (f : Value → Checked α) : Nat → List Value → Checked (List α)
  | _, [] => .ok []
  | i, v :: vs => both (· :: ·) (inside [.index i] (f v)) (all f (i + 1) vs)

theorem both_ok_iff {α β γ : Type} {f : α → β → γ} {a : Checked α} {b : Checked β} {c : γ} :
    both f a b = .ok c ↔ ∃ x y, a = .ok x ∧ b = .ok y ∧ f x y = c := by
  cases a <;> cases b <;> simp [both]

end Checked

namespace Member

/-- A text. -/
def text : Value → Checked Text
  | .str t => .ok t
  | _ => Checked.problem .stringType

/-- An integer: also a truth value, a double that is whole, and a text that spells one. -/
def integer : Value → Checked Int
  | .int n => .ok n
  | .bool b => .ok (if b then 1 else 0)
  | .float x =>
    if !x.isFinite then Checked.problem .finiteNumber
    else
      match x.toInt? with
      | none => Checked.problem .intFromFloat
      | some n =>
        if -0x8000000000000000 < n ∧ n < 0x8000000000000000 then .ok n
        else Checked.problem .intParsingSize
  | .str t =>
    match Numeral.wholeNumber t with
    | .ok n => .ok n
    | .error kind => Checked.problem kind
  | _ => Checked.problem .intType

/-- An integer that is not negative. -/
def natural (v : Value) : Checked Nat :=
  match integer v with
  | .error ps => .error ps
  | .ok n => if 0 ≤ n then .ok n.toNat else Checked.problem .greaterThanEqual

/-- One of some texts. -/
def literal (choices : List Text) : Value → Checked Text
  | .str t =>
    if choices.contains t then .ok t
    else Checked.problem (if t.chars?.isSome then .literalError else .stringUnicode)
  | _ => Checked.problem .literalError

/-- The member of a mapping under a name. -/
def required {α : Type} (es : Entries) (name : Text) (f : Value → Checked α) : Checked α :=
  Checked.inside [.name name]
    (match es.field? name with
    | some v => f v
    | none => Checked.problem .missing)

/-- The entries of a mapping that a model is read from; anything else has the given problem. -/
def model {α : Type} (otherwise : ProblemKind) (f : Entries → Checked α) (v : Value) : Checked α :=
  match v.entries? with
  | some es => f es
  | none => Checked.problem otherwise

end Member

end AgentFlow
