import AgentFlow.Value.Basic

/-!
# References to nodes

The inputs of a node are values, and some texts in them stand for the result of another node:
`:node` or `:node.member.member`, alone or inside a template as `${:node.member}`. A `DataSource`
is what one such text, or any other value, stands for.

* `DataSource.ofValue`: what a single value stands for.
* `DataSource.inside`: all that an inputs value holds, in document order.
-/

namespace AgentFlow

/-- Where a value comes from: a node and the path to a part of its result, or itself. -/
inductive DataSource where
  | node (id : Text) (path : List Text)
  | literal (value : Value)

namespace DataSource

/-- The segments of a reference. A dot ends a segment, unless it stands right after an opening or
right before a closing parenthesis. `opened` tells whether an opening parenthesis is in front. -/
def segments (opened : Bool) : Text → List Text
  | [] => [[]]
  | p :: rest =>
    if p = .char '.' ∧ !opened ∧ rest.head? ≠ some (.char ')') then
      [] :: segments false rest
    else match segments (p = .char '(') rest with
      | [] => [[p]]
      | part :: parts => (p :: part) :: parts

theorem segments_ne_nil (opened : Bool) (t : Text) : segments opened t ≠ [] := by
  cases t with
  | nil => simp [segments]
  | cons p rest =>
    simp only [segments]
    split
    · simp
    · split <;> simp

/-- Joining the segments with dots gives the reference back. -/
theorem join_segments (opened : Bool) (t : Text) :
    Text.join [.char '.'] (segments opened t) = t := by
  induction t generalizing opened with
  | nil => rfl
  | cons p rest ih =>
    simp only [segments]
    split
    case isTrue h =>
      obtain ⟨q, qs, hq⟩ := List.exists_cons_of_ne_nil (segments_ne_nil false rest)
      have hr := ih false
      rw [hq] at hr ⊢
      simp only [Text.join, List.intercalate, List.intersperse_cons_cons, List.flatten_cons]
        at hr ⊢
      simp [h.1, hr]
    case isFalse h =>
      obtain ⟨q, qs, hq⟩ := List.exists_cons_of_ne_nil (segments_ne_nil (p = .char '(') rest)
      have hr := ih (p = .char '(')
      rw [hq] at hr ⊢
      cases qs with
      | nil => simpa [Text.join, List.intercalate] using hr
      | cons r rs =>
        simp only [Text.join, List.intercalate, List.intersperse_cons_cons, List.flatten_cons]
          at hr ⊢
        simpa using hr

/-- What follows the colon of a reference; a reference is one line. -/
def referenceBody? : Text → Option Text
  | .char ':' :: rest => if rest.contains (.char '\n') then none else some rest
  | _ => none

/-- The source that a reference names, given what follows its colon. -/
def ofBody (body : Text) : DataSource :=
  match segments false body with
  | [] => .node [] []
  | id :: path => .node id path

/-- What a single value stands for. -/
def ofValue (v : Value) : DataSource :=
  match v with
  | .str t =>
    match referenceBody? t with
    | some body => ofBody body
    | none => .literal v
  | _ => .literal v

/-- The reference of a template that opens at the start of a text. -/
def templateAt? : Text → Option Text
  | .char '$' :: .char '\x7b' :: .char ':' :: rest =>
    let body := rest.takeWhile (· ≠ .char '\x7d')
    if body.isEmpty || body.length = rest.length then none else some (.char ':' :: body)
  | _ => none

/-- The references of the templates in a text, left to right. The first `skip` code points belong
to a template that was found already. -/
def templatesFrom : Nat → Text → List Text
  | _, [] => []
  | skip + 1, _ :: rest => templatesFrom skip rest
  | 0, p :: rest =>
    match templateAt? (p :: rest) with
    | some reference => reference :: templatesFrom (reference.length + 2) rest
    | none => templatesFrom 0 rest

/-- The references of the templates in a text. -/
def templates (t : Text) : List Text := templatesFrom 0 t

/-- What a text stands for: its templates, or itself if it has none. -/
def insideText (t : Text) : List DataSource :=
  match templates t with
  | [] => [ofValue (.str t)]
  | references => references.map fun r => ofValue (.str r)

mutual

/-- All sources inside a value, in document order: lists and the values of mappings are opened,
everything else stands for itself. -/
def inside : Value → List DataSource
  | .list items => insideItems items
  | .map es => insideEntries es
  | .orderedMap es => insideEntries es
  | .str t => insideText t
  | v => [ofValue v]

/-- The sources inside the items of a list. -/
def insideItems : List Value → List DataSource
  | [] => []
  | v :: vs => inside v ++ insideItems vs

/-- The sources inside the values of a mapping. -/
def insideEntries : List (Value × Value) → List DataSource
  | [] => []
  | (_, v) :: es => inside v ++ insideEntries es

end

end DataSource

end AgentFlow
