import AgentFlow.Script.Binding
import AgentFlow.Script.Literal.Escape
import AgentFlow.Script.Literal.Number

/-!
# Plain data from literals

An object or array literal is turned into a plain value. Names are followed to their definitions;
what is no plain data is kept as a marker with its text. A name that is being followed already is
not followed again, so conversion ends however definitions refer to each other: each name that is
followed leaves one name less, and everything else goes down the tree.

* `convert`: the value of a node, given the tree to look names up in and the names being followed.
* `convertReference`: the value of a name.
-/

namespace AgentFlow.Script

/-- An expression that is no plain data, as a text. -/
def marker (text : List Char) : Value :=
  .str ("<expr>" ++ Text.ofChars text ++ "</expr>")

/-- The marker of a function that stands as a member. -/
def functionMarker : Value := marker "AnonymousFunctionAgent".toList

/-- What the fragments and escape sequences of a string literal stand for, one after the other. -/
def stringParts? : List Tree → Except EscapeError Text
  | [] => .ok []
  | t :: ts =>
    match t.kind with
    | .fragment => do
      let rest ← stringParts? ts
      .ok (Text.ofChars t.text ++ rest)
    | .escape => do
      let p ← decodeEscape (Text.ofChars t.text)
      let rest ← stringParts? ts
      .ok (p ++ rest)
    | _ => stringParts? ts

/-- The text of a string literal: escaped surrogates are paired up, and lone ones replaced. -/
def stringValue (t : Tree) : Except EscapeError Text := do
  let parts ← stringParts? t.children
  .ok (Text.ofChars parts.scalars)

/-- The name of a member: the text of a string literal, or the name as it is written. -/
def propertyName (key : Tree) : Except EscapeError Text :=
  if key.kind = .string then stringValue key else .ok (Text.ofChars key.text)

/-- The number of names with a definition that are not being followed. -/
def pending (root : Option Tree) (active : List Name) : Nat :=
  match root with
  | none => 0
  | some r => (r.definedNames.filter fun n => !active.contains n).length

private theorem length_filter_le {α : Type} {p q : α → Bool} (h : ∀ a, p a = true → q a = true)
    (xs : List α) : (xs.filter p).length ≤ (xs.filter q).length := by
  induction xs with
  | nil => simp
  | cons x xs ih =>
    cases hp : p x with
    | true => simpa [hp, h x hp] using ih
    | false =>
      cases hq : q x with
      | true => simp only [List.filter_cons, hp, hq]; simp; omega
      | false => simpa [hp, hq] using ih

private theorem length_filter_lt {α : Type} {p q : α → Bool} (h : ∀ a, p a = true → q a = true)
    {xs : List α} {x : α} (hx : x ∈ xs) (hp : p x = false) (hq : q x = true) :
    (xs.filter p).length < (xs.filter q).length := by
  induction xs with
  | nil => simp at hx
  | cons y ys ih =>
    rcases List.mem_cons.1 hx with rfl | hy
    · have := length_filter_le h ys
      simp only [List.filter_cons, hp, hq]
      simp
      omega
    · have := ih hy
      cases hpy : p y with
      | true => simpa [hpy, h y hpy] using this
      | false =>
        cases hqy : q y with
        | true => simp only [List.filter_cons, hpy, hqy]; simp; omega
        | false => simpa [hpy, hqy] using this

theorem pending_lt {root d : Tree} {active : List Name} {name : Name}
    (hd : root.definition? name = some d) (ha : ¬ name ∈ active) :
    pending (some root) (name :: active) < pending (some root) active :=
  length_filter_lt (by simp) (Tree.mem_definedNames hd) (by simp) (by simpa using ha)

theorem size_child?_lt {t c : Tree} {l : Label} (h : t.child? l = some c) : c.size < t.size := by
  simp only [Tree.child?, Option.map_eq_some_iff] at h
  obtain ⟨d, hd, rfl⟩ := h
  exact Tree.size_child_lt (List.mem_map_of_mem (List.mem_of_find?_eq_some hd))

theorem size_labelled (t : Tree) : Tree.sizeList t.labelled + 1 = t.size := by
  obtain ⟨k, a, b, s, cs⟩ := t
  simp [Tree.labelled, Tree.size]

mutual

/-- The value of a node. Names are looked up in `root`, or never if there is none. -/
def convert (root : Option Tree) (active : List Name) (t : Tree) : Except EscapeError Value :=
  match t.kind with
  | .object => do
    let es ← convertMembers root active t.labelled
    .ok (.map (Entries.putAll [] es))
  | .array => do
    let vs ← convertItems root active t.labelled
    .ok (.list vs)
  | .identifier => convertReference root active t.text
  | .string => do
    let s ← stringValue t
    .ok (.str s)
  | .number => .ok ((numberValue? (Text.ofChars t.text)).getD (marker t.text))
  | .trueWord => .ok (.bool true)
  | .falseWord => .ok (.bool false)
  | .nullWord => .ok .null
  | .undefinedWord => .ok (marker "undefined".toList)
  | _ => .ok (marker t.text)
termination_by (pending root active, t.size, 0)
decreasing_by
  all_goals have := size_labelled t
  · exact .right _ (.left _ _ (by omega))
  · exact .right _ (.left _ _ (by omega))
  · exact .right _ (.left _ _ t.size_pos)

/-- The value of a name: that of its definition, or a marker if it has none or is being followed
already. -/
def convertReference (root : Option Tree) (active : List Name) (name : Name) :
    Except EscapeError Value :=
  match root with
  | none => .ok (marker name)
  | some r =>
    if _ha : name ∈ active then .ok (marker name)
    else
      match _hd : r.definition? name with
      | none => .ok (marker name)
      | some d => convert (some r) (name :: active) d
termination_by (pending root active, 0, 0)
decreasing_by exact .left _ _ (pending_lt _hd _ha)

/-- The entries of the members of an object literal, in document order. -/
def convertMembers (root : Option Tree) (active : List Name) :
    List (Label × Tree) → Except EscapeError Entries
  | [] => .ok []
  | (_, m) :: ms => do
    let es ← convertMember root active m
    let rest ← convertMembers root active ms
    .ok (es ++ rest)
termination_by ms => (pending root active, Tree.sizeList ms, 1)
decreasing_by
  · have := m.size_pos
    rcases Nat.eq_zero_or_pos (Tree.sizeList ms) with h | h
    · rw [Tree.sizeList, h, Nat.add_zero]; exact .right _ (.right _ (by omega))
    · exact .right _ (.left _ _ (by rw [Tree.sizeList]; omega))
  · have := m.size_pos
    exact .right _ (.left _ _ (by rw [Tree.sizeList]; omega))

/-- The entries that one member of an object literal supplies. A function counts as an agent
without a name. -/
def convertMember (root : Option Tree) (active : List Name) (m : Tree) :
    Except EscapeError Entries :=
  match m.kind with
  | .pair =>
    match m.child? .key, _hv : m.child? .value with
    | some key, some v => do
      let k ← propertyName key
      let v ← if v.kind = .function then .ok functionMarker else convert root active v
      .ok [(.str k, v)]
    | _, _ => .ok []
  | .shorthand => do
    let v ← convertReference root active m.text
    .ok [(.str (Text.ofChars m.text), v)]
  | .spread =>
    match m.namedChildren.head? with
    | some target => convertSpread root active target
    | none => .ok []
  | .method =>
    match m.child? .name with
    | some name => do
      let k ← propertyName name
      .ok [(.str k, functionMarker)]
    | none => .ok []
  | _ => .ok []
termination_by (pending root active, m.size, 0)
decreasing_by
  · exact .right _ (.left _ _ (size_child?_lt _hv))
  · exact .right _ (.left _ _ m.size_pos)
  · exact .right _ (.left _ _ m.size_pos)

/-- The entries that a spread supplies: those of the object literal that a name is defined as, or
else a marker under the text of the spread. -/
def convertSpread (root : Option Tree) (active : List Name) (target : Tree) :
    Except EscapeError Entries :=
  let kept : Entries := [(.str ("..." ++ Text.ofChars target.text), marker target.text)]
  match root with
  | none => .ok kept
  | some r =>
    if target.kind = .identifier then
      if _ha : target.text ∈ active then .ok kept
      else
        match _hd : r.definition? target.text with
        | none => .ok kept
        | some d =>
          if d.kind = .object then do
            let es ← convertMembers (some r) (target.text :: active) d.labelled
            .ok (Entries.putAll [] es)
          else .ok kept
    else .ok kept
termination_by (pending root active, 0, 0)
decreasing_by exact .left _ _ (pending_lt _hd _ha)

/-- The values of the items of an array literal. -/
def convertItems (root : Option Tree) (active : List Name) :
    List (Label × Tree) → Except EscapeError (List Value)
  | [] => .ok []
  | (_, t) :: ts =>
    if t.kind = .comment ∨ t.kind = .equals then convertItems root active ts
    else do
      let v ← convert root active t
      let vs ← convertItems root active ts
      .ok (v :: vs)
termination_by ts => (pending root active, Tree.sizeList ts, 1)
decreasing_by
  · have := t.size_pos
    exact .right _ (.left _ _ (by rw [Tree.sizeList]; omega))
  · have := t.size_pos
    rcases Nat.eq_zero_or_pos (Tree.sizeList ts) with h | h
    · rw [Tree.sizeList, h, Nat.add_zero]; exact .right _ (.right _ (by omega))
    · exact .right _ (.left _ _ (by rw [Tree.sizeList]; omega))
  · have := t.size_pos
    exact .right _ (.left _ _ (by rw [Tree.sizeList]; omega))

end

end AgentFlow.Script
