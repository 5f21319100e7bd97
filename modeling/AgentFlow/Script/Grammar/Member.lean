import AgentFlow.Script.Grammar.Goal

/-!
# Members

Names of members, object literals, array literals, arguments and templates, and the patterns that
take values apart.
-/

namespace AgentFlow.Script

/-! ## Lists of values -/

/-- Three dots and an expression. -/
def spread (rules : Rules) : Rule := fun c => do
  let b := c.skip
  let d ← b.punct? "..."
  let (t, e) ← rules.assignment d
  some (b.node e .spread [(.plain, t)], e)

/-- An item of a list of values. -/
def listItem (rules : Rules) : Rule := either (spread rules) rules.assignment

/-- The entries of a list up to its closing bracket. Places may be left empty; what fits no rule is
kept as broken, and a list whose bracket is missing ends with its last entry. -/
def entries (rule : Rule) (closing : String) : Nat → Cursor → List Tree × Cursor
  | 0, c => ([], c)
  | fuel + 1, c =>
    let c := c.skipMarkup
    match c.punct? closing with
    | some d => ([], d)
    | none =>
      match c.punct? "," with
      | some d => entries rule closing fuel d
      | none =>
        match rule c with
        | some (t, d) =>
          let (bad, e) := broken d
          if (e.punct? ",").isSome || (e.punct? closing).isSome then
            let (ts, f) := entries rule closing fuel e
            (t :: bad ++ ts, f)
          else (t :: bad, e)
        | none =>
          let (bad, d) := broken c
          if bad.isEmpty then ([], c)
          else
            let (ts, e) := entries rule closing fuel d
            (bad ++ ts, e)

/-- Values between brackets. -/
def list (rules : Rules) (kind : Kind) (opening closing : String) : Rule := within true fun c => do
  let b := c.skip
  let d ← b.punct? opening
  let (ts, e) := entries (listItem rules) closing d.fuel d
  some (b.node e kind (plain ts), e)

/-- An array literal. -/
def array (rules : Rules) : Rule := list rules .array "[" "]"

/-- The arguments of a call. -/
def arguments (rules : Rules) : Rule := list rules .other "(" ")"

/-- The substitutions of a template up to its closing mark. -/
def templateParts (part : Rule) : Nat → Cursor → Option (List Tree × Cursor)
  | 0, _ => none
  | fuel + 1, c =>
    match c.rest with
    | [] => none
    | '\x60' :: _ => some ([], c.drop 1)
    | '\\' :: _ => templateParts part fuel (c.drop 2)
    | '$' :: '\x7b' :: _ => do
      let (t, d) ← closed part "\x7d" (c.drop 2)
      let (ts, e) ← templateParts part fuel d
      some (c.node d .other [(.plain, t)] :: ts, e)
    | _ => templateParts part fuel (c.drop 1)

/-- A template with substitutions of some kind. -/
def templateOf (kind : Kind) (part : Rule) : Rule := within true fun c => do
  let b := c.skip
  let d ← b.punct? "\x60"
  let (ts, e) ← templateParts part d.fuel d
  some (b.node e kind (plain ts), e)

/-- A template string. -/
def template (rules : Rules) : Rule := templateOf .template (rules .expression)

/-! ## Names -/

/-- The name of a member: a word, a string, a number, an expression between brackets or a private
name. -/
def memberName (rules : Rules) : Rule := fun c =>
  let b := c.skip
  match b.rest with
  | '"' :: _ => string? b
  | '\'' :: _ => string? b
  | '[' :: _ => do
    let (t, d) ← within true (closed rules.assignment "]") (b.drop 1)
    some (b.node d .other [(.plain, t)], d)
  | '#' :: _ => do
    let (_, _, d) ← (b.drop 1).word?
    some (b.node d .other [], d)
  | _ => either number? anyName? b

/-- The words that may stand in front of the name of a member. -/
def memberModifiers : List String :=
  ["async", "get", "set", "static", "public", "private", "protected", "readonly", "override",
    "abstract", "declare", "accessor"]

/-- The name of a member behind its modifiers, with the cursor past it. What follows the name has
to satisfy `follows`, so that a modifier can be a name as well. -/
def memberHead (rules : Rules) (follows : Cursor → Bool) : Nat → Rule
  | 0, _ => none
  | fuel + 1, c =>
    match (memberName rules c).filter fun r => follows r.2 with
    | some r => some r
    | none =>
      match c.punct? "*" with
      | some d => memberHead rules follows fuel d
      | none =>
        match c.keywords? memberModifiers with
        | some d => memberHead rules follows fuel d
        | none => none

/-- Whether the signature of a method stands at a cursor. -/
def startsSignature (c : Cursor) : Bool :=
  let d := (c.punct? "?").getD c
  d.looksAt "(" || d.looksAt "<"

/-- Type parameters, parameters and the type of the result. -/
def signature (rules : Rules) (returnType : Bool) (c : Cursor) : Option (List Tree × Cursor) := do
  let (ts, d) := optional (typeParameters rules) c
  let (t, e) ← rules .parameters d
  let (us, f) := if returnType then ascription rules e else ([], e)
  some (ts ++ t :: us, f)

/-! ## Object literals -/

/-- A method with its body. -/
def method (rules : Rules) : Rule := fun c => do
  let b := c.skip
  let (name, d) ← memberHead rules startsSignature 8 b
  let (ps, e) ← signature rules true ((d.punct? "?").getD d)
  let (body, f) ← rules .block e
  some (b.node f .method ((.name, name) :: plain (ps ++ [body])), f)

/-- A name, a colon and a value. A missing value is an empty name. -/
def pair (rules : Rules) : Rule := fun c => do
  let b := c.skip
  let (name, d) ← memberName rules b
  let e ← d.punct? ":"
  match rules.assignment e with
  | some (v, f) => some (b.node f .pair [(.key, name), (.value, v)], f)
  | none =>
    if endsEntry e then
      some (b.node e .pair [(.key, name), (.value, e.node e .identifier [])], e)
    else none

/-- A name that stands for itself and its value, perhaps with a default. -/
def shorthand (rules : Rules) : Rule := fun c => do
  let (t, d) ← innerIdentifier? c
  let b := c.skip
  match d.equals? with
  | some e =>
    let (v, f) ← rules.assignment e
    some (b.node f .broken [(.plain, t), (.plain, v)], f)
  | none => some (b.node d .shorthand [], d)

/-- A member of an object literal. -/
def objectMember (rules : Rules) : Rule :=
  either (spread rules) (either (method rules) (either (pair rules) (shorthand rules)))

/-- An object literal. -/
def object (rules : Rules) : Rule := within true fun c => do
  let b := c.skip
  let d ← b.punct? "\x7b"
  let (ts, e) := entries (objectMember rules) "\x7d" d.fuel d
  some (b.node e .object (plain ts), e)

/-- Whether an object literal has members only and ends with its brace. -/
def isSound (t : Tree) : Bool :=
  t.children.all (fun c => c.kind != .broken) && t.text.getLast? == some '\x7d'

/-! ## Patterns -/

/-- A pattern with an optional default. -/
def patternItem (rules : Rules) : Rule := fun c => do
  let b := c.skip
  let rest := b.punct? "..."
  let (t, d) ← rules .pattern (rest.getD b)
  match d.equals? with
  | some e =>
    let (v, f) ← rules.assignment e
    some (b.node f .other [(.plain, t), (.plain, v)], f)
  | none => some (if rest.isSome then b.node d .other [(.plain, t)] else t, d)

/-- A member of an object pattern. -/
def patternMember (rules : Rules) : Rule := fun c => do
  let b := c.skip
  let named := do
    let (name, d) ← memberName rules b
    let e ← d.punct? ":"
    let (t, f) ← patternItem rules e
    some (b.node f .other [(.plain, name), (.plain, t)], f)
  match named with
  | some r => some r
  | none =>
    let (t, d) ← patternItem rules b
    some (b.node d .other (if t.kind == .identifier then [] else [(.plain, t)]), d)

/-- A pattern of members or items between brackets. -/
def groupPattern (rules : Rules) : Rule := within true fun c => do
  let b := c.skip
  let isObject := b.looksAt "\x7b"
  let d ← orElse (b.punct? "\x7b") (b.punct? "[")
  let (ts, e) := commas (if isObject then patternMember rules else patternItem rules) d.fuel d
  let f ← e.punct? (if isObject then "\x7d" else "]")
  some (b.node f .other (plain ts), f)

/-- The words that may stand in front of a parameter. -/
def parameterModifiers : List String :=
  ["public", "private", "protected", "readonly", "override", "accessor"]

/-- Whether the text at a cursor may follow a parameter. -/
def endsParameter (c : Cursor) : Bool :=
  match c.peek? with
  | none => false
  | some ch => [',', ')', '?', ':', '='].contains ch

/-- A parameter behind its modifiers: a pattern, perhaps optional, with a type and a default. -/
def parameterCore (rules : Rules) : Nat → Rule
  | 0, _ => none
  | fuel + 1, c =>
    match (rules .pattern ((c.punct? "...").getD c)).filter fun r => endsParameter r.2 with
    | some (t, d) => do
      let b := c.skip
      let (ts, d) := ascription rules ((d.punct? "?").getD d)
      match d.equals? with
      | some e =>
        let (v, f) ← rules.assignment e
        some (b.node f .other (plain (t :: ts ++ [v])), f)
      | none => some (b.node d .other (plain (t :: ts)), d)
    | none =>
      match c.keywords? parameterModifiers with
      | some d => parameterCore rules fuel d
      | none => none

end AgentFlow.Script
