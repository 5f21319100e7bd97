import AgentFlow.Script.Lexeme

/-!
# Grammar goals

The rules of the grammar call each other through goals. A rule is an ordinary function that gets
the readers of all goals as an argument, so rules are not recursive themselves; `parse` ties them
together. This module holds the goals and the readers that all rules share, among them those of the
types that stand in expressions and declarations.
-/

namespace AgentFlow.Script

/-- What can be read anywhere inside something else. -/
inductive Goal where
  /-- An expression without commas; an arrow function in it may have a return type or not. -/
  | assignment (returnTypes : Bool)
  /-- Expressions with commas between them. -/
  | expression
  | object
  | type
  | pattern
  | parameters
  | statement
  | block
  | classBody
  deriving DecidableEq

/-- A reader of one part of a script. -/
abbrev Rule := Cursor → Option (Tree × Cursor)

/-- The readers of all goals. -/
abbrev Rules := Goal → Rule

/-- Children without a part of their own. -/
def plain (ts : List Tree) : List (Label × Tree) := ts.map fun t => (.plain, t)

/-- Fuel for a loop of which every round reads a character. -/
def Cursor.fuel (c : Cursor) : Nat := c.rest.length + 1

/-- The reader of an expression without commas. -/
def Rules.assignment (rules : Rules) : Rule := rules (.assignment true)

/-- The words that are no names of variables. -/
def reservedWords : List String :=
  ["break", "case", "catch", "class", "const", "continue", "debugger", "default", "delete", "do",
    "else", "enum", "export", "extends", "false", "finally", "for", "function", "if", "import",
    "in", "instanceof", "new", "null", "return", "super", "switch", "this", "throw", "true", "try",
    "typeof", "var", "void", "while", "with"]

/-- The name of a variable. -/
def identifier? : Rule := fun c => do
  let (b, w, d) ← c.word?
  if reservedWords.contains w then none
  else some (b.node d (if w == "undefined" then .undefinedWord else .identifier) [], d)

/-- A name that may be a reserved word. -/
def anyName? : Rule := fun c => do
  let (b, _, d) ← c.word?
  some (b.node d .propertyName [], d)

/-- The words that mean something of their own where an operand begins. -/
def operandWords : List String :=
  ["class", "delete", "false", "function", "import", "new", "null", "super", "this", "true",
    "typeof", "void"]

/-- The name of a variable where no statement can begin: most reserved words are names there. -/
def innerIdentifier? : Rule := fun c => do
  let (b, w, d) ← c.word?
  if operandWords.contains w then none
  else some (b.node d (if w == "undefined" then .undefinedWord else .identifier) [], d)

/-- A rule for what stands inside brackets, or among statements. -/
def within (inner : Bool) (rule : Rule) : Rule := fun c =>
  (rule { c with inner := inner }).map fun r => (r.1, { r.2 with inner := c.inner })

/-- An expression, then `closing`. -/
def closed (rule : Rule) (closing : String) : Rule := fun c => do
  let (t, d) ← rule c
  let e ← d.punct? closing
  some (t, e)

/-- A part that may be missing. -/
def optional (rule : Rule) (c : Cursor) : List Tree × Cursor :=
  match rule c with
  | some (t, d) => ([t], d)
  | none => ([], c)

/-- The first of two rules that reads something. -/
def either (first second : Rule) : Rule := fun c =>
  match first c with
  | some r => some r
  | none => second c

/-- The cursor past `first`, or where it fails past `second`. -/
def orElse (first second : Option Cursor) : Option Cursor :=
  match first with
  | some c => some c
  | none => second

/-- A part behind something that is passed, if both stand there. -/
def behind (pass : Cursor → Option Cursor) (rule : Rule) (c : Cursor) : List Tree × Cursor :=
  optional (fun d => (pass d).bind rule) c

/-- The cursor past a row of names with dots in front of them. -/
def passDotted : Nat → Cursor → Cursor
  | 0, c => c
  | fuel + 1, c =>
    match (do let d ← c.punct? "."; let (_, _, e) ← d.word?; some e) with
    | some e => passDotted fuel e
    | none => c

/-- A node without parts between two cursors. -/
def leaf (c d : Cursor) : Tree × Cursor := (c.skip.node d .other [], d)

/-- As many parts as a rule reads one after the other. -/
def many (rule : Rule) : Nat → Cursor → List Tree × Cursor
  | 0, c => ([], c)
  | fuel + 1, c =>
    match rule c with
    | none => ([], c)
    | some (t, d) =>
      if d.rest.length < c.rest.length then
        let (ts, e) := many rule fuel d
        (t :: ts, e)
      else ([], c)

/-- Parts with commas between them; a comma may stand alone or at the end. -/
def commas (rule : Rule) : Nat → Cursor → List Tree × Cursor
  | 0, c => ([], c)
  | fuel + 1, c =>
    let c := c.skipMarkup
    match c.punct? "," with
    | some d => commas rule fuel d
    | none =>
      match rule c with
      | none => ([], c)
      | some (t, d) =>
        match d.punct? "," with
        | some e =>
          let (ts, e) := commas rule fuel e
          (t :: ts, e)
        | none => ([t], d)

/-- Parts with commas between them, in brackets. -/
def group (item : Rule) (opening closing : String) : Rule := within true fun c => do
  let b := c.skip
  let d ← b.punct? opening
  let (ts, e) := commas item d.fuel d
  let f ← e.punct? closing
  some (b.node f .other (plain ts), f)

/-- What a rule reads from a bracket up to its mate; what does not fit the rule is passed. -/
def bracketed (opening : Char) (rule : Rule) : Rule := fun c => do
  let d ← enclosed? c opening
  match (rule c).filter fun r => r.2.offset == d.offset with
  | some r => some r
  | none => some (leaf c d)

/-! ## Types in other parts -/

/-- A colon and a type, if they stand there. -/
def ascription (rules : Rules) (c : Cursor) : List Tree × Cursor :=
  behind (·.punct? ":") (rules .type) c

/-- Types between angle brackets. -/
def typeArguments (rules : Rules) : Rule := group (rules .type) "<" ">"

/-- The modifiers of a type parameter. -/
def variance : List String := ["const", "in", "out"]

/-- A type parameter with its bound and its default. -/
def typeParameter (rules : Rules) : Rule := fun c => do
  let b := c.skip
  let (_, _, d) ← (b.skipWords variance 3).word?
  let (bound, e) := behind (·.keyword? "extends") (rules .type) d
  let (given, f) := behind Cursor.equals? (rules .type) e
  some (b.node f .other (plain (bound ++ given)), f)

/-- Type parameters between angle brackets. -/
def typeParameters (rules : Rules) : Rule := group (typeParameter rules) "<" ">"

/-- The types behind a word, with commas between them, if the word stands there. -/
def typeList (rules : Rules) (word : String) (c : Cursor) : List Tree × Cursor :=
  match c.keyword? word with
  | some d => commas (rules .type) d.fuel d
  | none => ([], c)

/-- Whether brackets with a name and its type begin at a cursor. -/
def startsIndex (c : Cursor) : Bool :=
  match (c.punct? "[").bind Cursor.word? with
  | some (_, _, d) => d.looksAt ":" || d.nextWord == "in"
  | none => false

/-- A name between brackets with its type, or with the type of which it runs over the members,
perhaps under another name. -/
def index (rules : Rules) : Rule := bracketed '[' (within true fun c => do
  let b := c.skip
  let d ← b.punct? "["
  let (_, _, e) ← d.word?
  let f ← orElse (e.punct? ":") (e.keyword? "in")
  let (t, g) ← rules .type f
  let (ts, h) := behind (·.keyword? "as") (rules .type) g
  let i ← h.punct? "]"
  some (b.node i .other (plain (t :: ts)), i))

/-! ## What fits no rule -/

/-- Whether the text at a cursor ends an entry of a list. -/
def endsEntry (c : Cursor) : Bool :=
  match c.peek? with
  | none => true
  | some ch => [',', ';', ')', ']', '\x7d'].contains ch

/-- The cursor past what fits no rule, up to the end of an entry. -/
def passBroken : Nat → Cursor → Cursor
  | 0, c => c
  | fuel + 1, c =>
    if endsEntry c then c
    else
      let c := c.skip
      let whole : Option Cursor :=
        match c.rest with
        | [] => none
        | ch :: _ =>
          if ch == '"' || ch == '\'' then (string? c).map (·.2)
          else if ch == '\x60' then templateText? c
          else if (closing? ch).isSome then enclosed? c ch
          else none
      passBroken fuel (whole.getD (c.drop 1))

/-- What fits no rule, as a node; nothing if an entry ends right here. -/
def broken (c : Cursor) : List Tree × Cursor :=
  if endsEntry c then ([], c)
  else
    let b := c.skip
    let d := passBroken c.fuel b
    ([b.node d .broken []], d)

end AgentFlow.Script
