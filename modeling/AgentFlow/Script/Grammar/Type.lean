import AgentFlow.Script.Grammar.Expression

/-!
# Types

Nothing asks what a type is, but it may hold what is asked for: the word `object` counts as an
object literal where it is a type, and object literals stand among the arguments of an import and in
the defaults of parameters. What does not fit the rule of brackets in a type is passed up to their
end.
-/

namespace AgentFlow.Script

/-! ## Brackets -/

/-- An item of a tuple: a type, which may have a name, and marks around it. -/
def tupleItem (rules : Rules) : Rule := fun c => do
  let b := c.skip
  let d := (b.punct? "...").getD b
  let named := do
    let (_, _, e) ← d.word?
    ((e.punct? "?").getD e).punct? ":"
  let (t, e) ← rules .type (named.getD d)
  some (t, (e.punct? "?").getD e)

/-- A tuple, or what indexes a type. -/
def tuple (rules : Rules) : Rule := bracketed '[' (group (tupleItem rules) "[" "]")

/-- The brackets of an array type or of a member behind a type, on its line where a statement may
end. -/
def typeIndex (rules : Rules) : Rule := fun c =>
  if c.newlineAhead && !c.inner then none else tuple rules c

/-- The type of a function: type parameters, parameters and the type of the result. -/
def functionType (rules : Rules) : Rule := fun c => do
  let b := c.skip
  let (ts, d) := optional (typeParameters rules) b
  let (ps, e) ← bracketed '(' (rules .parameters) d
  let f ← e.punct? "=>"
  let (t, g) ← rules .type f
  some (b.node g .other (plain (ts ++ [ps, t])), g)

/-- The type of a function, or a type between parentheses. -/
def parenthesizedType (rules : Rules) : Rule := fun c => do
  let d ← enclosed? c '('
  if d.looksAt "=>" then functionType rules c
  else bracketed '(' (group (rules .type) "(" ")") c

/-- The cursor past a sign. -/
def passSign (c : Cursor) : Cursor := (orElse (c.punct? "+") (c.punct? "-")).getD c

/-- The cursor past the marks behind the name of a member. -/
def passMark (c : Cursor) : Cursor :=
  let d := passSign c
  (orElse (d.punct? "?") (d.punct? "!")).getD d

/-- A member of an object type: an index, a method, or a field with its type. A method may have no
name. -/
def typeMember (rules : Rules) : Rule := fun c => do
  let b := c.skip
  let (head, d) := optional (either (indexHead rules) (memberHead rules endsMemberName 10))
    (passSign b)
  let e := passMark d
  let (ts, f) :=
    if startsSignature e then (signature rules true e).getD ([], e) else ascription rules e
  some (b.node f .other (plain (head ++ ts)), f)

/-- The members of a type between braces. -/
def objectType (rules : Rules) : Rule := bracketed '\x7b' (within false fun c => do
  let b := c.skip
  let d ← b.punct? "\x7b"
  let (ts, e) := many (either (lone ";") (either (lone ",") (typeMember rules))) d.fuel d
  let f ← e.punct? "\x7d"
  some (b.node f .other (plain ts), f))

/-! ## Names -/

/-- A name with the names behind its dots, and type arguments. The word `object` counts as an object
literal, unless it is the name of a value. -/
def namedType (rules : Rules) (isValue : Bool) : Rule := fun c => do
  let (b, w, d) ← c.word?
  let word := if w == "object" && !isValue then [b.node d .object []] else []
  let (ts, e) := optional (typeArguments rules) (passDotted d.fuel d)
  some (b.node e .other (plain (word ++ ts)), e)

/-- A module that is imported on the spot, or what it exports. -/
def importedType (rules : Rules) : Rule := fun c => do
  let b := c.skip
  let d ← b.keyword? "import"
  match bracketed '(' (arguments rules) d with
  | some (t, e) =>
    let (ts, f) := optional (typeArguments rules) (passDotted e.fuel e)
    some (b.node f .other (plain (t :: ts)), f)
  | none => some (b.node d .other [], d)

/-- The type of a value. -/
def typeQuery (rules : Rules) : Rule := fun c => do
  let b := c.skip
  let d ← b.keyword? "typeof"
  let (ts, e) := optional (either (importedType rules) (namedType rules true)) d
  some (b.node e .other (plain ts), e)

/-- The type of what makes instances. -/
def constructorType (rules : Rules) : Rule := fun c => do
  let b := c.skip
  let d ← b.keyword? "new"
  let (t, e) ← functionType rules d
  some (b.node e .other [(.plain, t)], e)

/-- A name that a condition on a type binds, with its bound. -/
def inferredType (rules : Rules) : Rule := fun c => do
  let b := c.skip
  let d ← b.keyword? "infer"
  let (_, _, e) ← d.word?
  let (ts, f) := behind (·.keyword? "extends") (rules .type) e
  some (b.node f .other (plain ts), f)

/-- The words that stand in front of another type. -/
def typePrefixes : List String := ["keyof", "unique", "readonly", "asserts", "abstract"]

/-- A word in front of another type. -/
def prefixedType (operand : Rule) : Rule := fun c => do
  let b := c.skip
  let d ← b.keywords? typePrefixes
  let (t, e) ← operand d
  some (b.node e .other [(.plain, t)], e)

/-- A type, perhaps with the assertion `is T` behind it, on its line. -/
def asserted (rules : Rules) (rule : Rule) : Rule := fun c => do
  let b := c.skip
  let (t, d) ← rule b
  let (ts, e) :=
    if d.newlineAhead then ([], d) else behind (·.keyword? "is") (rules .type) d
  some (b.node e .other (plain (t :: ts)), e)

/-- A type that begins with a name. -/
def typeName (rules : Rules) (operand : Rule) : Rule := fun c =>
  let w := c.nextWord
  if w == "new" then constructorType rules c
  else if w == "typeof" then typeQuery rules c
  else if w == "import" then importedType rules c
  else
    asserted rules (either (inferredType rules)
      (either (prefixedType operand) (namedType rules false))) c

/-! ## Types -/

/-- A negative number. -/
def negativeNumber : Rule := fun c => do
  let b := c.skip
  let d ← b.punct? "-"
  let (t, e) ← number? d
  some (b.node e .other [(.plain, t)], e)

/-- A type without operators and indexes. -/
def typeCore (rules : Rules) (operand : Rule) : Rule := fun c =>
  match c.peek? with
  | none => none
  | some ch =>
    if ch == '(' then parenthesizedType rules c
    else if ch == '<' then functionType rules c
    else if ch == '\x7b' then objectType rules c
    else if ch == '[' then tuple rules c
    else if ch == '"' || ch == '\'' then string? c
    else if ch == '\x60' then
      either (templateOf .other (rules .type)) (fun c => (templateText? c).map (leaf c)) c
    else if ch == '-' then negativeNumber c
    else if ch.isDigit then number? c
    else typeName rules operand c

/-- A type without operators, with the brackets behind it. -/
def typeOperand (rules : Rules) : Nat → Rule
  | 0, _ => none
  | fuel + 1, c => do
    let b := c.skip
    let (t, d) ← typeCore rules (typeOperand rules fuel) b
    let (ts, e) := many (typeIndex rules) d.fuel d
    some (b.node e .other (plain (t :: ts)), e)

/-- A condition on a type, on its line where a statement may end, and what is chosen by it. -/
def choiceBehind (rules : Rules) (c : Cursor) : Option (List Tree × Cursor) :=
  if c.newlineAhead && !c.inner then none
  else do
    let d ← c.keyword? "extends"
    let (t, e) ← closed (rules .type) "?" d
    let (u, f) ← closed (rules .type) ":" e
    let (v, g) ← rules .type f
    some ([t, u, v], g)

/-- What operators join to a type: another type, or a choice between types. -/
def typeTail (rules : Rules) (c : Cursor) : Option (List Tree × Cursor) :=
  if c.looksAt "||" || c.looksAt "&&" then some ([], c)
  else
    match orElse (c.punct? "|") (c.punct? "&") with
    | some d => (rules .type d).map fun r => ([r.1], r.2)
    | none => some ((choiceBehind rules c).getD ([], c))

/-- A type, with everything that unions, intersections and conditions join to it. -/
def typeRule (rules : Rules) : Rule := fun c => do
  let b := c.skip
  let d := (orElse (b.punct? "|") (b.punct? "&")).getD b
  let (t, e) ← typeOperand rules d.fuel d
  let (ts, f) ← typeTail rules e
  some (b.node f .other (plain (t :: ts)), f)

end AgentFlow.Script
