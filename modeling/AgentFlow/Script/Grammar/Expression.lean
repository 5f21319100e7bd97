import AgentFlow.Script.Grammar.Member

/-!
# Expressions

Operators are read without their precedence: an operand and all that operators join to it are one
node, because nothing asks how they are grouped. Functions and classes, calls and members, and
arrow functions are told apart by what stands in front of or behind them.
-/

namespace AgentFlow.Script

/-! ## Functions and classes -/

/-- The body of a function, or the end of its signature. -/
def bodyOrEnd (rules : Rules) (c : Cursor) : List Tree × Cursor :=
  match rules .block c with
  | some (t, d) => ([t], d)
  | none => ([], (c.semicolon? false).getD c)

/-- A function with its keyword. -/
def functionWith (rules : Rules) (kind : Kind) (needsBody : Bool) : Rule := fun c => do
  let b := c.skip
  let d ← ((b.keyword? "async").getD b).keyword? "function"
  let d := (d.punct? "*").getD d
  let d := ((identifier? d).map (·.2)).getD d
  let (ps, d) ← signature rules true d
  let (body, e) := bodyOrEnd rules d
  if needsBody && body.isEmpty then none
  else some (b.node e kind (plain (ps ++ body)), e)

/-- A decorator: an at sign and a name, a call or an expression between parentheses. -/
def decorator (operand : Rule) : Rule := fun c => do
  let b := c.skip
  let d ← b.punct? "@"
  let (t, e) ← operand d
  some (b.node e .other [(.plain, t)], e)

/-- The cursor past the name of a class, if it has one. -/
def passClassName (c : Cursor) : Cursor :=
  match c.word? with
  | some (_, w, d) => if w == "extends" || w == "implements" then c else d
  | none => c

/-- The class that a class extends, with its type arguments, if there is one. -/
def baseClass (rules : Rules) (operand : Rule) (c : Cursor) : List Tree × Cursor :=
  match c.keyword? "extends" with
  | some d =>
    let (ts, e) := optional operand d
    let (us, f) := optional (typeArguments rules) e
    (ts ++ us, f)
  | none => ([], c)

/-- The name of a class, its type parameters and its heritage. -/
def classHead (rules : Rules) (operand : Rule) (c : Cursor) : List Tree × Cursor :=
  let (params, d) := optional (typeParameters rules) (passClassName c)
  let (base, e) := baseClass rules operand d
  let (kept, f) := typeList rules "implements" e
  (params ++ (base ++ kept), f)

/-- A class with its decorators, keyword, head and body. -/
def classWith (rules : Rules) (operand : Rule) : Rule := fun c => do
  let b := c.skip
  let (marks, d) := many (decorator operand) b.fuel b
  let d := (d.keyword? "abstract").getD d
  let d ← d.keyword? "class"
  let (head, d) := classHead rules operand d
  let (body, e) ← rules .classBody d
  some (b.node e .other (plain (marks ++ head ++ [body])), e)

/-- Whether the text at a cursor may follow the name of a class member. -/
def endsMemberName (c : Cursor) : Bool :=
  match c.peek? with
  | none => true
  | some ch => ['(', '<', '?', '!', ':', '=', ';', ',', '\x7d'].contains ch || c.newlineAhead

/-- An index behind its modifiers. -/
def indexHead (rules : Rules) : Rule := fun c =>
  let d := c.skip.skipWords memberModifiers 4
  if startsIndex d then index rules d else none

/-- A member of a class that is indexed by a key: it declares a type only. -/
def indexMember (rules : Rules) : Rule := fun c => do
  let b := c.skip
  let (t, d) ← indexHead rules b
  let (ts, e) := ascription rules d
  let f := (e.semicolon? false).getD e
  some (b.node f .other (plain (t :: ts)), f)

/-- A block that runs when its class is made. -/
def staticBlock (rules : Rules) : Rule := fun c => do
  let d ← c.keyword? "static"
  rules .block d

/-- A field or method of a class. -/
def classField (rules : Rules) : Rule := fun c => do
  let b := c.skip
  let (name, d) ← memberHead rules endsMemberName 10 b
  let d := (orElse (d.punct? "?") (d.punct? "!")).getD d
  if d.looksAt "(" || d.looksAt "<" then
    let (ps, d) ← signature rules true d
    let (body, e) := bodyOrEnd rules d
    some (b.node e .method ((.name, name) :: plain (ps ++ body)), e)
  else
    let (ts, d) := ascription rules d
    match d.equals? with
    | some e =>
      let (v, f) ← rules.assignment e
      let g := (orElse (f.semicolon? true) (f.punct? ",")).getD f
      some (b.node g .other (plain (name :: ts ++ [v])), g)
    | none =>
      let g := (orElse (d.semicolon? false) (d.punct? ",")).getD d
      some (b.node g .other (plain (name :: ts)), g)

/-- A lone semicolon. -/
def lone (mark : String) : Rule := fun c => do
  let b := c.skip
  let d ← b.punct? mark
  some (b.node d .other [], d)

/-- The members of a class between braces. -/
def classBody (rules : Rules) (operand : Rule) : Rule := fun c => do
  let b := c.skip
  let d ← b.punct? "\x7b"
  let member := either (lone ";") (either (decorator operand)
    (either (staticBlock rules) (either (indexMember rules) (classField rules))))
  let (ts, e) := many (fun c => member c.skipMarkup) d.fuel d
  let f ← e.skipMarkup.punct? "\x7d"
  some (b.node f .other (plain ts), f)

/-! ## Operands -/

/-- A word that is an operand by itself. -/
def wordOperand : Rule := fun c => do
  let (b, w, d) ← c.word?
  let kind? : Option Kind :=
    if w == "true" then some .trueWord
    else if w == "false" then some .falseWord
    else if w == "null" then some .nullWord
    else if ["this", "super", "import", "new"].contains w then some .other
    else none
  match kind? with
  | some kind => some (b.node d kind [], d)
  | none => innerIdentifier? c

/-- An expression between parentheses. -/
def parenthesized (rules : Rules) : Rule := within true fun c => do
  let b := c.skip
  let d ← b.punct? "("
  let (t, e) ← closed (rules .expression) ")" d
  some (b.node e .other [(.plain, t)], e)

/-- An operand without the calls and members behind it. -/
def primary (rules : Rules) (operand : Rule) : Rule := fun c =>
  match c.peek? with
  | none => none
  | some ch =>
    if ch == '\x7b' then object rules c
    else if ch == '[' then array rules c
    else if ch == '(' then parenthesized rules c
    else if ch == '"' || ch == '\'' then string? c
    else if ch == '\x60' then template rules c
    else if ch == '/' then regex? c
    else if ch == '@' then classWith rules operand c
    else if ch == '#' then memberName rules c
    else if ch.isDigit || ch == '.' then number? c
    else
      let w := c.nextWord
      if w == "function" then functionWith rules .function true c
      else if w == "class" then classWith rules operand c
      else if w == "async" then either (functionWith rules .function true) wordOperand c
      else wordOperand c

/-- Whether type arguments that end at a cursor belong to a value. -/
def endsTypeArguments (c : Cursor) : Bool :=
  match c.peek? with
  | none => true
  | some ch => ['(', '\x60', ')', ']', ',', ';', ':', '.', '\x7d'].contains ch || c.newlineAhead

/-- A call, member, index or mark behind an operand. Some of them have no part that is kept. -/
def suffix? (rules : Rules) (c : Cursor) : Option (List Tree × Cursor) :=
  let some1 (r : Option (Tree × Cursor)) : Option (List Tree × Cursor) :=
    r.map fun r => ([r.1], r.2)
  let index (c : Cursor) : Option (Tree × Cursor) := do
    within true (closed (rules .expression) "]") (← c.punct? "[")
  match c.skip.rest with
  | '?' :: '.' :: ch :: _ =>
    if ch.isDigit then none
    else do
      let d ← c.punct? "?."
      match d.peek? with
      | some '(' => some1 (arguments rules d)
      | some '[' => some1 (index d)
      | some '\x60' => some1 (template rules d)
      | some '<' => do
        let (t, e) ← typeArguments rules d
        let (u, f) ← arguments rules e
        some ([t, u], f)
      | _ => do
        let (_, e) ← memberName rules d
        some ([], e)
  | '.' :: ch :: _ =>
    if ch == '.' then none
    else do
      let d ← c.punct? "."
      let (_, e) ← memberName rules d
      some ([], e)
  | '[' :: _ => some1 (index c)
  | '(' :: _ => some1 (arguments rules c)
  | '\x60' :: _ => some1 (template rules c)
  | '<' :: _ => do
    let (t, d) ← typeArguments rules c
    if endsTypeArguments d then some ([t], d) else none
  | '!' :: rest =>
    if rest.head? == some '=' then none else (c.punct? "!").map fun d => ([], d)
  | '+' :: '+' :: _ => (c.punct? "++").map fun d => ([], d)
  | '-' :: '-' :: _ => (c.punct? "--").map fun d => ([], d)
  | _ => none

/-- As many suffixes as stand behind an operand. -/
def suffixes (rules : Rules) : Nat → Cursor → List Tree × Cursor
  | 0, c => ([], c)
  | fuel + 1, c =>
    match if c.endsValue then none else suffix? rules c with
    | none => ([], c)
    | some (ts, d) =>
      let (us, e) := suffixes rules fuel d
      (ts ++ us, e)

/-- An operand with the calls and members behind it. -/
def chain (rules : Rules) : Nat → Rule
  | 0, _ => none
  | fuel + 1, c => do
    let b := c.skip
    let (t, d) ← primary rules (chain rules fuel) b
    let (ts, e) := suffixes rules d.fuel d
    if e.offset == d.offset then some (t, d)
    else some (b.node e .other (plain (t :: ts)), e)

/-- The words that stand in front of an operand. -/
def prefixWords : List String := ["typeof", "void", "delete", "await", "new"]

/-- The marks that stand in front of an operand. -/
def prefixMarks : List String := ["++", "--", "!", "~", "+", "-"]

/-- What stands in front of an operand: a mark, a word, or a type between angle brackets. -/
def prefix? (rules : Rules) (c : Cursor) : Option (List Tree × Cursor) :=
  match prefixMarks.findSome? fun m => c.punct? m with
  | some d => some ([], d)
  | none =>
    match c.punct? "<" with
    | some d => (closed (within true (rules .type)) ">" d).map fun r => ([r.1], r.2)
    | none => (c.keywords? prefixWords).map fun d => ([], d)

/-- An operand with all that stands in front of it. -/
def operand (rules : Rules) : Nat → Rule
  | 0, _ => none
  | fuel + 1, c =>
    let b := c.skip
    let prefixed := do
      let (ts, d) ← prefix? rules b
      let (t, e) ← operand rules fuel d
      some (b.node e .other (plain (ts ++ [t])), e)
    match prefixed with
    | some r => some r
    | none => chain rules b.fuel b

/-! ## Operators -/

/-- The operators between two operands, longer ones first. An arrow is none of them. -/
def operators : List String :=
  [">>>=", "===", "!==", "**=", "<<=", ">>=", ">>>", "&&=", "||=", "??=", "==", "!=", "<=", ">=",
    "&&", "||", "??", "<<", ">>", "**", "+=", "-=", "*=", "/=", "%=", "&=", "|=", "^=", "+", "-",
    "*", "/", "%", "<", ">", "&", "|", "^", "="]

/-- The cursor past an operator. -/
def operator? (c : Cursor) : Option Cursor :=
  if c.looksAt "=>" then none
  else
    match operators.findSome? fun m => c.punct? m with
    | some d => some d
    | none => c.keywords? ["in", "instanceof"]

/-- What operators join to an operand: other operands and types. -/
def tails (rules : Rules) (returnTypes : Bool) : Nat → Cursor → List Tree × Cursor
  | 0, c => ([], c)
  | fuel + 1, c =>
    if c.endsValue then ([], c) else
    match operator? c with
    | some d =>
      match rules (.assignment returnTypes) d with
      | some (t, e) => ([t], e)
      | none => ([], c)
    | none =>
      match c.keywords? ["as", "satisfies"] with
      | some d =>
        match within true (rules .type) d with
        | some (t, e) =>
          let (ts, f) := suffixes rules e.fuel e
          let (us, g) := tails rules returnTypes fuel f
          (t :: ts ++ us, g)
        | none => ([], c)
      | none =>
        match c.punct? "?" with
        | some d =>
          match choice returnTypes d with
          | some r => r
          | none => ([], c)
        | none => ([], c)
where
  branches (inner : Bool) (d : Cursor) : Option (List Tree × Cursor) := do
    let (t, e) ← within true (closed (rules (.assignment inner)) ":") d
    let (u, f) ← rules (.assignment returnTypes) e
    some ([t, u], f)
  choice (returnTypes : Bool) (d : Cursor) : Option (List Tree × Cursor) :=
    match branches returnTypes d with
    | some r => some r
    | none => branches false d

/-! ## Arrow functions -/

/-- The parameters of an arrow function and the cursor at its arrow. -/
def arrowHead (rules : Rules) (returnTypes : Bool) (c : Cursor) : Option (List Tree × Cursor) :=
  match innerIdentifier? c with
  | some (_, d) => if d.looksAt "=>" then some ([], d) else none
  | none => do
    let (_, d) := optional (typeParameters rules) c
    let e ← enclosed? d '('
    if e.looksAt "=>" || (e.looksAt ":" && returnTypes) then
      (signature rules returnTypes c).filter fun r => r.2.looksAt "=>"
    else none

/-- Whether braces begin like a mapping, with a name and a colon, and can be read as one. -/
def startsLiteral (rules : Rules) (c : Cursor) : Bool :=
  let begins := do
    let d ← c.punct? "\x7b"
    let (_, _, e) ← d.word?
    e.punct? ":"
  begins.isSome && ((rules .object c).any fun r => isSound r.1)

/-- Braces where a block and an expression may stand: a literal if they begin like one, else a
block if they can be read as one. -/
def blockOr (rules : Rules) (expression : Rule) : Rule := fun c =>
  if c.looksAt "\x7b" && !startsLiteral rules c then either (rules .block) expression c
  else expression c

/-- An arrow function. -/
def arrow (rules : Rules) (returnTypes : Bool) : Rule := fun c => do
  let b := c.skip
  let plainHead := arrowHead rules returnTypes b
  let asyncHead := do
    let d ← b.keyword? "async"
    if d.newlineAhead then none else arrowHead rules returnTypes d
  let (ps, d) ← match plainHead with
    | some r => some r
    | none => asyncHead
  let d ← d.punct? "=>"
  let (body, e) ← blockOr rules rules.assignment d
  some (b.node e .function (plain (ps ++ [body])), e)

/-- A result that a generator hands out. -/
def yielded (rules : Rules) : Rule := fun c => do
  let b := c.skip
  let d ← b.keyword? "yield"
  let d := (d.punct? "*").getD d
  if d.looksAt "=>" || endsEntry d || d.newlineAhead then none
  else
    let (t, e) ← rules.assignment d
    some (b.node e .other [(.plain, t)], e)

/-- An assignment to a pattern of braces or brackets. -/
def destructuring (rules : Rules) : Rule := fun c => do
  let b := c.skip
  let (t, d) ← groupPattern rules b
  let e ← d.equals?
  let (v, f) ← rules.assignment e
  some (b.node f .other [(.plain, t), (.plain, v)], f)

/-- Whether a pattern may be what a cursor looks at: brackets with an equals sign behind them. -/
def startsDestructuring (c : Cursor) : Bool :=
  let mate := orElse (enclosed? c '\x7b') (enclosed? c '[')
  (mate.bind Cursor.equals?).isSome

/-- Whether an arrow function may be what a cursor looks at. -/
def startsArrow (c : Cursor) : Bool :=
  match c.peek? with
  | some '(' => true
  | some '<' => true
  | some ch => isNameStart ch || ch == '\\'
  | none => false

/-- An operand and all that operators join to it. -/
def operation (rules : Rules) (returnTypes : Bool) : Rule := fun c => do
  let b := c.skip
  let (t, d) ← operand rules b.fuel b
  let (ts, e) := tails rules returnTypes d.fuel d
  if e.offset == d.offset then some (t, d)
  else some (b.node e .other (plain (t :: ts)), e)

/-- An expression without commas. -/
def assignmentRule (rules : Rules) (returnTypes : Bool) : Rule := fun c =>
  let b := c.skipMarkup.skip
  let first : Option (Tree × Cursor) :=
    if startsArrow b then either (yielded rules) (arrow rules returnTypes) b
    else if startsDestructuring b then destructuring rules b
    else none
  match first with
  | some r => some r
  | none => operation rules returnTypes b

/-- Expressions with commas between them. -/
def expressionRule (rules : Rules) : Rule := fun c => do
  let b := c.skip
  let (t, d) ← rules.assignment b
  match d.punct? "," with
  | none => some (t, d)
  | some e =>
    let (u, f) ← rules .expression e
    some (b.node f .other [(.plain, t), (.plain, u)], f)

/-- A pattern: members or items between brackets, or what can be assigned to. -/
def patternRule (rules : Rules) : Rule := fun c =>
  match groupPattern rules c with
  | some r => some r
  | none => chain rules c.fuel c

/-- Parameters between parentheses. -/
def parametersRule (rules : Rules) : Rule := fun c => do
  let b := c.skip
  let d ← b.punct? "("
  let param : Rule := fun c => do
    let b := c.skip
    let (marks, d) := many (decorator (chain rules b.fuel)) b.fuel b
    let (t, e) ← parameterCore rules 6 d
    some (if marks.isEmpty then t else b.node e .other (plain (marks ++ [t])), e)
  let (ts, e) := commas param d.fuel d
  let f ← e.punct? ")"
  some (b.node f .other (plain ts), f)

end AgentFlow.Script
