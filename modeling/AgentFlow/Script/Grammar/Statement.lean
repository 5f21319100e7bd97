import AgentFlow.Script.Grammar.Type

/-!
# Statements

Declarations, control flow, and the imports and exports of a module. A word such as `type` or
`namespace` begins a declaration only if the rest of one follows; else it is a name like any other.
-/

namespace AgentFlow.Script

/-- The end of a statement behind a value that a rule reads. -/
def ended (rule : Rule) : Rule := fun c => do
  let (t, d) ← rule c
  let e ← d.semicolon? true
  some (t, e)

/-! ## Declarations -/

/-- The name of a declared variable: one name, which may be any word, or a pattern. -/
def bindingName (rules : Rules) : Rule :=
  either (groupPattern rules) fun c => do
    let (b, _, d) ← c.word?
    some (b.node d .identifier [], d)

/-- The value of a variable. Values that follow each other on a line without an operator between
them are broken, up to the last one. -/
def declaredValue (rules : Rules) : Nat → Cursor → Option (List Tree × Tree × Cursor)
  | 0, _ => none
  | fuel + 1, c => do
    let (v, d) ← rules.assignment c
    if d.endsStatement true then some ([], v, d)
    else
      match d.word?.bind fun _ => declaredValue rules fuel d with
      | some (vs, w, e) =>
        if e.endsStatement true || e.looksAt ";" then some (v :: vs, w, e) else some ([], v, d)
      | none => some ([], v, d)

/-- The declaration of one variable. -/
def declarator (rules : Rules) : Rule := fun c => do
  let b := c.skip
  let (name, d) ← bindingName rules b
  let (ts, d) := ascription rules ((d.punct? "!").getD d)
  match d.equals? with
  | some e =>
    let (vs, v, f) ← declaredValue rules e.fuel e
    some (b.node f .declarator ((.name, name) :: plain (ts ++ vs) ++ [(.value, v)]), f)
  | none => some (b.node d .declarator ((.name, name) :: plain ts), d)

/-- Declarators with commas between them, at least one. -/
def declarators (rules : Rules) : Nat → Cursor → Option (List Tree × Cursor)
  | 0, _ => none
  | fuel + 1, c => do
    let (t, d) ← declarator rules c
    match d.punct? "," with
    | some e =>
      let (ts, f) ← declarators rules fuel e
      some (t :: ts, f)
    | none => some ([t], d)

/-- The words that declare variables. -/
def variableWords : List String := ["var", "let", "const", "using"]

/-- Declarators without their end. -/
def variableList (rules : Rules) : Rule := fun c => do
  let b := c.skip
  let d ← b.keywords? variableWords
  let (ts, e) ← declarators rules d.fuel d
  some (b.node e .other (plain ts), e)

/-- A declaration of variables. The last of them may have a value or not. -/
def variableDeclaration (rules : Rules) : Rule := fun c => do
  let (t, d) ← variableList rules c
  let e ← d.semicolon? (t.children.getLast?.any fun v => (v.child? .value).isSome)
  some (t, e)

/-- A member of an enumeration. -/
def enumMember (rules : Rules) : Rule := fun c => do
  let b := c.skip
  let (name, d) ← memberName rules b
  match d.equals? with
  | some e =>
    let (v, f) ← rules.assignment e
    some (b.node f .other [(.plain, name), (.plain, v)], f)
  | none => some (b.node d .other [(.plain, name)], d)

/-- An enumeration. -/
def enumeration (rules : Rules) : Rule := fun c => do
  let b := c.skip
  let d ← ((b.keyword? "const").getD b).keyword? "enum"
  let (_, _, d) ← d.word?
  let d ← d.punct? "\x7b"
  let (ts, e) := commas (within true (enumMember rules)) d.fuel d
  let f ← e.punct? "\x7d"
  some (b.node f .other (plain ts), f)

/-- An interface. -/
def interface (rules : Rules) : Rule := fun c => do
  let b := c.skip
  let d ← b.keyword? "interface"
  let (_, _, d) ← d.word?
  let (params, d) := optional (typeParameters rules) d
  let (bases, d) := typeList rules "extends" d
  let (body, d) ← objectType rules d
  some (b.node d .other (plain (params ++ bases ++ [body])), d)

/-- The definition of a type under a name. -/
def typeAlias (rules : Rules) : Rule := fun c => do
  let b := c.skip
  let d ← b.keyword? "type"
  let (_, _, d) ← d.word?
  let (params, d) := optional (typeParameters rules) d
  let d ← d.equals?
  let (t, d) ← rules .type d
  let d ← d.semicolon? false
  some (b.node d .other (plain (params ++ [t])), d)

/-- A namespace or module with its body, if it has one. -/
def moduleBlock (rules : Rules) : Rule := fun c => do
  let b := c.skip
  let d ← b.keywords? ["namespace", "module", "global"]
  let named :=
    match string? d with
    | some (_, e) => e
    | none =>
      match d.word? with
      | some (_, _, e) => passDotted e.fuel e
      | none => d
  match rules .block named with
  | some (t, e) => some (b.node e .other [(.plain, t)], e)
  | none =>
    if named.offset == d.offset then none
    else (named.semicolon? false).map fun e => leaf c e

/-- A declaration that begins with a word of its own. -/
def declaration (rules : Rules) : Rule := fun c =>
  let b := c.skip
  let w := b.nextWord
  if w == "const" then either (enumeration rules) (variableDeclaration rules) b
  else if variableWords.contains w then variableDeclaration rules b
  else if w == "function" then functionWith rules .other false b
  else if w == "async" then functionWith rules .other false b
  else if w == "class" then classWith rules (chain rules b.fuel) b
  else if w == "abstract" then classWith rules (chain rules b.fuel) b
  else if w == "enum" then enumeration rules b
  else if w == "interface" then interface rules b
  else if w == "type" then typeAlias rules b
  else if w == "namespace" || w == "module" || w == "global" then moduleBlock rules b
  else if w == "declare" then do
    let d ← b.keyword? "declare"
    if d.newlineAhead then none
    else
      let (t, e) ← either (moduleBlock rules) (rules .statement) d
      some (b.node e .other [(.plain, t)], e)
  else if b.looksAt "@" then classWith rules (chain rules b.fuel) b
  else none

/-! ## Imports and exports -/

/-- The names between the braces of an import or export. -/
def nameList (c : Cursor) : Option Cursor := enclosed? c '\x7b'

/-- The attributes of an import: an object literal behind a word. -/
def importAttributes (rules : Rules) (c : Cursor) : List Tree × Cursor :=
  match c.keywords? ["with", "assert"] with
  | some d => optional (rules .object) d
  | none => ([], c)

/-- Where an import or export comes from. -/
def fromClause (rules : Rules) (c : Cursor) : Option (List Tree × Cursor) := do
  let d ← c.keyword? "from"
  let (t, e) ← string? d
  let (ts, f) := importAttributes rules e
  some (t :: ts, f)

/-- What an import brings in: a default, a namespace, names, or some of them. -/
def passImportClause (c : Cursor) : Cursor :=
  let names (d : Cursor) : Cursor :=
    match nameList d with
    | some e => e
    | none =>
      match (d.punct? "*").bind fun e => (e.keyword? "as").bind fun f => (f.word?).map (·.2.2) with
      | some e => e
      | none => d
  let afterDefault :=
    match c.word? with
    | some (_, _, d) => (d.punct? ",").getD d
    | none => c
  names afterDefault

/-- An import. -/
def importStatement (rules : Rules) : Rule := fun c => do
  let b := c.skip
  let d ← b.keyword? "import"
  let bare := do
    let (t, e) ← string? d
    let (ts, f) := importAttributes rules e
    some (t :: ts, f)
  let clause (d : Cursor) := fromClause rules (passImportClause d)
  let assigned (d : Cursor) := do
    let (_, _, e) ← d.word?
    let e ← e.equals?
    let (t, f) ← rules.assignment e
    some ([t], f)
  let typed := d.keyword? "type"
  let (ts, e) ← [bare, clause d, typed.bind clause, assigned d, typed.bind assigned].findSome? id
  let f ← e.semicolon? false
  some (b.node f .other (plain ts), f)

/-- The end of an export, with the comments in front of a missing semicolon. -/
def exportEnd? (c : Cursor) : Option Cursor :=
  match c.punct? ";" with
  | some d => some d
  | none => if c.endsStatement true then some c.skipLine else none

/-- An export of a value after an equals sign. -/
def exportAssignment (rules : Rules) (b : Cursor) : Rule := fun c => do
  let d ← c.equals?
  let (t, e) ← rules .expression d
  let f ← exportEnd? e
  some (b.node f .exportStatement [(.plain, c.skip.node d .equals []), (.plain, t)], f)

/-- The default export of a declaration or a value. -/
def exportDefault (rules : Rules) (b : Cursor) : Rule := fun c => do
  let d ← c.keyword? "default"
  let declared :=
    if ["function", "class", "abstract", "interface", "async", "enum"].contains d.nextWord then
      declaration rules d
    else none
  match declared with
  | some (t, e) => some (b.node e .exportStatement [(.plain, t)], e)
  | none =>
    let (t, e) ← rules .expression d
    let f ← exportEnd? e
    some (b.node f .exportStatement [(.value, t)], f)

/-- An export of names or of another module. -/
def exportNames (rules : Rules) (b : Cursor) : Rule := fun c => do
  let c := (c.keyword? "type").getD c
  let d ←
    match c.punct? "*" with
    | some d =>
      match d.keyword? "as" with
      | some e => (either string? anyName? e).map (·.2)
      | none => some d
    | none => nameList c
  let (ts, e) := (fromClause rules d).getD ([], d)
  let f ← e.semicolon? false
  some (b.node f .exportStatement (plain ts), f)

/-- An export of a namespace for scripts that are no modules. -/
def exportNamespace (b : Cursor) : Rule := fun c => do
  let d ← c.keyword? "as"
  let d ← d.keyword? "namespace"
  let (_, _, d) ← d.word?
  let d ← d.semicolon? false
  some (b.node d .exportStatement [], d)

/-- An export of a declaration. -/
def exportDeclaration (rules : Rules) (b : Cursor) : Rule := fun c => do
  let (t, d) ← either (declaration rules) (importStatement rules) c
  some (b.node d .exportStatement [(.plain, t)], d)

/-- An export. -/
def exportStatement (rules : Rules) : Rule := fun c => do
  let b := c.skip
  let (marks, d) := many (decorator (chain rules b.fuel)) b.fuel b
  let d ← d.keyword? "export"
  let (t, e) ← either (exportDefault rules b) (either (exportAssignment rules b)
    (either (exportNames rules b) (either (exportNamespace b) (exportDeclaration rules b)))) d
  if marks.isEmpty then some (t, e)
  else some (b.node e .exportStatement (plain marks ++ t.labelled), e)

/-! ## Control flow -/

/-- An expression between parentheses. -/
def condition (rules : Rules) : Rule := parenthesized rules

/-- A conditional statement. -/
def ifStatement (rules : Rules) : Rule := fun c => do
  let b := c.skip
  let d ← b.keyword? "if"
  let (t, d) ← condition rules d
  let (u, d) ← rules .statement d
  match d.keyword? "else" with
  | some e =>
    let (v, f) ← rules .statement e
    some (b.node f .other (plain [t, u, v]), f)
  | none => some (b.node d .other (plain [t, u]), d)

/-- The head of a loop over the items or keys of a value. -/
def forEachHead (rules : Rules) : Rule := fun c => do
  let b := c.skip
  let d := (b.keywords? variableWords).getD b
  let (t, e) ← rules .pattern d
  let e ← e.keywords? ["of", "in"]
  let (u, f) ← closed (rules .expression) ")" e
  some (b.node f .other (plain [t, u]), f)

/-- The head of a loop with a start, a condition and a step. -/
def forHead (rules : Rules) : Rule := fun c => do
  let b := c.skip
  let (start, d) := optional (either (variableList rules) (rules .expression)) b
  let d ← d.punct? ";"
  let (test, d) := optional (rules .expression) d
  let d ← d.punct? ";"
  let (step, d) := optional (rules .expression) d
  let d ← d.punct? ")"
  some (b.node d .other (plain (start ++ test ++ step)), d)

/-- A loop with a head. -/
def forStatement (rules : Rules) : Rule := fun c => do
  let b := c.skip
  let d ← b.keyword? "for"
  let d := (d.keyword? "await").getD d
  let d ← d.punct? "("
  let (t, e) ← within true (either (forEachHead rules) (forHead rules)) d
  let (u, f) ← rules .statement e
  some (b.node f .other (plain [t, u]), f)

/-- A loop with a condition in front. -/
def whileStatement (rules : Rules) : Rule := fun c => do
  let b := c.skip
  let d ← b.keywords? ["while", "with"]
  let (t, e) ← condition rules d
  let (u, f) ← rules .statement e
  some (b.node f .other (plain [t, u]), f)

/-- A loop with a condition behind. -/
def doStatement (rules : Rules) : Rule := fun c => do
  let b := c.skip
  let d ← b.keyword? "do"
  let (t, e) ← rules .statement d
  let e ← e.keyword? "while"
  let (u, f) ← condition rules e
  let g := (f.punct? ";").getD f
  some (b.node g .other (plain [t, u]), g)

/-- A case of a switch. -/
def caseClause (rules : Rules) : Rule := fun c => do
  let b := c.skip
  let (test, d) ←
    match b.keyword? "case" with
    | some d => do
      let (t, e) ← rules .expression d
      some ([t], e)
    | none => do
      let d ← b.keyword? "default"
      some ([], d)
  let d ← d.punct? ":"
  let (ts, e) := many (rules .statement) d.fuel d
  some (b.node e .other (plain (test ++ ts)), e)

/-- A choice between cases. -/
def switchStatement (rules : Rules) : Rule := fun c => do
  let b := c.skip
  let d ← b.keyword? "switch"
  let (t, d) ← condition rules d
  let d ← d.punct? "\x7b"
  let (ts, e) := many (fun c => caseClause rules c.skipMarkup) d.fuel d
  let f ← e.skipMarkup.punct? "\x7d"
  some (b.node f .other (plain (t :: ts)), f)

/-- What a handler binds, between parentheses. -/
def caught (rules : Rules) : Rule := fun c => do
  let b := c.skip
  let d ← b.punct? "("
  let (t, e) ← rules .pattern d
  let (ts, f) := ascription rules e
  let f ← f.punct? ")"
  some (b.node f .other (plain (t :: ts)), f)

/-- A handler with its block. -/
def handler (rules : Rules) : Rule := fun c => do
  let b := c.skip
  let d ← b.keyword? "catch"
  let (ts, d) := optional (caught rules) d
  let (t, e) ← rules .block d
  some (b.node e .other (plain (ts ++ [t])), e)

/-- A block with handlers. -/
def tryStatement (rules : Rules) : Rule := fun c => do
  let b := c.skip
  let d ← b.keyword? "try"
  let (t, d) ← rules .block d
  let final : Rule := fun c => do
    let d ← c.keyword? "finally"
    rules .block d
  let (h, d) := optional (handler rules) d
  let (f, d) := optional final d
  some (b.node d .other (plain (t :: h ++ f)), d)

/-- A statement that hands out a value or leaves. -/
def leaveStatement (rules : Rules) : Rule := fun c => do
  let b := c.skip
  let d ← b.keywords? ["return", "throw", "break", "continue", "debugger"]
  let (ts, e) :=
    if d.looksAt ";" || d.endsStatement false then ([], d) else optional (rules .expression) d
  let f ← e.semicolon? (!ts.isEmpty)
  some (b.node f .other (plain ts), f)

/-- A statement under a label. -/
def labelled (rules : Rules) : Rule := fun c => do
  let b := c.skip
  let (_, d) ← identifier? b
  let d ← d.punct? ":"
  let (t, e) ← rules .statement d
  some (b.node e .other [(.plain, t)], e)

/-- An expression as a statement. -/
def expressionStatement (rules : Rules) : Rule := fun c => do
  let b := c.skip
  let (t, e) ← ended (rules .expression) b
  some (b.node e .other [(.plain, t)], e)

/-- The rules of the statements that begin with a word of their own. -/
def wordStatements : List (String × (Rules → Rule)) :=
  [("if", ifStatement), ("for", forStatement), ("while", whileStatement),
    ("with", whileStatement), ("do", doStatement), ("switch", switchStatement),
    ("try", tryStatement), ("return", leaveStatement), ("throw", leaveStatement),
    ("break", leaveStatement), ("continue", leaveStatement), ("debugger", leaveStatement),
    ("import", importStatement), ("export", exportStatement)]

/-- A statement. -/
def statementRule (rules : Rules) : Rule := fun c =>
  let b := c.skipMarkup.skip
  if b.looksAt ";" then lone ";" b
  else if b.looksAt "\x7b" then
    let (first, second) :=
      if startsLiteral rules b then (expressionStatement rules, rules .block)
      else (rules .block, expressionStatement rules)
    either first second b
  else
    let w := b.nextWord
    let own : Option (Tree × Cursor) :=
      match wordStatements.find? fun s => s.1 == w with
      | some (_, rule) => rule rules b
      | none =>
        if b.looksAt "@" then either (exportStatement rules) (declaration rules) b
        else either (declaration rules) (labelled rules) b
    match own with
    | some r => some r
    | none =>
      if reservedWords.contains w && !operandWords.contains w then none
      else expressionStatement rules b

/-- Statements between braces. -/
def blockRule (rules : Rules) : Rule := fun c => do
  let b := c.skip
  let d ← b.punct? "\x7b"
  let (ts, e) := many (rules .statement) d.fuel d
  let f ← e.skipMarkup.punct? "\x7d"
  some (b.node f .other (plain ts), f)

end AgentFlow.Script
