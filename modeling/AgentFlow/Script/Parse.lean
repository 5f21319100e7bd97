import AgentFlow.Script.Grammar.Statement

/-!
# The tree of a script

`parse` ties the rules of the grammar together, and `treeOf` reads a whole script. What fits no rule
is kept as broken and reading goes on behind it, so every text has a tree. Comments belong to the
smallest node that holds them.

The trees of scripts may come from another parser as well (`Script.Parser`).
-/

namespace AgentFlow.Script

/-- The reader of a goal. The fuel bounds how deep rules call each other. -/
def parse : Nat → Rules
  | 0, _, _ => none
  | fuel + 1, goal, c =>
    let rules := parse fuel
    match goal with
    | .assignment returnTypes => assignmentRule rules returnTypes c
    | .expression => expressionRule rules c
    | .object => object rules c
    | .type => typeRule rules c
    | .pattern => within true (patternRule rules) c
    | .parameters => within true (parametersRule rules) c
    | .statement => statementRule rules c
    | .block => within false (blockRule rules) c
    | .classBody => within false (classBody rules (chain rules c.fuel)) c

/-- The next token as a broken node. -/
def brokenToken (c : Cursor) : Tree × Cursor :=
  let b := c.skip
  let d :=
    match b.word? with
    | some (_, _, d) => d
    | none =>
      match either string? number? b with
      | some (_, d) => d
      | none => b.drop 1
  (b.node d .broken [], d)

/-- The statements of a script up to its end. -/
def statements (rules : Rules) : Nat → Cursor → List Tree × Cursor
  | 0, c => ([], c)
  | fuel + 1, c =>
    let c := c.skipMarkup
    if c.atEnd then ([], c.skip)
    else
      let (t, d) := (rules .statement c).getD (brokenToken c)
      let (ts, e) := statements rules fuel d
      (t :: ts, e)

mutual

/-- A tree with a comment put into the smallest node that holds it. -/
def placeComment (comment : Tree) : Tree → Tree
  | .node k a b t cs => .node k a b t (placeAmong comment cs)

/-- Children with a comment put into the one that holds it, or else between them. -/
def placeAmong (comment : Tree) : List (Label × Tree) → List (Label × Tree)
  | [] => [(.plain, comment)]
  | (l, t) :: cs =>
    if t.start ≤ comment.start && comment.stop ≤ t.stop then
      (l, placeComment comment t) :: cs
    else if comment.stop ≤ t.start then (.plain, comment) :: (l, t) :: cs
    else (l, t) :: placeAmong comment cs

end

/-- The cursor past the line that names the program to run a script with, if it has one. Blanks and
comments may stand in front of it. -/
def skipHashbang (c : Cursor) : Cursor :=
  let b := c.skip
  match b.rest with
  | '#' :: '!' :: rest => b.drop ((rest.takeWhile (· != '\n')).length + 2)
  | _ => c

/-- The tree of a script. -/
def treeOf (cs : List Char) : Tree :=
  let c := Cursor.ofChars cs
  let b := (skipHashbang c).skip
  let fuel := 16 * (cs.length + 2)
  let (ts, d) := statements (parse fuel) fuel { b with comments := [] }
  let comments := (b.comments.reverse ++ d.comments.reverse)
  comments.foldl (fun t comment => placeComment comment t) (c.node d .other (plain ts))

/-- What gives the trees of texts. -/
abbrev Parser := List Char → Tree

end AgentFlow.Script

namespace AgentFlow

/-- A script: its text and its tree. -/
structure Script where
  chars : List Char
  root : Script.Tree
  deriving Inhabited

/-- The script of a text, with the tree that a parser gives of it. -/
def Script.ofChars (cs : List Char) (parser : Script.Parser := Script.treeOf) : Script :=
  ⟨cs, parser cs⟩

end AgentFlow
