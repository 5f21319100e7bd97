import AgentFlow.Script.Cursor
import AgentFlow.Text.Digit

/-!
# Literals and brackets

The tokens that have a shape of their own: strings with their fragments and escape sequences,
numbers, regular expressions, and the text between brackets that is passed as a whole.
-/

namespace AgentFlow.Script

/-! ## Strings -/

/-- The number of octal digits, at most three, at the start of a row of characters. -/
def octalLength (cs : List Char) : Nat :=
  ((cs.take 3).takeWhile (isDigitOf 8)).length

/-- The number of characters of an escape sequence after its backslash. -/
def escapeLength : List Char → Nat
  | [] => 0
  | 'x' :: rest => if (rest.take 2).all (isDigitOf 16) && 2 ≤ rest.length then 3 else 1
  | 'u' :: '\x7b' :: rest =>
    let ds := rest.takeWhile (isDigitOf 16)
    if !ds.isEmpty && rest[ds.length]? == some '\x7d' then ds.length + 3 else 1
  | 'u' :: rest => if (rest.take 4).all (isDigitOf 16) && 4 ≤ rest.length then 5 else 1
  | c :: rest =>
    if isDigitOf 8 c then octalLength (c :: rest)
    else if (c == '\r' || c == '?') && rest.head?.any (fun d => isLineEnd d && d != '\r') then 2
    else 1

/-- The fragments and escape sequences of a string up to its closing quote, and the cursor past
that quote. `fragment` is where the fragment that is being read began, if one is. -/
def stringParts (quote : Char) : Nat → Option Cursor → Cursor → Option (List Tree × Cursor)
  | 0, _, _ => none
  | fuel + 1, fragment, c =>
    let flush (ts : List Tree) : List Tree :=
      match fragment with
      | none => ts
      | some b => b.node c .fragment [] :: ts
    match c.rest with
    | [] => none
    | ch :: rest =>
      if ch == quote then some (flush [], c.drop 1)
      else if ch == '\\' then do
        let d := c.drop (escapeLength rest + 1)
        let (ts, e) ← stringParts quote fuel none d
        some (flush (c.node d .escape [] :: ts), e)
      else if ch == '\n' || ch == '\r' then none
      else stringParts quote fuel (some (fragment.getD c)) (c.drop 1)

/-- A string literal. -/
def string? (c : Cursor) : Option (Tree × Cursor) :=
  let c := c.skip
  match c.rest with
  | quote :: rest =>
    if quote == '"' || quote == '\'' then do
      let (ts, d) ← stringParts quote (rest.length + 1) none (c.drop 1)
      some (c.node d .string (ts.map fun t => (.plain, t)), d)
    else none
  | [] => none

/-! ## Numbers -/

/-- The number of characters of digits with single low lines between them. -/
def groupedLength (p : Char → Bool) : List Char → Nat
  | [] => 0
  | [c] => if p c then 1 else 0
  | c :: '_' :: d :: rest =>
    if p c then (if p d then groupedLength p (d :: rest) + 2 else 1) else 0
  | c :: rest => if p c then groupedLength p rest + 1 else 0

/-- The number of characters of an exponent with its mark. -/
def exponentLength : List Char → Nat
  | e :: rest =>
    if e == 'e' || e == 'E' then
      let sign := if rest.head? == some '+' || rest.head? == some '-' then 1 else 0
      let n := groupedLength Char.isDigit (rest.drop sign)
      if n = 0 then 0 else n + sign + 1
    else 0
  | [] => 0

/-- The number of characters of a decimal numeral. -/
def decimalLength (cs : List Char) : Nat :=
  let whole := groupedLength Char.isDigit cs
  let rest := cs.drop whole
  if whole ≠ 0 && rest.head? == some 'n' then whole + 1
  else
    let part :=
      match rest with
      | '.' :: more =>
        let n := groupedLength Char.isDigit more
        if whole = 0 && n = 0 then 0 else n + 1
      | _ => 0
    if whole = 0 && part = 0 then 0
    else whole + part + exponentLength (rest.drop part)

/-- The number of characters of a numeral whose base is marked. -/
def markedLength (base : Nat) (cs : List Char) : Nat :=
  let n := groupedLength (isDigitOf base) (cs.drop 2)
  if n = 0 then 0
  else n + 2 + (if (cs.drop (n + 2)).head? == some 'n' then 1 else 0)

/-- The number of characters of the numeral at the start of a row of characters. -/
def numeralLength (cs : List Char) : Nat :=
  match cs with
  | '0' :: m :: _ =>
    if m == 'x' || m == 'X' then markedLength 16 cs
    else if m == 'o' || m == 'O' then markedLength 8 cs
    else if m == 'b' || m == 'B' then markedLength 2 cs
    else decimalLength cs
  | _ => decimalLength cs

/-- A number literal. -/
def number? (c : Cursor) : Option (Tree × Cursor) :=
  let c := c.skip
  match numeralLength c.rest with
  | 0 => none
  | n => some (c.node (c.drop n) .number [], c.drop n)

/-! ## Regular expressions -/

/-- The number of characters of a regular expression up to its closing slash. -/
def patternLength (inClass escaped : Bool) : List Char → Option Nat
  | [] => none
  | c :: rest =>
    if isLineEnd c then none
    else if escaped then (patternLength inClass false rest).map (· + 1)
    else if c == '\\' then (patternLength inClass true rest).map (· + 1)
    else if c == '[' then (patternLength true false rest).map (· + 1)
    else if c == ']' then (patternLength false false rest).map (· + 1)
    else if c == '/' && !inClass then some 1
    else (patternLength inClass false rest).map (· + 1)

/-- A regular expression with its flags. -/
def regex? (c : Cursor) : Option (Tree × Cursor) :=
  let c := c.skip
  match c.rest with
  | '/' :: rest => do
    let n ← patternLength false false rest
    let d := c.drop (n + 1)
    let e := d.drop (d.rest.takeWhile Char.isLower).length
    some (c.node e .other [], e)
  | _ => none

/-! ## Brackets -/

/-- What the text being passed stands in. -/
inductive Enclosure where
  | bracket (closing : Char)
  | quote (mark : Char)
  | template
  | line
  | block
  deriving DecidableEq

/-- The closing mate of an opening bracket. -/
def closing? : Char → Option Char
  | '(' => some ')'
  | '[' => some ']'
  | '\x7b' => some '\x7d'
  | _ => none

/-- Passes text up to the bracket that closes the outermost enclosure. `before` is the character
in front, a blank if it was escaped. -/
def passEnclosed (before : Char) (offset : Nat) :
    List Enclosure → List Char → Option (List Char × Nat)
  | [], cs => some (cs, offset)
  | _, [] => none
  | e :: outer, c :: cs =>
    let next := offset + c.utf8Size
    match e with
    | .quote mark =>
      if before == '\\' then passEnclosed ' ' next (e :: outer) cs
      else if c == mark then passEnclosed c next outer cs
      else if isLineEnd c then none
      else passEnclosed c next (e :: outer) cs
    | .template =>
      if before == '\\' then passEnclosed ' ' next (e :: outer) cs
      else if c == '\x60' then passEnclosed c next outer cs
      else if c == '\x7b' && before == '$' then
        passEnclosed ' ' next (.bracket '\x7d' :: e :: outer) cs
      else passEnclosed c next (e :: outer) cs
    | .line =>
      if isLineEnd c then passEnclosed ' ' next outer cs
      else passEnclosed c next (e :: outer) cs
    | .block =>
      if c == '/' && before == '*' then passEnclosed ' ' next outer cs
      else passEnclosed c next (e :: outer) cs
    | .bracket closing =>
      if c == closing then passEnclosed c next outer cs
      else if c == '"' || c == '\'' then passEnclosed ' ' next (.quote c :: e :: outer) cs
      else if c == '\x60' then passEnclosed ' ' next (.template :: e :: outer) cs
      else if c == '/' && cs.head? == some '/' then passEnclosed ' ' next (.line :: e :: outer) cs
      else if c == '/' && cs.head? == some '*' then passEnclosed ' ' next (.block :: e :: outer) cs
      else
        match closing? c with
        | some close => passEnclosed c next (.bracket close :: e :: outer) cs
        | none =>
          if c == ')' || c == ']' || c == '\x7d' then none
          else passEnclosed c next (e :: outer) cs

/-- The cursor past a bracket at the cursor and everything up to its mate. -/
def enclosed? (c : Cursor) (opening : Char) : Option Cursor :=
  let c := c.skip
  match c.rest, closing? opening with
  | ch :: rest, some close =>
    if ch == opening then do
      let (rest, offset) ← passEnclosed ' ' (c.offset + 1) [.bracket close] rest
      some { c with rest := rest, offset := offset }
    else none
  | _, _ => none

/-- The cursor past a template at the cursor, whatever it holds. -/
def templateText? (c : Cursor) : Option Cursor :=
  let c := c.skip
  match c.rest with
  | '\x60' :: rest => do
    let (rest, offset) ← passEnclosed ' ' (c.offset + 1) [.template] rest
    some { c with rest := rest, offset := offset }
  | _ => none

end AgentFlow.Script
