import AgentFlow.Text.Blank

/-!
# Mentions of agents

A mention is a place of a text where a node names its agent: a key, white space, and one of the
known names, between quotes or, in YAML, also bare. Where several names fit, the first of the list
is taken that the rest of the mention fits.

* `MentionStyle.mentionAt?`: the mention at the start of a text.
* `MentionStyle.mentions`: all mentions of a text, from left to right and none inside another.
-/

namespace AgentFlow

/-- How a language writes the agent of a node. -/
inductive MentionStyle where
  /-- A quoted key and a name between double quotes. -/
  | json
  /-- A bare key and a name that is quoted or bare; something has to end the name. -/
  | yaml
  /-- A bare key and a quoted name. -/
  | script
  deriving DecidableEq

/-- A place where an agent is named: the code points from `start` to `stop`. -/
structure Mention where
  start : Nat
  stop : Nat
  name : Text
  /-- Whether the name has no quotes. -/
  bare : Bool
  deriving DecidableEq

/-- A mention at the start of a text: its length, the name and whether that is bare. -/
structure MentionHead where
  length : Nat
  name : Text
  bare : Bool
  deriving DecidableEq

/-- What follows a part that a text starts with. -/
def dropPart? (part t : Text) : Option Text :=
  if part.isPrefixOf t then some (t.drop part.length) else none

theorem dropPart?_eq_some {part t rest : Text} (h : dropPart? part t = some rest) :
    t = part ++ rest := by
  unfold dropPart? at h
  split at h
  case isTrue hp =>
    obtain ⟨u, rfl⟩ := List.isPrefixOf_iff_prefix.1 hp
    simpa using h
  case isFalse => simp at h

/-- A text without the blanks at its start. -/
def dropBlanks (t : Text) : Text := t.dropWhile CodePoint.isBlank

/-- What follows a quote of either kind. -/
def dropQuote? : Text → Option Text
  | .char '"' :: rest => some rest
  | .char '\'' :: rest => some rest
  | _ => none

/-- What follows the end of a name in YAML: white space, a comma, a closing bracket, or the end of
the text. -/
def dropNameEnd? : Text → Option Text
  | [] => some []
  | p :: rest =>
    if p.isBlank || p == .char ',' || p == .char ']' || p == .char '\x7d' then some rest else none

/-- The first of some names that a text starts with and that `ending` fits, with what follows. -/
def firstName? (ending : Text → Option Text) (names : List Text) (t : Text) :
    Option (Text × Text) :=
  names.findSome? fun name => do
    let rest ← dropPart? name t
    let rest ← ending rest
    some (name, rest)

namespace MentionStyle

/-- The style of a language; languages that are not known write agents as scripts do. -/
def ofLanguage (language : Text) : MentionStyle :=
  if language = "json" then .json
  else if language = "yaml" then .yaml
  else .script

/-- The names that are looked for: without any, the empty one. -/
def alternatives (names : List Text) : List Text := if names.isEmpty then [[]] else names

/-- A name in YAML: between quotes if that fits, else bare. -/
def yamlName? (names : List Text) (t : Text) : Option (Text × Bool × Text) :=
  let quoted := do
    let rest ← dropQuote? t
    firstName? (fun r => (dropQuote? r).bind dropNameEnd?) names rest
  match quoted with
  | some (name, rest) => some (name, false, rest)
  | none => (firstName? dropNameEnd? names t).map fun r => (r.1, true, r.2)

/-- The name, whether it is bare, and what follows a mention at the start of a text. White space in
front of a name in YAML may be part of the name; as much as possible is not. -/
def parts? (style : MentionStyle) (names : List Text) (t : Text) : Option (Text × Bool × Text) :=
  match style with
  | .json => do
    let rest ← dropPart? "\"agent\"" t
    let rest ← dropPart? ":" (dropBlanks rest)
    let rest ← dropPart? "\"" (dropBlanks rest)
    let (name, rest) ← firstName? (dropPart? "\"") names rest
    some (name, false, rest)
  | .script => do
    let rest ← dropPart? "agent:" t
    let rest ← dropQuote? (dropBlanks rest)
    let (name, rest) ← firstName? dropQuote? names rest
    some (name, false, rest)
  | .yaml => do
    let rest ← dropPart? "agent:" t
    let blanks := (rest.takeWhile CodePoint.isBlank).length
    (List.range (blanks + 1)).reverse.findSome? fun n => yamlName? names (rest.drop n)

/-- The mention at the start of a text. -/
def mentionAt? (style : MentionStyle) (names : List Text) (t : Text) : Option MentionHead :=
  (style.parts? (alternatives names) t).map fun r => ⟨t.length - r.2.2.length, r.1, r.2.1⟩

/-- The mentions of a text whose first code point has a number. The first `covered` code points
belong to a mention before it. -/
def mentionsFrom (style : MentionStyle) (names : List Text) (index covered : Nat) :
    Text → List Mention
  | [] => []
  | p :: rest =>
    match covered with
    | n + 1 => mentionsFrom style names (index + 1) n rest
    | 0 =>
      match style.mentionAt? names (p :: rest) with
      | none => mentionsFrom style names (index + 1) 0 rest
      | some m =>
        ⟨index, index + m.length, m.name, m.bare⟩
          :: mentionsFrom style names (index + 1) (m.length - 1) rest

/-- The mentions of a text. -/
def mentions (style : MentionStyle) (names : List Text) (t : Text) : List Mention :=
  mentionsFrom style names 0 0 t

end MentionStyle

end AgentFlow
