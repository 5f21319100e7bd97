import AgentFlow.Yaml.Document
import AgentFlow.Yaml.Meaning

/-!
# Reading YAML text

`Yaml.read` gives the one document of a text. A text without a document has the value that a missing
node has.
-/

namespace AgentFlow.Yaml

/-- The characters of a text, if a document may hold all of them. -/
def printable? (t : Text) : Option (List Char) :=
  t.chars?.bind fun cs => if cs.all isPrintable then some cs else none

/-- The number of steps that are enough for a text: each of its characters is part of a few tokens
at most. -/
def stepsFor (cs : List Char) : Nat := 10 * (cs.length + 10)

/-- The document of a row of printable characters. -/
def readChars (cs : List Char) : Except Fault Document := do
  let (root, t) ← (Tokens.document (stepsFor cs)).run (Tokens.ofChars cs)
  match root with
  | none => .ok ⟨#[], .whole .null⟩
  | some n => t.nodes.document (t.stream.processingVersion == Version.old) n

/-- The document that a YAML text spells. -/
def read (t : Text) : Except Fault Document :=
  match printable? t with
  | none => .error .unprintable
  | some cs => readChars cs

end AgentFlow.Yaml
