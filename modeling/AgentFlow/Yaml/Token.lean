import AgentFlow.Text.Basic

/-!
# YAML tokens

The tokens that a YAML text is made of, each with the line it starts on. Some have no characters of
their own: the start and end of a block, and the mark of a key whose colon comes later.
-/

namespace AgentFlow.Yaml

/-- A version of the language. -/
structure Version where
  major : Nat
  minor : Nat
  deriving DecidableEq, Inhabited

namespace Version

/-- The version of a document that names none. -/
def default : Version := ⟨1, 2⟩

/-- The older version, with more spellings of truth values and numbers. -/
def old : Version := ⟨1, 1⟩

/-- Whether a version is later than the older one. -/
def isNew (v : Version) : Bool := 1 < v.major || (v.major == 1 && 1 < v.minor)

end Version

/-- What stands in front of a document. -/
inductive Directive where
  | version (v : Version)
  | tag (handle expansion : List Char)
  | other
  deriving DecidableEq

/-- A tag as it is written: a suffix that a handle stands before, or a whole name. -/
structure TagName where
  handle : Option (List Char)
  suffix : List Char
  deriving DecidableEq, Inhabited

/-- A token. -/
inductive Token where
  | directive (d : Directive)
  | documentStart
  | documentEnd
  | streamEnd
  | blockSequenceStart
  | blockMappingStart
  | blockEnd
  | sequenceStart
  | sequenceEnd
  | mappingStart
  | mappingEnd
  | blockEntry
  | flowEntry
  | key
  | value
  | alias (name : List Char)
  | anchor (name : List Char)
  | tag (name : TagName)
  | scalar (text : Text) (plain : Bool)
  deriving DecidableEq, Inhabited

end AgentFlow.Yaml
