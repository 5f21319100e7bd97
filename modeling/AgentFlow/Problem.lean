import AgentFlow.Text.Basic

/-!
# Problems of a document

A problem says where in a document something is not as its schema asks, and what is wrong there.
-/

namespace AgentFlow

/-- A step on the way to a part of a document. -/
inductive Step where
  | name (t : Text)
  | index (n : Int)
  deriving DecidableEq

instance : Coe Text Step := ⟨.name⟩

/-- What is wrong with a part of a document. -/
inductive ProblemKind where
  | missing
  | stringType
  | stringUnicode
  | valueError
  | intType
  | intParsing
  | intParsingSize
  | intFromFloat
  | floatType
  | floatParsing
  | finiteNumber
  | greaterThanEqual
  | literalError
  | modelType
  | modelAttributesType
  | listType
  | invalidKey
  | jsonInvalid
  deriving DecidableEq

/-- A problem at a place of a document. -/
structure Problem where
  path : List Step
  kind : ProblemKind
  deriving DecidableEq

namespace Problem

/-- A problem of a part, as a problem of the whole. -/
def inside (steps : List Step) (p : Problem) : Problem := { p with path := steps ++ p.path }

@[simp] theorem inside_nil (p : Problem) : p.inside [] = p := rfl

theorem inside_append (as bs : List Step) (p : Problem) :
    p.inside (as ++ bs) = (p.inside bs).inside as := by
  simp [inside]

/-- What is said about a graph with some number of problems. -/
def summary (number : Nat) : Text :=
  let noun : Text := if number = 1 then " validation error" else " validation errors"
  Text.ofNat number ++ noun ++ " for GraphDescription"

end Problem

end AgentFlow
