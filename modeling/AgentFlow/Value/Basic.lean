import AgentFlow.Calendar
import AgentFlow.Decimal.Double

/-!
# Values

A value is what a document of a data format holds: JSON needs the first seven kinds, YAML all of
them. Mappings keep the order of their entries, and their keys are values themselves.

* `Value.sameKey`: when two keys are one key. Numbers are compared by what they count, truth
  values counting as one and zero.
* `Entries.put`: a later value for a key takes the place of the earlier one.
-/

namespace AgentFlow

/-- A value of a data format. -/
inductive Value where
  | null
  | bool (b : Bool)
  | int (n : Int)
  | float (x : Double)
  | str (t : Text)
  | list (items : List Value)
  | map (entries : List (Value × Value))
  /-- A mapping that was declared to be ordered. -/
  | orderedMap (entries : List (Value × Value))
  | tuple (items : List Value)
  | bytes (bs : List UInt8)
  | set (items : List Value)
  | date (d : Date)
  | dateTime (t : DateTime)
  deriving Inhabited

/-- The entries of a mapping, in order. -/
abbrev Entries := List (Value × Value)

namespace Value

instance : Coe Text Value := ⟨.str⟩

/-- The entries of a value that is a mapping. -/
def entries? : Value → Option Entries
  | .map es => some es
  | .orderedMap es => some es
  | _ => none

/-- The text of a value that is a text. -/
def text? : Value → Option Text
  | .str t => some t
  | _ => none

/-- The number that a key counts as. -/
inductive KeyNumber where
  | whole (n : Int)
  | other (x : Double)
  deriving DecidableEq

/-- The number that a value counts as when it is a key. -/
def keyNumber? : Value → Option KeyNumber
  | .bool b => some (.whole (if b then 1 else 0))
  | .int n => some (.whole n)
  | .float x =>
    match x.toInt? with
    | some n => some (.whole n)
    | none => some (.other x)
  | _ => none

mutual

/-- Whether two values are the same key of a mapping. -/
def sameKey : Value → Value → Bool
  | .null, .null => true
  | .str s, .str t => s == t
  | .tuple xs, .tuple ys => sameKeys xs ys
  | .bytes bs, .bytes cs => bs == cs
  | .date d, .date e => d == e
  | .dateTime t, .dateTime u => t.sameMoment u
  | a, b =>
    match keyNumber? a, keyNumber? b with
    | some m, some n => m == n
    | _, _ => false

/-- Whether two rows of values are the same keys one by one. -/
def sameKeys : List Value → List Value → Bool
  | [], [] => true
  | a :: as, b :: bs => sameKey a b && sameKeys as bs
  | _, _ => false

end

@[simp] theorem sameKey_str (s t : Text) : sameKey (.str s) (.str t) = (s == t) := by
  simp [sameKey]

end Value

namespace Entries

/-- Whether a mapping has a key. -/
def hasKey (es : Entries) (k : Value) : Bool := es.any fun e => e.1.sameKey k

/-- The value at a key. -/
def get? (es : Entries) (k : Value) : Option Value :=
  (es.find? fun e => e.1.sameKey k).map (·.2)

/-- A mapping with a value put at a key: in place of the value there, or else at the end. -/
def put : Entries → Value → Value → Entries
  | [], k, v => [(k, v)]
  | e :: es, k, v => if e.1.sameKey k then (e.1, v) :: es else e :: put es k v

/-- A mapping with all entries of another put into it in order. -/
def putAll (es more : Entries) : Entries := more.foldl (fun acc e => put acc e.1 e.2) es

/-- Whether a mapping has a text as a key. -/
def hasName (es : Entries) (name : Text) : Bool := hasKey es (.str name)

/-- The value at a key that is a text. -/
def field? (es : Entries) (name : Text) : Option Value := get? es (.str name)

theorem putAll_nil (es : Entries) : putAll es [] = es := rfl

theorem putAll_cons (es : Entries) (e : Value × Value) (more : Entries) :
    putAll es (e :: more) = putAll (put es e.1 e.2) more := rfl

theorem putAll_append (es as bs : Entries) :
    putAll es (as ++ bs) = putAll (putAll es as) bs := by
  simp [putAll, List.foldl_append]

end Entries

end AgentFlow
