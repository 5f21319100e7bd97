/-!
# Syntax trees

The tree of a TypeScript document, as far as object literals, names and their definitions need
it. Every node has the bytes it spans, the text of that span and its children in document order;
some children are labelled with their part in the node. Kinds that nothing asks for are all
`other`, and of the tokens without a name of their own only the equals sign of an export is kept.

* `Tree.preorder`: the nodes of a tree, each before its children.
-/

namespace AgentFlow.Script

/-- What a node of a syntax tree is. -/
inductive Kind where
  | object
  | array
  | identifier
  | undefinedWord
  | string
  | number
  | trueWord
  | falseWord
  | nullWord
  | template
  /-- A function expression, arrow function or generator function. -/
  | function
  | pair
  /-- A name that stands for a member and its value. -/
  | shorthand
  | spread
  | method
  /-- Characters of a string that stand for themselves. -/
  | fragment
  /-- An escape sequence of a string. -/
  | escape
  /-- The declaration of one variable. -/
  | declarator
  | exportStatement
  /-- The equals sign of an export. -/
  | equals
  /-- The name of a member. -/
  | propertyName
  | comment
  /-- Tokens that fit no rule. -/
  | broken
  | other
  deriving DecidableEq, Inhabited

/-- The part that a child plays in its node. -/
inductive Label where
  | plain
  | key
  | value
  | name
  deriving DecidableEq, Inhabited

/-- A syntax tree: a kind, the first byte and the byte after the last, the text between them, and
the labelled children. -/
inductive Tree where
  | node (kind : Kind) (start stop : Nat) (text : List Char) (children : List (Label × Tree))
  deriving Inhabited

namespace Tree

def kind : Tree → Kind
  | .node k _ _ _ _ => k

/-- The first byte of a node. -/
def start : Tree → Nat
  | .node _ s _ _ _ => s

/-- The byte after the last one of a node. -/
def stop : Tree → Nat
  | .node _ _ s _ _ => s

def text : Tree → List Char
  | .node _ _ _ t _ => t

def labelled : Tree → List (Label × Tree)
  | .node _ _ _ _ cs => cs

/-- The children of a node in document order. -/
def children (t : Tree) : List Tree := t.labelled.map (·.2)

/-- Whether a node has a name of its own in the grammar. -/
def isNamed (t : Tree) : Bool := t.kind != .equals

/-- The named children of a node. -/
def namedChildren (t : Tree) : List Tree := t.children.filter isNamed

/-- The first child with a label. -/
def child? (t : Tree) (label : Label) : Option Tree :=
  (t.labelled.find? fun c => c.1 == label).map (·.2)

/-- Whether the span of a node reaches from, or up to, or over a byte offset. -/
def contains (t : Tree) (offset : Nat) : Bool := t.start ≤ offset && offset ≤ t.stop

mutual

/-- The number of nodes of a tree. -/
def size : Tree → Nat
  | .node _ _ _ _ cs => sizeList cs + 1

/-- The number of nodes of the trees in a row of children. -/
def sizeList : List (Label × Tree) → Nat
  | [] => 0
  | (_, t) :: cs => size t + sizeList cs

end

mutual

/-- The nodes of a tree in document order, each before its children. -/
def preorder : Tree → List Tree
  | .node k a b t cs => .node k a b t cs :: preorderList cs

/-- The nodes of the trees in a row of children. -/
def preorderList : List (Label × Tree) → List Tree
  | [] => []
  | (_, t) :: cs => preorder t ++ preorderList cs

end

theorem size_pos (t : Tree) : 0 < t.size := by
  cases t; simp [size]

theorem mem_preorder_self (t : Tree) : t ∈ t.preorder := by
  cases t; simp [preorder]

theorem size_le_sizeList {c : Label × Tree} {cs : List (Label × Tree)} (h : c ∈ cs) :
    c.2.size ≤ sizeList cs := by
  induction cs with
  | nil => simp at h
  | cons d ds ih =>
    obtain ⟨l, t⟩ := d
    rcases List.mem_cons.1 h with rfl | h
    · simp [sizeList]
    · have := ih h
      simp only [sizeList]
      omega

theorem size_child_lt {t c : Tree} (h : c ∈ t.children) : c.size < t.size := by
  obtain ⟨k, a, b, s, cs⟩ := t
  simp only [children, labelled, List.mem_map] at h
  obtain ⟨d, hd, rfl⟩ := h
  have := size_le_sizeList hd
  simp only [size]
  omega

end Tree

end AgentFlow.Script
