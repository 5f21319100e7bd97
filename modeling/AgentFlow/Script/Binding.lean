import AgentFlow.Script.Tree

/-!
# Definitions of names

A name is defined by a variable with a value, by a member of an object literal, or by an export of
that very name. Scopes do not count: the first definition in document order is the one.

* `Tree.definition?`: the search, with the nodes that are still to be visited on a stack.
* `Tree.searchFrom_eq`: it finds what the nodes in document order have first.
* `Definitions.resolve`: the search with a memory of its answers.
-/

namespace AgentFlow.Script

/-- A name is the text of an identifier. -/
abbrev Name := List Char

namespace Tree

/-- Whether a node is an identifier with a given text. -/
def isNameOf (name : Name) (t : Tree) : Bool := t.kind == .identifier && t.text == name

/-- The value of the first member of an object literal that has a name. -/
def memberValue? (name : Name) : List Tree → Option Tree
  | [] => none
  | m :: ms =>
    if m.kind = .pair then
      match m.child? .key with
      | some key =>
        if key.kind = .propertyName ∧ key.text = name then m.child? .value
        else memberValue? name ms
      | none => memberValue? name ms
    else memberValue? name ms

/-- What an export statement exports: its value, or what stands last behind an equals sign. -/
def exported? (t : Tree) : Option Tree :=
  match t.child? .value with
  | some v => some v
  | none => if t.children.any (fun c => c.kind == .equals) then t.namedChildren.getLast? else none

/-- The definition of a name in a node itself. -/
def ownDefinition? (name : Name) (t : Tree) : Option Tree :=
  match t.kind with
  | .declarator =>
    match t.child? .value with
    | some v => if (t.child? .name).any (isNameOf name) then some v else none
    | none => none
  | .object => memberValue? name t.namedChildren
  | .exportStatement => t.exported?.filter (isNameOf name)
  | _ => none

/-- The sizes of some trees together. -/
def totalSize : List Tree → Nat
  | [] => 0
  | t :: ts => t.size + totalSize ts

theorem totalSize_append (ts us : List Tree) :
    totalSize (ts ++ us) = totalSize ts + totalSize us := by
  induction ts with
  | nil => simp [totalSize]
  | cons t ts ih => simp [totalSize, ih, Nat.add_assoc]

theorem totalSize_children (t : Tree) : totalSize t.children + 1 = t.size := by
  obtain ⟨k, a, b, s, cs⟩ := t
  have h : ∀ ds : List (Label × Tree), totalSize (ds.map (·.2)) = sizeList ds := by
    intro ds
    induction ds with
    | nil => rfl
    | cons d ds ih =>
      obtain ⟨l, u⟩ := d
      simp only [totalSize, List.map_cons, sizeList] at ih ⊢
      rw [ih]
  simp [children, labelled, h, size]

/-- The first definition of a name among the nodes on a stack and below them. A node is looked at
before its children, and these before the rest of the stack. -/
def searchFrom (name : Name) : List Tree → Option Tree
  | [] => none
  | t :: stack =>
    match ownDefinition? name t with
    | some d => some d
    | none => searchFrom name (t.children ++ stack)
termination_by stack => totalSize stack
decreasing_by
  have := totalSize_children t
  simp only [totalSize, totalSize_append]
  omega

/-- The first definition of a name in document order. -/
def definition? (root : Tree) (name : Name) : Option Tree := searchFrom name [root]

theorem preorder_eq (t : Tree) : t.preorder = t :: t.children.flatMap preorder := by
  obtain ⟨k, a, b, s, cs⟩ := t
  have h : ∀ ds : List (Label × Tree), preorderList ds = (ds.map (·.2)).flatMap preorder := by
    intro ds
    induction ds with
    | nil => rfl
    | cons d ds ih => obtain ⟨l, u⟩ := d; simp [preorderList, ih]
  simp [preorder, children, labelled, h]

/-- The stack finds what the nodes in document order have first. -/
theorem searchFrom_eq (name : Name) (stack : List Tree) :
    searchFrom name stack = (stack.flatMap preorder).findSome? (ownDefinition? name) := by
  fun_induction searchFrom name stack with
  | case1 => rfl
  | case2 t stack d h => simp [preorder_eq t, h]
  | case3 t stack h ih =>
    rw [ih, List.flatMap_append, List.flatMap_cons, preorder_eq t]
    simp [h]

theorem definition?_eq (root : Tree) (name : Name) :
    root.definition? name = root.preorder.findSome? (ownDefinition? name) := by
  simp [definition?, searchFrom_eq]

/-! ## Names with a definition -/

/-- The names that a node itself may define. -/
def ownNames (t : Tree) : List Name :=
  match t.kind with
  | .declarator => (t.child? .name).toList.map text
  | .object => t.namedChildren.filterMap fun m => (m.child? .key).map text
  | .exportStatement => t.exported?.toList.map text
  | _ => []

/-- The names that a tree may define. -/
def definedNames (root : Tree) : List Name := root.preorder.flatMap ownNames

private theorem mem_keys_of_memberValue? {name : Name} {d : Tree} {ms : List Tree}
    (h : memberValue? name ms = some d) :
    name ∈ ms.filterMap fun m => (m.child? .key).map text := by
  induction ms with
  | nil => simp [memberValue?] at h
  | cons m ms ih =>
    rw [memberValue?] at h
    split at h
    case isTrue hk =>
      split at h
      case h_1 key hkey =>
        split at h
        case isTrue hname => simp [hkey, hname.2]
        case isFalse => simp [hkey, ih h]
      case h_2 hkey => simpa [List.filterMap_cons, hkey] using ih h
    case isFalse =>
      have := ih h
      cases hkey : m.child? .key <;> simp_all

private theorem text_of_isNameOf {name : Name} {t : Tree} (h : isNameOf name t = true) :
    t.text = name := by
  have : t.kind = .identifier ∧ t.text = name := by simpa [isNameOf] using h
  exact this.2

theorem mem_ownNames {name : Name} {t d : Tree} (h : ownDefinition? name t = some d) :
    name ∈ ownNames t := by
  simp only [ownDefinition?] at h
  simp only [ownNames]
  generalize t.kind = k at h ⊢
  cases k
  case declarator =>
    simp only at h ⊢
    cases hv : t.child? .value with
    | none => simp [hv] at h
    | some v =>
      cases hn : t.child? .name with
      | none => simp [hv, hn] at h
      | some n =>
        simp only [hv, hn, Option.any_some] at h
        split at h
        case isTrue hin => simp [text_of_isNameOf hin]
        case isFalse => simp at h
  case object => exact mem_keys_of_memberValue? h
  case exportStatement =>
    rw [Option.filter_eq_some_iff] at h
    simp [h.1, text_of_isNameOf h.2]
  all_goals simp at h

/-- A name that has a definition is one of the names that the tree may define. -/
theorem mem_definedNames {root d : Tree} {name : Name} (h : root.definition? name = some d) :
    name ∈ root.definedNames := by
  rw [definition?_eq] at h
  obtain ⟨t, ht, hd⟩ := List.exists_of_findSome?_eq_some h
  exact List.mem_flatMap.2 ⟨t, ht, mem_ownNames hd⟩

end Tree

/-! ## A memory for answers -/

/-- A tree with the answers that were found so far. -/
structure Definitions where
  root : Tree
  known : List (Name × Option Tree) := []

namespace Definitions

/-- The definition of a name, from the memory if it is there, and the memory with it. -/
def resolve (ds : Definitions) (name : Name) : Option Tree × Definitions :=
  match ds.known.find? fun k => k.1 == name with
  | some k => (k.2, ds)
  | none =>
    let found := ds.root.definition? name
    (found, { ds with known := (name, found) :: ds.known })

/-- The definitions of names one after the other. -/
def resolveAll (ds : Definitions) : List Name → List (Option Tree)
  | [] => []
  | name :: names =>
    let r := ds.resolve name
    r.1 :: resolveAll r.2 names

end Definitions

end AgentFlow.Script
