import AgentFlow.Script.Binding

/-!
# The search for a definition

The search keeps the nodes that are still to be visited on a stack, the next one on top. It visits
a node in each round: where the node defines the name the search is over, and otherwise the
children of the node take its place, the last one pushed first. What waits on the stack and below
it is then one node less, and it is the rest of the tree in document order all the time.

* `Tree.visit`, `Tree.outcome?`: a round of the search, and what some rounds come to.
* `Tree.visit_cases`: a round takes the first of the nodes that wait.
* `Tree.outcome?_of_length_lt`: with a round for each node that waits the search is over.
* `Definitions.Truthful`: a memory that holds nothing but answers of the search.
* `search_is_preorder`: what is found, and that the memory changes no answer.
-/

namespace AgentFlow.Script

namespace Tree

/-! ## Rounds -/

/-- One round of the search, on a stack with its top at the end. The result is what was found, or
the stack that is left. -/
def visit (name : Name) (stack : List Tree) : Option Tree ⊕ List Tree :=
  match stack.getLast? with
  | none => .inl none
  | some t =>
    match ownDefinition? name t with
    | some d => .inl (some d)
    | none => .inr (stack.dropLast ++ t.children.reverse)

/-- What a search comes to within a number of rounds, if it is over by then. -/
def outcome? (name : Name) : Nat → List Tree → Option (Option Tree)
  | 0, _ => none
  | rounds + 1, stack =>
    match visit name stack with
    | .inl found => some found
    | .inr rest => outcome? name rounds rest

/-- The nodes on a stack and below it, in the order in which they are visited. -/
def waiting (stack : List Tree) : List Tree := stack.reverse.flatMap preorder

variable {name : Name} {stack : List Tree}

theorem waiting_snoc (stack : List Tree) (t : Tree) :
    waiting (stack ++ [t]) = t :: waiting (stack ++ t.children.reverse) := by
  simp only [waiting, List.reverse_append, List.reverse_cons, List.reverse_nil, List.nil_append,
    List.singleton_append, List.flatMap_cons, List.reverse_reverse, List.flatMap_append]
  rw [preorder_eq t, List.cons_append]

/-- What a round does with the nodes that wait: it finds that there are none, or it finds a
definition in the first of them, or it takes the first of them away. -/
theorem visit_cases (name : Name) (stack : List Tree) :
    (waiting stack = [] ∧ visit name stack = .inl none) ∨
      ∃ t rest, waiting stack = t :: rest ∧
        ((∃ d, ownDefinition? name t = some d ∧ visit name stack = .inl (some d)) ∨
          ownDefinition? name t = none ∧
            ∃ stack', waiting stack' = rest ∧ visit name stack = .inr stack') := by
  rcases List.eq_nil_or_concat stack with rfl | ⟨below, t, rfl⟩
  · exact .inl ⟨rfl, rfl⟩
  · rw [List.concat_eq_append]
    refine .inr ⟨t, _, waiting_snoc below t, ?_⟩
    cases hd : ownDefinition? name t with
    | some d => exact .inl ⟨d, rfl, by simp [visit, hd]⟩
    | none => exact .inr ⟨rfl, _, rfl, by simp [visit, hd]⟩

/-! ## Searches -/

/-- A search that is over has found what the nodes that waited have first. -/
theorem eq_of_outcome? {rounds : Nat} {found : Option Tree}
    (h : outcome? name rounds stack = some found) :
    found = (waiting stack).findSome? (ownDefinition? name) := by
  induction rounds generalizing stack with
  | zero => cases h
  | succ rounds ih =>
    rw [outcome?] at h
    rcases visit_cases name stack with ⟨hnil, hvisit⟩ |
      ⟨t, _, hwait, ⟨d, hd, hvisit⟩ | ⟨hd, rest, rfl, hvisit⟩⟩
    · rw [hvisit] at h
      rw [hnil, List.findSome?_nil]
      exact (Option.some.inj h).symm
    · rw [hvisit] at h
      rw [hwait, List.findSome?_cons, hd]
      exact (Option.some.inj h).symm
    · rw [hvisit] at h
      rw [hwait, List.findSome?_cons, hd]
      exact ih h

/-- With a round for each node that waits, and one to see that there are no more, a search is
over. -/
theorem outcome?_of_length_lt {rounds : Nat} (h : (waiting stack).length < rounds) :
    outcome? name rounds stack = some ((waiting stack).findSome? (ownDefinition? name)) := by
  induction rounds generalizing stack with
  | zero => exact absurd h (Nat.not_lt_zero _)
  | succ rounds ih =>
    rw [outcome?]
    rcases visit_cases name stack with ⟨hnil, hvisit⟩ |
      ⟨t, _, hwait, ⟨d, hd, hvisit⟩ | ⟨hd, rest, rfl, hvisit⟩⟩
    · rw [hvisit, hnil, List.findSome?_nil]
    · rw [hvisit, hwait, List.findSome?_cons, hd]
    · rw [hwait, List.length_cons] at h
      rw [hvisit, hwait, List.findSome?_cons, hd]
      exact ih (Nat.lt_of_succ_lt_succ h)

mutual

theorem length_preorder : ∀ t : Tree, t.preorder.length = t.size
  | .node _ _ _ _ cs => by rw [preorder, List.length_cons, length_preorderList cs, size]

theorem length_preorderList : ∀ cs : List (Label × Tree), (preorderList cs).length = sizeList cs
  | [] => rfl
  | (_, t) :: cs => by
    rw [preorderList, List.length_append, length_preorder t, length_preorderList cs, sizeList]

end

theorem waiting_root (root : Tree) : waiting [root] = root.preorder := by simp [waiting]

end Tree

/-! ## The memory -/

namespace Definitions

/-- Whether the memory holds nothing but answers of the search. -/
def Truthful (ds : Definitions) : Prop := ∀ k ∈ ds.known, k.2 = ds.root.definition? k.1

theorem truthful_fresh (root : Tree) : Truthful ⟨root, []⟩ := fun _ hk => nomatch hk

/-- A truthful memory answers as the search does, and stays truthful. -/
theorem Truthful.resolve {ds : Definitions} (h : ds.Truthful) (name : Name) :
    (ds.resolve name).1 = ds.root.definition? name ∧ (ds.resolve name).2.Truthful ∧
      (ds.resolve name).2.root = ds.root := by
  rw [Definitions.resolve]
  split
  case h_1 k hk =>
    have hname : k.1 = name := by simpa using List.find?_some hk
    exact ⟨hname ▸ h k (List.mem_of_find?_eq_some hk), h, rfl⟩
  case h_2 =>
    refine ⟨rfl, fun k hk => ?_, rfl⟩
    rcases List.mem_cons.1 hk with rfl | hk
    · rfl
    · exact h k hk

theorem Truthful.resolveAll {ds : Definitions} (h : ds.Truthful) (names : List Name) :
    ds.resolveAll names = names.map ds.root.definition? := by
  induction names generalizing ds with
  | nil => rfl
  | cons name names ih =>
    obtain ⟨hanswer, htruthful, hroot⟩ := h.resolve name
    rw [Definitions.resolveAll, List.map_cons, hanswer, ih htruthful, hroot]

end Definitions

open Script.Tree in
/-- **The search on a stack finds what the nodes in document order have first.** It is over after
no more rounds than the tree has nodes and one, with the definition in the first node that has one,
or with none just if no node has one. A memory of the answers changes none of them: whatever names
were asked for before, each gets the answer of the search. -/
theorem search_is_preorder (root : Tree) :
    (∀ name, outcome? name (root.size + 1) [root] = some (root.definition? name)) ∧
      (∀ name rounds found, outcome? name rounds [root] = some found →
        found = root.definition? name) ∧
      (∀ name d, root.definition? name = some d ↔
        ∃ before t after, root.preorder = before ++ t :: after ∧ ownDefinition? name t = some d ∧
          ∀ u ∈ before, ownDefinition? name u = none) ∧
      (∀ name, root.definition? name = none ↔
        ∀ t ∈ root.preorder, ownDefinition? name t = none) ∧
      (∀ name, (Definitions.resolve ⟨root, []⟩ name).1 = root.definition? name) ∧
      ∀ names, Definitions.resolveAll ⟨root, []⟩ names =
        names.map fun name => (Definitions.resolve ⟨root, []⟩ name).1 := by
  refine ⟨fun name => ?_, fun name rounds found h => ?_, fun name d => ?_, fun name => ?_,
    fun _ => rfl, (Definitions.truthful_fresh root).resolveAll⟩
  · have hrounds : (waiting [root]).length < root.size + 1 := by
      rw [waiting_root, length_preorder]
      exact Nat.lt_succ_self _
    rw [outcome?_of_length_lt hrounds, waiting_root, definition?_eq]
  · rw [eq_of_outcome? h, waiting_root, definition?_eq]
  · rw [definition?_eq, List.findSome?_eq_some_iff]
  · rw [definition?_eq, List.findSome?_eq_none_iff]

end AgentFlow.Script
