import AgentFlow.Proofs.Graph.Strokes
import Mathlib.Algebra.Ring.Nat

/-!
# When indentation shows nesting

The lines of a node stand behind one blank, and one more for each part of an id around it, where the
parts of an id are what stands between its dots and is not empty. So the lines show how many nodes
enclose each node just if each enclosing node has an id of one part.

* `Graph.induction`: induction along the graphs that are embedded in one another.
* `Graph.indent_of_mem_strokes`: how far a line is indented.
* `Graph.exists_stroke_iff`: there are lines of each node, and of no other.
* `Graph.enclosing_mem_places`: what encloses a node is a nested node.
* `Graph.indent_eq_iff`: when each line is indented by one blank more than nodes enclose its node.
* `indent_eq_nesting_iff`: when indentation shows nesting.
-/

namespace AgentFlow

/-! ## Along a graph -/

namespace Graph

theorem sizeOf_embedded_lt {g inner : Graph} {n : Text × Node} (hn : n ∈ g.nodes)
    (hinner : n.2.embedding.graph? = some inner) : sizeOf inner < sizeOf g := by
  obtain ⟨nodes, extra⟩ := g
  obtain ⟨id, agent, inputs, update, embedding, members⟩ := n
  cases embedding <;> cases hinner
  have hmem := List.sizeOf_lt_of_mem hn
  simp [Graph.nodes] at hmem ⊢
  omega

/-- What holds of a graph if it holds of all graphs embedded in its nodes holds of every graph. -/
theorem induction {P : Graph → Prop}
    (h : ∀ g, (∀ n ∈ g.nodes, ∀ inner, n.2.embedding.graph? = some inner → P inner) → P g)
    (g : Graph) : P g := by
  induction hsize : sizeOf g using Nat.strongRecOn generalizing g with
  | ind _ ih =>
    subst hsize
    exact h g fun n hn inner hinner => ih _ (sizeOf_embedded_lt hn hinner) inner rfl

end Graph

/-- Only a nested node embeds a graph. -/
theorem Node.kind_of_graph? {n : Node} {g : Graph} (h : n.embedding.graph? = some g) :
    n.kind = .nested := by
  refine Decidable.byContradiction fun hkind => ?_
  rw [embedding_of_not_nested hkind] at h
  cases h

section

variable {p : Place}

theorem Graph.mem_places {g : Graph} : p ∈ g.places ↔ ∃ n ∈ g.nodes, p ∈ n.2.places n.1 := by
  cases g
  rw [places, nodes]
  exact mem_nodesPlaces

/-- The places of a node are its own and those of the graph inside it. -/
theorem Node.mem_places {n : Node} {id : Text} :
    p ∈ n.places id ↔ p = ⟨[id], n.kind⟩ ∨
      ∃ g, n.embedding.graph? = some g ∧ ∃ inner ∈ g.places, inner.inside id = p := by
  rw [places_eq, List.mem_cons, List.mem_map]
  refine or_congr Iff.rfl ?_
  cases n.embedding <;> simp [Embedding.places, Embedding.graph?]

end

/-! ## How far lines are indented -/

namespace Graph

/-- **How far a line is indented**: by one blank, and one more for each part of an id around the
node that draws it. -/
theorem indent_of_mem_strokes {g : Graph} {scope : Text} (hscope : Scope.IsClosed scope)
    {s : Stroke} (hs : s ∈ g.strokes scope) :
    s.indent = Scope.depth scope + (s.path.dropLast.map Scope.depth).sum + 1 := by
  induction g using Graph.induction generalizing scope s with
  | h g ih =>
    obtain ⟨⟨id, n⟩, hn, hs⟩ := mem_strokes.1 hs
    rcases Node.mem_strokes.1 hs with hown | ⟨inner, hinner, s', hs', rfl⟩
    · obtain ⟨shape, -, rfl⟩ := List.mem_map.1 hown
      simp [Node.stroke]
    · have hindent := ih _ hn inner hinner (Scope.isClosed_child _) hs'
      rw [Scope.depth_child_nil, Scope.qualify, hscope.depth_append] at hindent
      rw [Stroke.inside, hindent, List.dropLast_cons_of_ne_nil (path_ne_nil_of_mem_strokes hs'),
        List.map_cons, List.sum_cons, Nat.add_assoc (Scope.depth scope)]

/-- **There are lines of each node, and of no other.** -/
theorem exists_stroke_iff {g : Graph} {scope : Text} {path : List Text} :
    (∃ s ∈ g.strokes scope, s.path = path) ↔ ∃ p ∈ g.places, p.path = path := by
  induction g using Graph.induction generalizing scope path with
  | h g ih =>
    constructor
    · rintro ⟨s, hs, rfl⟩
      obtain ⟨⟨id, n⟩, hn, hs⟩ := mem_strokes.1 hs
      rcases Node.mem_strokes.1 hs with hown | ⟨inner, hinner, s', hs', rfl⟩
      · obtain ⟨shape, -, rfl⟩ := List.mem_map.1 hown
        exact ⟨_, mem_places.2 ⟨_, hn, Node.mem_places.2 (.inl rfl)⟩, rfl⟩
      · obtain ⟨q, hq, hpath⟩ := (ih _ hn inner hinner).1 ⟨s', hs', rfl⟩
        exact ⟨_, mem_places.2 ⟨_, hn, Node.mem_places.2 (.inr ⟨inner, hinner, q, hq, rfl⟩)⟩,
          congrArg (id :: ·) hpath⟩
    · rintro ⟨p, hp, rfl⟩
      obtain ⟨⟨id, n⟩, hn, hp⟩ := mem_places.1 hp
      rcases Node.mem_places.1 hp with rfl | ⟨inner, hinner, q, hq, rfl⟩
      · have hown := List.mem_map_of_mem (f := Node.stroke scope id)
          (List.mem_cons_self : n.shape scope id ∈ n.ownShapes scope id)
        exact ⟨_, mem_strokes.2 ⟨_, hn, Node.mem_strokes.2 (.inl hown)⟩, rfl⟩
      · obtain ⟨s, hs, hpath⟩ := (ih _ hn inner hinner).2 ⟨q, hq, rfl⟩
        exact ⟨_, mem_strokes.2 ⟨_, hn, Node.mem_strokes.2 (.inr ⟨inner, hinner, s, hs, rfl⟩)⟩,
          congrArg (id :: ·) hpath⟩

/-- **What encloses a node is a nested node.** -/
theorem enclosing_mem_places {g : Graph} {p : Place} (hp : p ∈ g.places) {k : Nat}
    (hk : k + 1 < p.path.length) : ⟨p.path.take (k + 1), .nested⟩ ∈ g.places := by
  induction g using Graph.induction generalizing p k with
  | h g ih =>
    obtain ⟨⟨id, n⟩, hn, hp⟩ := mem_places.1 hp
    rcases Node.mem_places.1 hp with rfl | ⟨inner, hinner, q, hq, rfl⟩
    · simp at hk
    · refine mem_places.2 ⟨_, hn, Node.mem_places.2 ?_⟩
      cases k with
      | zero =>
        rw [Node.kind_of_graph? hinner]
        exact .inl rfl
      | succ k =>
        exact .inr ⟨inner, hinner, _, ih _ hn inner hinner hq (Nat.lt_of_succ_lt_succ hk), rfl⟩

/-- There are lines of each node that encloses another one. -/
theorem exists_stroke_take {g : Graph} {scope : Text} {p : Place} (hp : p ∈ g.places) {k : Nat}
    (hk : k < p.path.length) : ∃ s ∈ g.strokes scope, s.path = p.path.take (k + 1) := by
  rw [exists_stroke_iff]
  rcases Nat.lt_or_eq_of_le (Nat.succ_le_of_lt hk) with hlt | heq
  · exact ⟨_, enclosing_mem_places hp hlt, rfl⟩
  · exact ⟨p, hp, (List.take_of_length_le (Nat.le_of_eq heq.symm)).symm⟩

end Graph

/-! ## Nesting -/

theorem dropLast_take_succ {α : Type} (xs : List α) (k : Nat) :
    (xs.take (k + 1)).dropLast = xs.dropLast.take k := by
  rw [List.dropLast_eq_take, List.dropLast_eq_take, List.length_take, List.take_take,
    List.take_take]
  congr 1
  omega

/-- Numbers whose sums count them, up to each of them, are ones. -/
theorem sum_take_eq_iff {ns : List Nat} :
    (∀ k ≤ ns.length, (ns.take k).sum = k) ↔ ∀ n ∈ ns, n = 1 := by
  induction ns with
  | nil => simp
  | cons n ns ih =>
    rw [List.forall_mem_cons, ← ih]
    constructor
    · intro h
      have hn : n = 1 := by simpa using h 1 (by simp)
      refine ⟨hn, fun k hk => ?_⟩
      have hsum := h (k + 1) (Nat.succ_le_succ hk)
      rw [List.take_succ_cons, List.sum_cons, hn] at hsum
      omega
    · rintro ⟨rfl, h⟩ k hk
      cases k with
      | zero => rfl
      | succ k =>
        rw [List.take_succ_cons, List.sum_cons, h k (Nat.le_of_succ_le_succ hk), Nat.add_comm]

theorem Graph.indent_eq_iff (g : Graph) :
    (∀ s ∈ g.strokes [], s.indent = s.path.dropLast.length + 1) ↔
      ∀ p ∈ g.places, ∀ outer ∈ p.path.dropLast, Scope.depth outer = 1 := by
  have hindent {s : Stroke} (hs : s ∈ g.strokes []) := g.indent_of_mem_strokes (.inl rfl) hs
  constructor
  · intro h p hp
    -- what is around a node is a node with lines of its own, so the sum is known up to each id
    have hsum : ∀ k ≤ (p.path.dropLast.map Scope.depth).length,
        ((p.path.dropLast.map Scope.depth).take k).sum = k := by
      intro k hk
      have hne := List.length_pos_iff.2 (path_ne_nil hp)
      rw [List.length_map, List.length_dropLast] at hk
      obtain ⟨s, hs, hpath⟩ := exists_stroke_take (k := k) hp (by omega)
      have heq := (hindent hs).symm.trans (h s hs)
      rw [hpath, dropLast_take_succ, List.length_take, List.length_dropLast, Scope.depth_nil] at heq
      rw [← List.map_take]
      omega
    intro outer houter
    exact sum_take_eq_iff.1 hsum _ (List.mem_map_of_mem houter)
  · intro h s hs
    obtain ⟨p, hp, hpath⟩ := exists_stroke_iff.1 ⟨s, hs, rfl⟩
    have hones : ∀ n ∈ p.path.dropLast.map Scope.depth, n = 1 := by
      intro n hn
      obtain ⟨outer, houter, rfl⟩ := List.mem_map.1 hn
      exact h p hp outer houter
    have hsum := sum_take_eq_iff.2 hones _ (Nat.le_refl _)
    rw [List.take_length, List.length_map, hpath] at hsum
    rw [hindent hs, hsum, Scope.depth_nil, Nat.zero_add]

/-- **When indentation shows nesting.** Each line is drawn by a node of the graph, and is indented
by one blank and one more for each part of an id around that node. So all lines are indented by one
blank more than there are nested nodes around the node that draws them just if the id of every node
with other nodes inside it has one part. -/
theorem indent_eq_nesting_iff (g : Graph) :
    (g.fragment []).lines = (g.strokes []).map Stroke.text ∧
      (∀ s ∈ g.strokes [], ∃ p ∈ g.places, p.path = s.path ∧
        (∀ k, k + 1 < p.path.length → ⟨p.path.take (k + 1), .nested⟩ ∈ g.places) ∧
        s.indent = (p.path.dropLast.map Scope.depth).sum + 1) ∧
      ((∀ s ∈ g.strokes [], s.indent = s.path.dropLast.length + 1) ↔
        ∀ p ∈ g.places, ∀ outer ∈ p.path.dropLast, Scope.depth outer = 1) := by
  refine ⟨g.lines_eq_strokes [], fun s hs => ?_, g.indent_eq_iff⟩
  obtain ⟨p, hp, hpath⟩ := Graph.exists_stroke_iff.1 ⟨s, hs, rfl⟩
  refine ⟨p, hp, hpath, fun k hk => Graph.enclosing_mem_places hp hk, ?_⟩
  rw [hpath, Graph.indent_of_mem_strokes (.inl rfl) hs, Scope.depth_nil, Nat.zero_add]

theorem indent_of_feedingDocument :
    (∀ p ∈ (Graph.ofValue feedingDocument).places, ∀ outer ∈ p.path.dropLast,
      Scope.depth outer = 1) ∧
    ∀ s ∈ (Graph.ofValue feedingDocument).strokes [], s.indent = s.path.dropLast.length + 1 := by
  have hplaces : ∀ p ∈ (Graph.ofValue feedingDocument).places, ∀ outer ∈ p.path.dropLast,
      Scope.depth outer = 1 := by decide
  exact ⟨hplaces, (indent_eq_nesting_iff _).2.2.2 hplaces⟩

/-- A node inside of one whose id has a dot. -/
def dottedDocument : Value :=
  .map [(.str "nodes", .map [(.str "a.b", .map [(.str "graph", .map [(.str "nodes",
    .map [(.str "c", .null)])])])])]

/-- The line of a node inside of one node is indented by three blanks. -/
theorem dottedDocument_indents_twice :
    Graph.check dottedDocument = .ok (Graph.ofValue dottedDocument) ∧
      ((Graph.ofValue dottedDocument).fragment []).lines
        = [Text.ofString " subgraph a.b[a.b: <span class=\"agent-name\"></span>]",
          Text.ofString "   a.b.c(c)", Text.ofString " end"] ∧
      ⟨["a.b", "c"], 3, .static "a.b.c" "c"⟩ ∈ (Graph.ofValue dottedDocument).strokes [] := by
  exact ⟨rfl, by decide +kernel, by decide +kernel⟩

end AgentFlow
