import AgentFlow.Proofs.Graph.Identity

/-!
# Who draws a line

Every line of a fragment is drawn by one node: it declares the node, draws an edge to it, or opens
or ends its block. The outline of a graph lists the lines of its fragment, each with the place of
the node that draws it and with what it is for.

* `Graph.outline`: the outline of a graph. `Graph.lines_fragment`: its texts are the lines of the
  fragment.
* `Graph.nodeIn?`: the node of an id inside of nested nodes.
* `Graph.linesOf_outline`: what a node at any depth draws is what it draws by itself, in the scope
  of the nodes around it.
* `Graph.exists_nodeIn?`: all lines are drawn by a node of the graph.
-/

namespace AgentFlow

/-- What a line is for: it declares a node, draws an edge to it, or opens or ends its block. -/
inductive LineRole where
  | declaration
  | edge
  | opening
  | ending
  deriving DecidableEq

/-- A line of a fragment, and the node that draws it as the ids from the outermost graph down to
it. -/
structure DrawnLine where
  path : List Text
  role : LineRole
  text : Text

/-- A line of an embedded graph, seen from the graph around it. -/
def DrawnLine.inside (id : Text) (l : DrawnLine) : DrawnLine := { l with path := id :: l.path }

namespace Node

/-- The line that shows a node: it opens its block if it is nested, else it declares it. -/
def heading (scope id : Text) (n : Node) : DrawnLine :=
  let qualified := Scope.qualify scope id
  let indent := Scope.indent scope
  let label := agentLabel (n.agent?.getD .null)
  match n.kind with
  | .nested =>
    ⟨[id], .opening, indent ++ "subgraph " ++ qualified ++ "[" ++ id ++ ": " ++ label ++ "]"⟩
  | .computed => ⟨[id], .declaration, indent ++ qualified ++ "(" ++ id ++ "<br/>" ++ label ++ ")"⟩
  | .static => ⟨[id], .declaration, indent ++ qualified ++ "(" ++ id ++ ")"⟩

/-- The edges to a node. -/
def arrows (scope id : Text) (n : Node) : List DrawnLine :=
  (edges n.dependencies (Scope.qualify scope id) scope).map fun t => ⟨[id], .edge, t⟩

/-- The line that ends the block of a node. -/
def closing (scope id : Text) : DrawnLine := ⟨[id], .ending, Scope.indent scope ++ "end"⟩

end Node

mutual

/-- The outline of a graph. -/
def Graph.outline (scope : Text) : Graph → List DrawnLine
  | .mk nodes _ => nodesOutline scope nodes

/-- The outlines of nodes one after the other. -/
def nodesOutline (scope : Text) : List (Text × Node) → List DrawnLine
  | [] => []
  | (id, node) :: rest => Node.outline scope id node ++ nodesOutline scope rest

/-- The outline of a node: a nested node opens its block after its edges. -/
def Node.outline (scope id : Text) : Node → List DrawnLine
  | .mk agent inputs update graph extra =>
    let node := Node.mk agent inputs update graph extra
    if node.kind = .nested then
      node.arrows scope id ++ [node.heading scope id]
        ++ (Embedding.outline (Scope.child (Scope.qualify scope id)) graph).map
            (DrawnLine.inside id)
        ++ [Node.closing scope id]
    else [node.heading scope id] ++ node.arrows scope id

/-- The outline of what a node embeds. -/
def Embedding.outline (scope : Text) : Embedding → List DrawnLine
  | .graph g => Graph.outline scope g
  | .absent => []
  | .reference _ => []
  | .unusable => []

end

namespace Node

variable {n : Node}

theorem outline_of_nested (h : n.kind = .nested) (scope id : Text) :
    n.outline scope id = n.arrows scope id ++ [n.heading scope id]
      ++ (n.embedding.outline (Scope.child (Scope.qualify scope id))).map (DrawnLine.inside id)
      ++ [closing scope id] := by
  cases n
  rw [outline]
  exact if_pos h

theorem outline_of_not_nested (h : n.kind ≠ .nested) (scope id : Text) :
    n.outline scope id = [n.heading scope id] ++ n.arrows scope id := by
  cases n
  rw [outline]
  exact if_neg h

theorem map_text_arrows (scope id : Text) :
    (n.arrows scope id).map DrawnLine.text
      = edges n.dependencies (Scope.qualify scope id) scope := by
  rw [arrows, List.map_map]
  exact List.map_id _

end Node

theorem DrawnLine.map_text_inside (id : Text) (ls : List DrawnLine) :
    (ls.map (inside id)).map text = ls.map text := by
  rw [List.map_map]
  rfl

/-! ## Texts -/

mutual

/-- **The texts of an outline are the lines of the fragment.** -/
theorem Graph.lines_fragment (scope : Text) :
    ∀ g : Graph, (g.fragment scope).lines = (g.outline scope).map DrawnLine.text
  | .mk nodes _ => by
    rw [Graph.fragment, Graph.outline]
    exact nodes_lines_fragment scope nodes

theorem nodes_lines_fragment (scope : Text) : ∀ ns : List (Text × Node),
    (nodesFragment scope ns).lines = (nodesOutline scope ns).map DrawnLine.text
  | [] => rfl
  | (id, node) :: rest => by
    rw [nodesFragment, nodesOutline, Fragment.lines_append, List.map_append,
      Node.lines_fragment scope id node, nodes_lines_fragment scope rest]

theorem Node.lines_fragment (scope id : Text) :
    ∀ n : Node, (n.fragment scope id).lines = (n.outline scope id).map DrawnLine.text
  | .mk agent inputs update graph extra => by
    rw [Node.fragment]
    cases hk : (Node.mk agent inputs update graph extra).kind with
    | nested =>
      have hinner := Embedding.lines_fragment (Scope.child (Scope.qualify scope id)) graph
      rw [Node.outline_of_nested hk, List.map_append, List.map_append, List.map_append,
        DrawnLine.map_text_inside, Node.map_text_arrows, Node.embedding, ← hinner, Node.heading, hk]
      rfl
    | computed =>
      rw [Node.outline_of_not_nested (by rw [hk]; decide), List.map_append, Node.map_text_arrows,
        Node.heading, hk]
      rfl
    | static =>
      rw [Node.outline_of_not_nested (by rw [hk]; decide), List.map_append, Node.map_text_arrows,
        Node.heading, hk]
      rfl

theorem Embedding.lines_fragment (scope : Text) :
    ∀ e : Embedding, (e.fragment scope).lines = (e.outline scope).map DrawnLine.text
  | .graph g => by
    rw [Embedding.fragment, Embedding.outline]
    exact Graph.lines_fragment scope g
  | .absent => rfl
  | .reference _ => rfl
  | .unusable => rfl

end

/-! ## Paths -/

theorem Node.path_heading (n : Node) (scope id : Text) : (n.heading scope id).path = [id] := by
  rw [heading]
  split <;> rfl

theorem Node.path_of_mem_arrows {n : Node} {scope id : Text} {l : DrawnLine}
    (h : l ∈ n.arrows scope id) : l.path = [id] := by
  obtain ⟨t, -, rfl⟩ := List.mem_map.1 h
  rfl

/-- A line of a node is one of its own, or a line of what it embeds. -/
theorem Node.mem_outline {n : Node} {scope id : Text} {l : DrawnLine}
    (h : l ∈ n.outline scope id) : l.path = [id] ∨
      ∃ l' ∈ n.embedding.outline (Scope.child (Scope.qualify scope id)), l = l'.inside id := by
  by_cases hk : n.kind = .nested
  · rw [outline_of_nested hk, List.mem_append, List.mem_append, List.mem_append, List.mem_singleton,
      List.mem_map, List.mem_singleton] at h
    obtain ((h | rfl) | ⟨l', hl', rfl⟩) | rfl := h
    · exact .inl (path_of_mem_arrows h)
    · exact .inl (n.path_heading scope id)
    · exact .inr ⟨l', hl', rfl⟩
    · exact .inl rfl
  · rw [outline_of_not_nested hk, List.mem_append, List.mem_singleton] at h
    obtain rfl | h := h
    · exact .inl (n.path_heading scope id)
    · exact .inl (path_of_mem_arrows h)

theorem Node.head?_path_of_mem_outline {n : Node} {scope id : Text} {l : DrawnLine}
    (h : l ∈ n.outline scope id) : l.path.head? = some id := by
  rcases mem_outline h with h | ⟨l', -, rfl⟩
  · rw [h, List.head?_cons]
  · rfl

theorem mem_nodesOutline {ns : List (Text × Node)} {scope : Text} {l : DrawnLine} :
    l ∈ nodesOutline scope ns ↔ ∃ n ∈ ns, l ∈ n.2.outline scope n.1 := by
  induction ns with
  | nil => simp [nodesOutline]
  | cons n ns ih =>
    obtain ⟨id, node⟩ := n
    simp [nodesOutline, ih]

theorem Graph.mem_outline {g : Graph} {scope : Text} {l : DrawnLine} :
    l ∈ g.outline scope ↔ ∃ n ∈ g.nodes, l ∈ n.2.outline scope n.1 := by
  cases g
  rw [outline, nodes]
  exact mem_nodesOutline

theorem Embedding.mem_outline {e : Embedding} {scope : Text} {l : DrawnLine} :
    l ∈ e.outline scope ↔ ∃ g, e.graph? = some g ∧ l ∈ g.outline scope := by
  cases e <;> simp [outline, graph?]

theorem Graph.path_ne_nil_of_mem_outline {g : Graph} {scope : Text} {l : DrawnLine}
    (h : l ∈ g.outline scope) : l.path ≠ [] := by
  obtain ⟨n, -, hn⟩ := mem_outline.1 h
  intro hnil
  have hhead := Node.head?_path_of_mem_outline hn
  rw [hnil] at hhead
  cases hhead

theorem Embedding.path_ne_nil_of_mem_outline {e : Embedding} {scope : Text} {l : DrawnLine}
    (h : l ∈ e.outline scope) : l.path ≠ [] := by
  obtain ⟨g, -, hg⟩ := mem_outline.1 h
  exact Graph.path_ne_nil_of_mem_outline hg

/-! ## The lines of one node -/

/-- The texts of the lines that a node draws in a role. -/
def linesOf (path : List Text) (role : LineRole) (ls : List DrawnLine) : List Text :=
  (ls.filter fun l => l.path = path ∧ l.role = role).map DrawnLine.text

section

variable {path : List Text} {role : LineRole} {ls ls' : List DrawnLine}

theorem linesOf_append :
    linesOf path role (ls ++ ls') = linesOf path role ls ++ linesOf path role ls' := by
  rw [linesOf, List.filter_append, List.map_append, linesOf, linesOf]

theorem linesOf_of_path_ne (h : ∀ l ∈ ls, l.path ≠ path) : linesOf path role ls = [] := by
  rw [linesOf, List.filter_eq_nil_iff.2, List.map_nil]
  intro l hl hpath
  exact h l hl (of_decide_eq_true hpath).1

theorem linesOf_map_inside (id : Text) :
    linesOf (id :: path) role (ls.map (DrawnLine.inside id)) = linesOf path role ls := by
  rw [linesOf, List.filter_map, DrawnLine.map_text_inside, linesOf]
  refine congrArg _ (List.filter_congr fun l _ => decide_eq_decide.2 ?_)
  simp [DrawnLine.inside]

end

namespace Node

variable {n : Node}

/-- What a node draws as its edges. -/
theorem linesOf_edge_outline (n : Node) (scope id : Text) :
    linesOf [id] .edge (n.outline scope id)
      = edges n.dependencies (Scope.qualify scope id) scope := by
  have harrows : linesOf [id] .edge (n.arrows scope id)
      = edges n.dependencies (Scope.qualify scope id) scope := by
    rw [linesOf, List.filter_eq_self.2, map_text_arrows]
    intro l hl
    obtain ⟨t, -, rfl⟩ := List.mem_map.1 hl
    simp
  have hheading : linesOf [id] .edge [n.heading scope id] = [] := by
    rw [heading]
    split <;> simp [linesOf]
  by_cases hk : n.kind = .nested
  · have hinner (ls : List DrawnLine) (hls : ∀ l ∈ ls, l.path ≠ []) :
        linesOf [id] .edge (ls.map (DrawnLine.inside id)) = [] := by
      rw [linesOf_map_inside]
      exact linesOf_of_path_ne hls
    rw [outline_of_nested hk, linesOf_append, linesOf_append, linesOf_append, harrows, hheading,
      hinner _ fun _ => Embedding.path_ne_nil_of_mem_outline]
    simp [linesOf, closing]
  · rw [outline_of_not_nested hk, linesOf_append, hheading, harrows, List.nil_append]

/-- What the nodes inside a node draw. -/
theorem linesOf_inside_outline {g : Graph} (hg : n.embedding.graph? = some g) {path : List Text}
    (hpath : path ≠ []) (role : LineRole) (scope id : Text) :
    linesOf (id :: path) role (n.outline scope id)
      = linesOf path role (g.outline (Scope.child (Scope.qualify scope id))) := by
  have hk : n.kind = .nested := by
    refine Decidable.byContradiction fun hk => ?_
    rw [embedding_of_not_nested hk] at hg
    cases hg
  have hembedding : n.embedding = .graph g := by
    cases he : n.embedding <;> rw [he] at hg <;> cases hg
    rfl
  have hown (ls : List DrawnLine) (hls : ∀ l ∈ ls, l.path = [id]) :
      linesOf (id :: path) role ls = [] :=
    linesOf_of_path_ne fun l hl heq => hpath (List.tail_eq_of_cons_eq (heq.symm.trans (hls l hl)))
  rw [outline_of_nested hk, linesOf_append, linesOf_append, linesOf_append, linesOf_map_inside,
    hown _ fun _ => path_of_mem_arrows,
    hown _ fun l hl => by rw [List.mem_singleton.1 hl, path_heading],
    hown _ fun l hl => by rw [List.mem_singleton.1 hl, closing], hembedding, Embedding.outline,
    List.append_nil, List.nil_append, List.nil_append]

end Node

/-- Of nodes with distinct ids, one draws all lines whose path goes through it. -/
theorem linesOf_nodesOutline {ns : List (Text × Node)} (hids : (ns.map (·.1)).Nodup)
    {id : Text} {n : Node} (hn : ns.lookup id = some n) (path : List Text) (role : LineRole)
    (scope : Text) :
    linesOf (id :: path) role (nodesOutline scope ns)
      = linesOf (id :: path) role (n.outline scope id) := by
  induction ns with
  | nil => cases hn
  | cons m ns ih =>
    obtain ⟨id', node⟩ := m
    rw [List.map_cons, List.nodup_cons] at hids
    rw [nodesOutline, linesOf_append]
    by_cases hid : id = id'
    · subst hid
      rw [List.lookup_cons_self] at hn
      obtain rfl := Option.some.inj hn
      have hrest : linesOf (id :: path) role (nodesOutline scope ns) = [] := by
        refine linesOf_of_path_ne fun l hl heq => hids.1 ?_
        obtain ⟨m, hm, hlm⟩ := mem_nodesOutline.1 hl
        have hhead := Node.head?_path_of_mem_outline hlm
        rw [heq, List.head?_cons, Option.some_inj] at hhead
        exact List.mem_map.2 ⟨m, hm, hhead.symm⟩
      rw [hrest, List.append_nil]
    · rw [List.lookup_cons, beq_false_of_ne hid] at hn
      rw [ih hids.2 hn, linesOf_of_path_ne, List.nil_append]
      intro l hl heq
      have hhead := Node.head?_path_of_mem_outline hl
      rw [heq, List.head?_cons, Option.some_inj] at hhead
      exact hid hhead

/-! ## Nodes at any depth -/

/-- The scope inside of nested nodes, seen from the scope around the first of them. -/
def Scope.within (scope : Text) (above : List Text) : Text :=
  scope ++ above.flatMap fun id => id ++ [separator]

theorem Scope.within_cons (scope outer : Text) (above : List Text) :
    within scope (outer :: above) = within (child (qualify scope outer)) above := by
  simp [within, child, qualify]

section

variable {ns : List (Text × Node)} {id : Text} {n : Node}

theorem mem_of_lookup (h : ns.lookup id = some n) : (id, n) ∈ ns := by
  obtain ⟨before, after, rfl, -⟩ := List.lookup_eq_some_iff.1 h
  exact List.mem_append_right _ List.mem_cons_self

/-- Of nodes with distinct ids, each is found by its id. -/
theorem lookup_of_mem (hids : (ns.map (·.1)).Nodup) (h : (id, n) ∈ ns) :
    ns.lookup id = some n := by
  obtain ⟨before, after, rfl⟩ := List.append_of_mem h
  refine List.lookup_eq_some_iff.2 ⟨before, after, rfl, fun m hm => bne_iff_ne.2 fun heq => ?_⟩
  rw [List.map_append, List.map_cons, List.nodup_append] at hids
  exact hids.2.2 _ (List.mem_map_of_mem hm) _ List.mem_cons_self heq.symm

end

namespace Graph

/-- The node of an id inside of nested nodes. -/
def nodeIn? (g : Graph) (above : List Text) (id : Text) : Option Node :=
  match above with
  | [] => g.nodes.lookup id
  | outer :: above =>
    (g.nodes.lookup outer).bind fun n => n.embedding.graph?.bind fun inner => inner.nodeIn? above id

/-- The graphs embedded in a graph with distinct ids have distinct ids. -/
theorem IdsDistinct.embedded {g inner : Graph} {id : Text} {n : Node} (hg : g.IdsDistinct)
    (hn : g.nodes.lookup id = some n) (hinner : n.embedding.graph? = some inner) :
    inner.IdsDistinct := by
  obtain ⟨ns, extra⟩ := g
  rw [IdsDistinct] at hg
  have hdistinct := nodesIdsDistinct_iff.1 hg.2 _ (mem_of_lookup hn)
  cases n
  rw [Node.IdsDistinct] at hdistinct
  exact Embedding.idsDistinct_iff.1 hdistinct inner hinner

/-- **What a node draws at any depth** is what it draws by itself, in the scope of the nodes around
it. -/
theorem linesOf_outline {g : Graph} (hg : g.IdsDistinct) {above : List Text} {id : Text} {n : Node}
    (hn : g.nodeIn? above id = some n) (role : LineRole) (scope : Text) :
    linesOf (above ++ [id]) role (g.outline scope)
      = linesOf [id] role (n.outline (Scope.within scope above) id) := by
  induction above generalizing g scope with
  | nil =>
    obtain ⟨ns, extra⟩ := g
    rw [IdsDistinct] at hg
    rw [nodeIn?, nodes] at hn
    rw [List.nil_append, outline, linesOf_nodesOutline hg.1 hn, Scope.within, List.flatMap_nil,
      List.append_nil]
  | cons outer above ih =>
    rw [nodeIn?] at hn
    obtain ⟨m, hm, hbelow⟩ := Option.bind_eq_some_iff.1 hn
    obtain ⟨inner, hinner, hin⟩ := Option.bind_eq_some_iff.1 hbelow
    have hdistinct := hg.embedded hm hinner
    obtain ⟨ns, extra⟩ := g
    rw [IdsDistinct] at hg
    rw [List.cons_append, outline, linesOf_nodesOutline hg.1 hm,
      Node.linesOf_inside_outline hinner (by simp), ih hdistinct hin, Scope.within_cons]

/-- **All lines are drawn by a node of the graph.** -/
theorem exists_nodeIn? {g : Graph} (hg : g.IdsDistinct) {scope : Text} {l : DrawnLine}
    (hl : l ∈ g.outline scope) :
    ∃ above id n, l.path = above ++ [id] ∧ g.nodeIn? above id = some n := by
  generalize hpath : l.path = path
  induction path generalizing g scope l with
  | nil => exact absurd hpath (path_ne_nil_of_mem_outline hl)
  | cons id path ih =>
    obtain ⟨⟨id', n⟩, hn, hln⟩ := mem_outline.1 hl
    obtain rfl : id = id' := by
      have hhead := Node.head?_path_of_mem_outline hln
      rwa [hpath, List.head?_cons, Option.some_inj] at hhead
    have hlookup : g.nodes.lookup id = some n := by
      cases g
      rw [IdsDistinct] at hg
      exact lookup_of_mem hg.1 hn
    rcases Node.mem_outline hln with hown | ⟨l', hl', rfl⟩
    · exact ⟨[], id, n, hpath.symm.trans hown, hlookup⟩
    · obtain ⟨inner, hinner, hl'⟩ := Embedding.mem_outline.1 hl'
      obtain ⟨above, id', m, hpath', hm⟩ := ih (hg.embedded hlookup hinner) hl'
        (List.tail_eq_of_cons_eq hpath)
      refine ⟨id :: above, id', m, ?_, ?_⟩
      · rw [hpath', List.cons_append]
      · rw [nodeIn?, hlookup, Option.bind_some, hinner, Option.bind_some, hm]

end Graph

end AgentFlow
