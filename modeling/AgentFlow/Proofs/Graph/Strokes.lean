import AgentFlow.Proofs.Graph.Edges

/-!
# Drawing inside a scope

A line of a fragment is a stroke: blanks, and a shape that names nodes by their ids and shows
titles and labels. Inside a scope every id gets the text of the scope in front of it, titles and
labels stay as they are, and each line moves to the right by the depth of the scope. So a graph is
drawn inside a scope as it is drawn alone, moved there.

* `Graph.strokes`: the strokes of a graph in a scope.
* `Graph.outline_eq_strokes`: they are the lines of its outline, drawn by the same nodes.
* `Stroke.within`: a stroke moved into a scope. `Stroke.within_within`: moved twice.
* `Graph.strokes_within`: the strokes of a graph in a scope are those of the graph alone, moved
  there.
* `fragment_in_scope`: the fragment of a graph in a scope.
-/

namespace AgentFlow

/-! ## Shapes and strokes -/

/-- What a line shows, with the ids of nodes apart from titles and labels. -/
inductive Shape where
  | static (node title : Text)
  | computed (node title label : Text)
  | opening (node title label : Text)
  | edge (source : Text) (label : Option Text) (target : Text)
  | ending
  deriving DecidableEq

namespace Shape

/-- The text of a shape. -/
def text : Shape → Text
  | .static node title => node ++ "(" ++ title ++ ")"
  | .computed node title label => node ++ "(" ++ title ++ "<br/>" ++ label ++ ")"
  | .opening node title label => "subgraph " ++ node ++ "[" ++ title ++ ": " ++ label ++ "]"
  | .edge source label target => source ++ arrow label ++ target
  | .ending => "end"

/-- What a line with a shape is for. -/
def role : Shape → LineRole
  | .static _ _ => .declaration
  | .computed _ _ _ => .declaration
  | .opening _ _ _ => .opening
  | .edge _ _ _ => .edge
  | .ending => .ending

/-- A shape with the text of a scope in front of every id. -/
def within (scope : Text) : Shape → Shape
  | .static node title => .static (scope ++ node) title
  | .computed node title label => .computed (scope ++ node) title label
  | .opening node title label => .opening (scope ++ node) title label
  | .edge source label target => .edge (scope ++ source) label (scope ++ target)
  | .ending => .ending

theorem within_within (outer inner : Text) (s : Shape) :
    (s.within inner).within outer = s.within (outer ++ inner) := by
  cases s <;> simp [within]

end Shape

/-- A line of a fragment: the node that draws it, as the ids from the outermost graph down to it,
the number of blanks in front, and the shape behind them. -/
structure Stroke where
  path : List Text
  indent : Nat
  shape : Shape
  deriving DecidableEq

namespace Stroke

/-- The line of a stroke. -/
def text (s : Stroke) : Text := List.replicate s.indent (.char ' ') ++ s.shape.text

/-- The line of a stroke, with what it is for. -/
def drawn (s : Stroke) : DrawnLine := ⟨s.path, s.shape.role, s.text⟩

/-- A stroke of an embedded graph, seen from the graph around it. -/
def inside (id : Text) (s : Stroke) : Stroke := { s with path := id :: s.path }

/-- A stroke moved into a scope. -/
def within (scope : Text) (s : Stroke) : Stroke :=
  { s with indent := s.indent + Scope.depth scope, shape := s.shape.within scope }

theorem within_inside (scope id : Text) (s : Stroke) :
    (s.inside id).within scope = (s.within scope).inside id := rfl

end Stroke

/-! ## The strokes of a graph -/

/-- The edge that a source draws; a source without an id draws none. -/
def DataSource.shape? (scope target : Text) : DataSource → Option Shape
  | .literal _ => none
  | .node id path =>
    if id.isEmpty then none
    else some (.edge (Scope.qualify scope id)
      (if path.isEmpty then none else some (Text.join "." path)) target)

namespace Node

/-- A stroke that a node draws itself. -/
def stroke (scope id : Text) (shape : Shape) : Stroke := ⟨[id], Scope.depth scope + 1, shape⟩

/-- The shape that shows a node. -/
def shape (scope id : Text) (n : Node) : Shape :=
  let label := agentLabel (n.agent?.getD .null)
  match n.kind with
  | .nested => .opening (Scope.qualify scope id) id label
  | .computed => .computed (Scope.qualify scope id) id label
  | .static => .static (Scope.qualify scope id) id

/-- The shapes of the edges to a node. -/
def edgeShapes (scope id : Text) (n : Node) : List Shape :=
  (DataSource.inside n.dependencies).filterMap (DataSource.shape? scope (Scope.qualify scope id))

end Node

mutual

/-- The strokes of a graph. -/
def Graph.strokes (scope : Text) : Graph → List Stroke
  | .mk nodes _ => nodesStrokes scope nodes

/-- The strokes of nodes one after the other. -/
def nodesStrokes (scope : Text) : List (Text × Node) → List Stroke
  | [] => []
  | (id, node) :: rest => Node.strokes scope id node ++ nodesStrokes scope rest

/-- The strokes of a node: a nested node opens its block after its edges. -/
def Node.strokes (scope id : Text) : Node → List Stroke
  | .mk agent inputs update graph extra =>
    let node := Node.mk agent inputs update graph extra
    if node.kind = .nested then
      (node.edgeShapes scope id ++ [node.shape scope id]).map (Node.stroke scope id)
        ++ (Embedding.strokes (Scope.child (Scope.qualify scope id)) graph).map (Stroke.inside id)
        ++ [Node.stroke scope id .ending]
    else (node.shape scope id :: node.edgeShapes scope id).map (Node.stroke scope id)

/-- The strokes of what a node embeds. -/
def Embedding.strokes (scope : Text) : Embedding → List Stroke
  | .graph g => Graph.strokes scope g
  | .absent => []
  | .reference _ => []
  | .unusable => []

end

namespace Node

variable {n : Node}

theorem strokes_of_nested (h : n.kind = .nested) (scope id : Text) : n.strokes scope id
    = (n.edgeShapes scope id ++ [n.shape scope id]).map (stroke scope id)
      ++ (n.embedding.strokes (Scope.child (Scope.qualify scope id))).map (Stroke.inside id)
      ++ [stroke scope id .ending] := by
  cases n
  rw [strokes]
  exact if_pos h

theorem strokes_of_not_nested (h : n.kind ≠ .nested) (scope id : Text) : n.strokes scope id
    = (n.shape scope id :: n.edgeShapes scope id).map (stroke scope id) := by
  cases n
  rw [strokes]
  exact if_neg h

end Node

/-! ## Strokes are lines -/

namespace Node

theorem heading_eq_stroke (n : Node) (scope id : Text) :
    n.heading scope id = (stroke scope id (n.shape scope id)).drawn := by
  rw [heading, shape]
  cases n.kind <;> simp [stroke, Stroke.drawn, Stroke.text, Shape.text, Shape.role, Scope.indent]

theorem arrows_eq_strokes (n : Node) (scope id : Text) :
    n.arrows scope id = ((n.edgeShapes scope id).map (stroke scope id)).map Stroke.drawn := by
  rw [arrows, edges, edgeShapes, List.map_filterMap, List.map_map, List.map_filterMap]
  refine congrFun (congrArg _ (funext fun source => ?_)) _
  cases source with
  | literal v => rfl
  | node source path =>
    by_cases hsource : source = []
    · simp [DataSource.shape?, hsource]
    · by_cases hpath : path = [] <;>
        simp [DataSource.shape?, hsource, hpath, stroke, Stroke.drawn, Stroke.text, Shape.text,
          Shape.role, Scope.indent, arrow]

theorem closing_eq_stroke (scope id : Text) :
    closing scope id = (stroke scope id .ending).drawn := rfl

end Node

theorem Stroke.map_drawn_inside (id : Text) (ss : List Stroke) :
    (ss.map (inside id)).map drawn = (ss.map drawn).map (DrawnLine.inside id) := by
  rw [List.map_map, List.map_map]
  rfl

mutual

/-- **The strokes of a graph are the lines of its outline**, drawn by the same nodes. -/
theorem Graph.outline_eq_strokes (scope : Text) :
    ∀ g : Graph, g.outline scope = (g.strokes scope).map Stroke.drawn
  | .mk nodes _ => by
    rw [Graph.outline, Graph.strokes]
    exact nodesOutline_eq_strokes scope nodes

theorem nodesOutline_eq_strokes (scope : Text) : ∀ ns : List (Text × Node),
    nodesOutline scope ns = (nodesStrokes scope ns).map Stroke.drawn
  | [] => rfl
  | (id, node) :: rest => by
    rw [nodesOutline, nodesStrokes, List.map_append, Node.outline_eq_strokes scope id node,
      nodesOutline_eq_strokes scope rest]

theorem Node.outline_eq_strokes (scope id : Text) :
    ∀ n : Node, n.outline scope id = (n.strokes scope id).map Stroke.drawn
  | .mk agent inputs update graph extra => by
    by_cases hk : (Node.mk agent inputs update graph extra).kind = .nested
    · rw [Node.outline_of_nested hk, Node.strokes_of_nested hk, Node.arrows_eq_strokes,
        Node.heading_eq_stroke, Node.closing_eq_stroke, Node.embedding,
        Embedding.outline_eq_strokes _ graph, ← Stroke.map_drawn_inside]
      simp only [List.map_append, List.map_cons, List.map_nil]
    · rw [Node.outline_of_not_nested hk, Node.strokes_of_not_nested hk, Node.arrows_eq_strokes,
        Node.heading_eq_stroke, List.map_cons, List.map_cons, List.singleton_append]

theorem Embedding.outline_eq_strokes (scope : Text) :
    ∀ e : Embedding, e.outline scope = (e.strokes scope).map Stroke.drawn
  | .graph g => by
    rw [Embedding.outline, Embedding.strokes]
    exact Graph.outline_eq_strokes scope g
  | .absent => rfl
  | .reference _ => rfl
  | .unusable => rfl

end

/-- The lines of a fragment are the texts of the strokes. -/
theorem Graph.lines_eq_strokes (g : Graph) (scope : Text) :
    (g.fragment scope).lines = (g.strokes scope).map Stroke.text := by
  rw [g.lines_fragment, g.outline_eq_strokes, List.map_map]
  rfl

/-! ## The strokes of one node -/

/-- The shapes that a node draws itself. -/
def Node.ownShapes (scope id : Text) (n : Node) : List Shape :=
  n.shape scope id :: n.edgeShapes scope id ++ if n.kind = .nested then [.ending] else []

section

variable {scope : Text} {s : Stroke}

theorem mem_nodesStrokes {ns : List (Text × Node)} :
    s ∈ nodesStrokes scope ns ↔ ∃ n ∈ ns, s ∈ n.2.strokes scope n.1 := by
  induction ns with
  | nil => simp [nodesStrokes]
  | cons n ns ih =>
    obtain ⟨id, node⟩ := n
    simp [nodesStrokes, ih]

theorem Graph.mem_strokes {g : Graph} :
    s ∈ g.strokes scope ↔ ∃ n ∈ g.nodes, s ∈ n.2.strokes scope n.1 := by
  cases g
  rw [strokes, nodes]
  exact mem_nodesStrokes

theorem Embedding.mem_strokes {e : Embedding} :
    s ∈ e.strokes scope ↔ ∃ g, e.graph? = some g ∧ s ∈ g.strokes scope := by
  cases e <;> simp [strokes, graph?]

/-- The strokes of a node are its own and those of the graph inside it. -/
theorem Node.mem_strokes {n : Node} {id : Text} :
    s ∈ n.strokes scope id ↔ s ∈ (n.ownShapes scope id).map (stroke scope id) ∨
      ∃ g, n.embedding.graph? = some g ∧
        ∃ inner ∈ g.strokes (Scope.child (Scope.qualify scope id)), inner.inside id = s := by
  have hinner : s ∈ (n.embedding.strokes (Scope.child (Scope.qualify scope id))).map
      (Stroke.inside id) ↔ ∃ g, n.embedding.graph? = some g ∧
        ∃ inner ∈ g.strokes (Scope.child (Scope.qualify scope id)), inner.inside id = s := by
    simp only [List.mem_map, Embedding.mem_strokes]
    exact ⟨fun ⟨inner, ⟨g, hg, hinner⟩, heq⟩ => ⟨g, hg, inner, hinner, heq⟩,
      fun ⟨g, hg, inner, hinner, heq⟩ => ⟨inner, ⟨g, hg, hinner⟩, heq⟩⟩
  rw [← hinner]
  by_cases hk : n.kind = .nested
  · rw [strokes_of_nested hk, ownShapes, if_pos hk]
    simp only [List.map_append, List.map_cons, List.map_nil, List.mem_append, List.mem_cons,
      List.not_mem_nil, or_false]
    exact iff_of_eq (by ac_rfl)
  · rw [strokes_of_not_nested hk, ownShapes, if_neg hk, embedding_of_not_nested hk]
    simp [Embedding.strokes]

theorem Graph.path_ne_nil_of_mem_strokes {g : Graph} (h : s ∈ g.strokes scope) : s.path ≠ [] := by
  obtain ⟨⟨id, n⟩, -, hs⟩ := mem_strokes.1 h
  rcases Node.mem_strokes.1 hs with hown | ⟨inner, -, s', -, rfl⟩
  · obtain ⟨shape, -, rfl⟩ := List.mem_map.1 hown
    exact List.cons_ne_nil _ _
  · exact List.cons_ne_nil _ _

end

/-! ## Moving into a scope -/

namespace Scope

/-- A scope that is the outermost one or ends with the separator. -/
def IsClosed (scope : Text) : Prop := scope = [] ∨ ∃ outer, scope = child outer

theorem isClosed_child (outer : Text) : IsClosed (child outer) := .inr ⟨outer, rfl⟩

/-- What follows a closed scope lies deeper by its own depth. -/
theorem IsClosed.depth_append {scope : Text} (h : IsClosed scope) (t : Text) :
    depth (scope ++ t) = depth scope + depth t := by
  obtain rfl | ⟨outer, rfl⟩ := h
  · rw [List.nil_append, depth_nil, Nat.zero_add]
  · rw [Scope.depth_append, depth_child_nil]

end Scope

theorem Stroke.within_within {outer : Text} (h : Scope.IsClosed outer) (inner : Text)
    (s : Stroke) : (s.within inner).within outer = s.within (outer ++ inner) := by
  rw [within, within, within, Shape.within_within, h.depth_append, Nat.add_assoc,
    Nat.add_comm (Scope.depth inner)]

namespace Node

theorem stroke_within (scope id : Text) (shape : Shape) :
    stroke scope id (shape.within scope) = (stroke [] id shape).within scope := by
  simp [stroke, Stroke.within, Scope.depth_nil, Nat.add_comm]

theorem shape_within (n : Node) (scope id : Text) :
    n.shape scope id = (n.shape [] id).within scope := by
  rw [shape, shape]
  cases n.kind <;> rfl

theorem edgeShapes_within (n : Node) (scope id : Text) :
    n.edgeShapes scope id = (n.edgeShapes [] id).map (Shape.within scope) := by
  rw [edgeShapes, edgeShapes, List.map_filterMap]
  refine congrFun (congrArg _ (funext fun source => ?_)) _
  cases source with
  | literal v => rfl
  | node source path => cases source <;> rfl

/-- The strokes that a node draws itself. -/
theorem map_stroke_within (scope id : Text) (shapes : List Shape) :
    (shapes.map (Shape.within scope)).map (stroke scope id)
      = (shapes.map (stroke [] id)).map (Stroke.within scope) := by
  rw [List.map_map, List.map_map]
  exact List.map_congr_left fun shape _ => stroke_within scope id shape

end Node

mutual

/-- **The strokes of a graph in a scope** are those of the graph alone, moved there. -/
theorem Graph.strokes_within : ∀ (g : Graph) {scope : Text}, Scope.IsClosed scope →
    g.strokes scope = (g.strokes []).map (Stroke.within scope)
  | .mk nodes _, scope, h => by
    rw [Graph.strokes, Graph.strokes]
    exact nodesStrokes_within nodes h

theorem nodesStrokes_within : ∀ (ns : List (Text × Node)) {scope : Text}, Scope.IsClosed scope →
    nodesStrokes scope ns = (nodesStrokes [] ns).map (Stroke.within scope)
  | [], _, _ => rfl
  | (id, node) :: rest, scope, h => by
    rw [nodesStrokes, nodesStrokes, List.map_append, Node.strokes_within node id h,
      nodesStrokes_within rest h]

theorem Node.strokes_within : ∀ (n : Node) (id : Text) {scope : Text}, Scope.IsClosed scope →
    n.strokes scope id = (n.strokes [] id).map (Stroke.within scope)
  | .mk agent inputs update graph extra, id, scope, h => by
    by_cases hk : (Node.mk agent inputs update graph extra).kind = .nested
    · have hscope := Scope.isClosed_child (Scope.qualify scope id)
      have hid := Scope.isClosed_child (Scope.qualify [] id)
      -- moving into the scope inside the node is moving into the node, and then into its scope
      have hinner : (graph.strokes (Scope.child (Scope.qualify scope id))).map (Stroke.inside id)
          = ((graph.strokes (Scope.child (Scope.qualify [] id))).map (Stroke.inside id)).map
              (Stroke.within scope) := by
        rw [Embedding.strokes_within graph hscope, Embedding.strokes_within graph hid]
        simp [Stroke.within_inside, Stroke.within_within h, Scope.child, Scope.qualify]
      have hown (shapes : List Shape) (shape : Shape) : shapes.map (Shape.within scope)
          ++ [shape.within scope] = (shapes ++ [shape]).map (Shape.within scope) := by
        rw [List.map_append, List.map_singleton]
      have hend : Node.stroke scope id .ending = (Node.stroke [] id .ending).within scope :=
        Node.stroke_within scope id .ending
      rw [Node.strokes_of_nested hk, Node.strokes_of_nested hk, Node.shape_within,
        Node.edgeShapes_within, Node.embedding, hinner, hown, hend, Node.map_stroke_within]
      simp only [List.map_append, List.map_cons, List.map_nil]
    · rw [Node.strokes_of_not_nested hk, Node.strokes_of_not_nested hk, Node.shape_within,
        Node.edgeShapes_within, ← List.map_cons, Node.map_stroke_within]

theorem Embedding.strokes_within : ∀ (e : Embedding) {scope : Text}, Scope.IsClosed scope →
    e.strokes scope = (e.strokes []).map (Stroke.within scope)
  | .graph g, scope, h => by
    rw [Embedding.strokes, Embedding.strokes]
    exact Graph.strokes_within g h
  | .absent, _, _ => rfl
  | .reference _, _, _ => rfl
  | .unusable, _, _ => rfl

end

theorem Graph.idsOf_drawn_within (g : Graph) (scope : Text) (kind : NodeKind) :
    idsOf kind (Place.drawn scope g.places)
      = (idsOf kind (Place.drawn [] g.places)).map (Scope.qualify scope) := by
  rw [idsOf, idsOf, Place.drawn, Place.drawn, List.filter_map, List.filter_map, List.map_map,
    List.map_map, List.map_map]
  rfl

/-- **The fragment of a graph in a scope** is that of the graph alone, moved there. The lines are
drawn by the same strokes, each with the text of the scope in front of every id of a node and with
as many more blanks as the scope is deep, and the ids in the groups have that text in front. -/
theorem fragment_in_scope (g : Graph) {scope : Text} (h : Scope.IsClosed scope) :
    (g.fragment []).lines = (g.strokes []).map Stroke.text ∧
      (g.fragment scope).lines
        = ((g.strokes []).map (Stroke.within scope)).map Stroke.text ∧
      (g.fragment scope).static = (g.fragment []).static.map (Scope.qualify scope) ∧
      (g.fragment scope).computed = (g.fragment []).computed.map (Scope.qualify scope) ∧
      (g.fragment scope).nested = (g.fragment []).nested.map (Scope.qualify scope) := by
  have hgroups := g.groups_places scope
  have halone := g.groups_places []
  refine ⟨g.lines_eq_strokes [], ?_, ?_, ?_, ?_⟩
  · rw [g.lines_eq_strokes, g.strokes_within h]
  · rw [hgroups.static_eq, halone.static_eq, g.idsOf_drawn_within]
  · rw [hgroups.computed_eq, halone.computed_eq, g.idsOf_drawn_within]
  · rw [hgroups.nested_eq, halone.nested_eq, g.idsOf_drawn_within]

theorem feedingDocument_in_scope : Scope.IsClosed (Text.ofString "s..t.") ∧
    ((Graph.ofValue feedingDocument).fragment (Text.ofString "s..t.")).lines
      = [Text.ofString "   subgraph s..t.a[a: <span class=\"agent-name\"></span>]",
        Text.ofString "    s..t.a.b(b<br/><span class=\"agent-name\"></span>)",
        Text.ofString "    s..t.a.x -- y(.)z.w --> s..t.a.b",
        Text.ofString "    s..t.a.p --> s..t.a.b", Text.ofString "    s..t.a.q -- r --> s..t.a.b",
        Text.ofString "   end"] ∧
    ((Graph.ofValue feedingDocument).fragment (Text.ofString "s..t.")).computed
      = [Text.ofString "s..t.a.b"] := by
  have hscope : Scope.IsClosed (Text.ofString "s..t.") := .inr ⟨"s..t", by decide⟩
  obtain ⟨-, hlines, -, hcomputed, -⟩ := fragment_in_scope (Graph.ofValue feedingDocument) hscope
  exact ⟨hscope, hlines.trans (by decide +kernel), hcomputed.trans (by decide +kernel)⟩

end AgentFlow
