import AgentFlow.Proofs.Graph.Identity
import AgentFlow.Proofs.Value.Printable

/-!
# What a flowchart shows of a document

A flowchart shows the ids of nodes, the agents that are texts and the references as they are, and
everything else as a value inside another. All else in its lines is printable: what printable code
points are like, all points of the lines are like just if all points of these texts are.

* `Graph.everyNode`: the nodes of a graph and of the graphs embedded in it.
* `Graph.places_eq_map`: they are at the places of the graph.
* `Node.ownTexts`: the texts of a node that a flowchart shows as they are.
* `Fragment.all_lines`: its class lines have no other points than its ids.
* `Graph.all_fragment`: what all points of a fragment are like.
-/

namespace AgentFlow

/-! ## Every node -/

mutual

/-- The nodes of a graph and of the graphs embedded in it, each before those inside it, under the
ids from the outermost graph down to them. -/
def Graph.everyNode : Graph → List (List Text × Node)
  | .mk nodes _ => everyNodeOf nodes

/-- `Graph.everyNode` for nodes one after the other. -/
def everyNodeOf : List (Text × Node) → List (List Text × Node)
  | [] => []
  | (id, node) :: rest => Node.everyNode id node ++ everyNodeOf rest

/-- A node and the nodes inside it. -/
def Node.everyNode (id : Text) : Node → List (List Text × Node)
  | .mk agent inputs update graph extra =>
    ([id], .mk agent inputs update graph extra)
      :: (Embedding.everyNode graph).map fun m => (id :: m.1, m.2)

/-- `Graph.everyNode` for what a node embeds. -/
def Embedding.everyNode : Embedding → List (List Text × Node)
  | .graph g => Graph.everyNode g
  | .absent => []
  | .reference _ => []
  | .unusable => []

end

theorem Node.everyNode_eq (n : Node) (id : Text) :
    n.everyNode id = ([id], n) :: n.embedding.everyNode.map fun m => (id :: m.1, m.2) := by
  cases n
  rw [everyNode, embedding]

/-- What is not nested has no nodes inside it. -/
theorem Node.everyNode_embedding {n : Node} (h : n.kind ≠ .nested) :
    n.embedding.everyNode = [] := by
  rw [embedding_of_not_nested h]
  rfl

mutual

/-- The nodes of a graph are at its places. -/
theorem Graph.places_eq_map : ∀ g : Graph, g.places = g.everyNode.map fun m => ⟨m.1, m.2.kind⟩
  | .mk nodes _ => by
    rw [Graph.places, Graph.everyNode]
    exact nodesPlaces_eq_map nodes

theorem nodesPlaces_eq_map : ∀ ns : List (Text × Node),
    nodesPlaces ns = (everyNodeOf ns).map fun m => ⟨m.1, m.2.kind⟩
  | [] => rfl
  | (id, node) :: rest => by
    rw [nodesPlaces, everyNodeOf, List.map_append, Node.places_eq_map id node,
      nodesPlaces_eq_map rest]

theorem Node.places_eq_map (id : Text) :
    ∀ n : Node, n.places id = (n.everyNode id).map fun m => ⟨m.1, m.2.kind⟩
  | .mk _ _ _ graph _ => by
    rw [Node.places, Node.everyNode, List.map_cons, Embedding.places_eq_map graph, List.map_map,
      List.map_map]
    rfl

theorem Embedding.places_eq_map :
    ∀ e : Embedding, e.places = e.everyNode.map fun m => ⟨m.1, m.2.kind⟩
  | .graph g => by
    rw [Embedding.places, Embedding.everyNode]
    exact Graph.places_eq_map g
  | .absent => rfl
  | .reference _ => rfl
  | .unusable => rfl

end

/-! ## Texts -/

/-- The texts that an edge shows of its source; a source without an id draws none. -/
def DataSource.drawnTexts : DataSource → List Text
  | .literal _ => []
  | .node id path => if id = [] then [] else id :: path

/-- The texts of a node, besides its id, that a flowchart shows as they are: its agent, if that is a
text, and its references. -/
def Node.ownTexts (n : Node) : List Text :=
  (n.agent?.bind Value.text?).toList
    ++ (DataSource.inside n.dependencies).flatMap DataSource.drawnTexts

/-- A static node has no agent. -/
theorem Node.agent?_of_static {n : Node} (h : n.kind = .static) : n.agent? = none := by
  rw [Node.kind] at h
  split at h
  · cases h
  · split at h
    · cases h
    case isFalse hagent => exact Option.not_isSome_iff_eq_none.1 hagent

/-- Whether all points of the lines of a fragment and of the ids in its groups are as `f` says. -/
def Fragment.allPoints (f : CodePoint → Bool) (fragment : Fragment) : Bool :=
  fragment.lines.all (List.all · f) && fragment.static.all (List.all · f)
    && fragment.computed.all (List.all · f) && fragment.nested.all (List.all · f)

theorem Fragment.allPoints_append (f : CodePoint → Bool) (a b : Fragment) :
    (a ++ b).allPoints f = (a.allPoints f && b.allPoints f) := by
  simp only [allPoints, lines_append, static_append, computed_append, nested_append,
    List.all_append]
  ac_rfl

/-- Whether all points of the ids down to a node and of its texts are as `f` says. -/
def allPointsAt (f : CodePoint → Bool) (m : List Text × Node) : Bool :=
  m.1.all (List.all · f) && m.2.ownTexts.all (List.all · f)

/-- The texts of a node and of the nodes inside it, if the points of its id are as `f` says. -/
theorem Node.all_everyNode {f : CodePoint → Bool} {id : Text} (h : id.all f = true) (n : Node) :
    (n.everyNode id).all (allPointsAt f)
      = (n.ownTexts.all (List.all · f) && n.embedding.everyNode.all (allPointsAt f)) := by
  have hinner (m : List Text × Node) :
      allPointsAt f (id :: m.1, m.2) = allPointsAt f m := by
    rw [allPointsAt, List.all_cons, h, Bool.true_and, allPointsAt]
  rw [everyNode_eq, List.all_cons, List.all_map, allPointsAt, List.all_cons, h]
  simp only [Function.comp_def, hinner]
  rfl

section

variable {f : CodePoint → Bool} (hf : ∀ p, p.isPrintable = true → f p = true)

include hf

/-- A text that a flowchart writes by itself, in printable characters. -/
theorem all_ofString {s : String} (h : (Text.ofString s).isPrintable = true) :
    (Text.ofString s).all f = true :=
  List.all_eq_true.2 fun p hp => hf p (List.all_eq_true.1 h p hp)

theorem all_indent (scope : Text) : (Scope.indent scope).all f = true :=
  List.all_eq_true.2 fun p hp => by
    rw [(List.mem_replicate.1 hp).2]
    exact hf _ (by decide)

theorem all_agentLabel (agent : Value) :
    (agentLabel agent).all f = agent.text?.all fun t => t.all f := by
  have hopening := all_ofString hf (s := "<span class=\"agent-name\">") (by decide)
  have hclosing := all_ofString hf (s := "</span>") (by decide)
  cases agent <;>
    simp [agentLabel, Value.text?, hopening, hclosing, -List.all_eq_true, Value.all_shown hf]

/-- The points of the lines of a fragment, with those of its groups, are those of the fragment. -/
theorem Fragment.all_lines (fragment : Fragment) :
    (fragment.lines ++ fragment.classLines).all (List.all · f) = fragment.allPoints f := by
  have hclassLine (ids : List Text) {s : String} (hs : (Text.ofString s).isPrintable = true) :
      (classLine ids s).all (List.all · f) = ids.all (List.all · f) := by
    have hcomma := all_ofString hf (s := ",") (by decide)
    cases ids <;>
      simp (disch := decide) [classLine, all_ofString hf hs, all_ofString hf, Text.all_join hcomma,
        -List.all_eq_true]
  simp (disch := decide) only [classLines, allPoints, List.all_append, hclassLine, Bool.and_assoc]

/-- The points of edges are those of their references. -/
theorem all_edges (dependencies : Value) {target scope : Text} (htarget : target.all f = true)
    (hscope : scope.all f = true) : (edges dependencies target scope).all (List.all · f)
      = ((DataSource.inside dependencies).flatMap DataSource.drawnTexts).all (List.all · f) := by
  have hplain := all_ofString hf (s := " --> ") (by decide)
  have hopening := all_ofString hf (s := " -- ") (by decide)
  have hdot := all_ofString hf (s := ".") (by decide)
  rw [edges, List.all_filterMap, List.all_flatMap]
  refine congrArg (List.all _) (funext fun source => ?_)
  cases source with
  | literal v => rfl
  | node id path =>
    rw [DataSource.drawnTexts]
    by_cases hid : id = []
    · simp [hid]
    · by_cases hpath : path = [] <;>
        simp [hid, hpath, hscope, htarget, all_indent hf, Scope.qualify, hplain, hopening,
          Text.all_join hdot, -List.all_eq_true]

end

mutual

/-- **The points of a fragment** are those of the ids and texts of its nodes, and printable ones. -/
theorem Graph.all_fragment {f : CodePoint → Bool}
    (hf : ∀ p, p.isPrintable = true → f p = true) {scope : Text} (hscope : scope.all f = true) :
    ∀ g : Graph, (g.fragment scope).allPoints f = g.everyNode.all (allPointsAt f)
  | .mk nodes _ => by
    rw [Graph.fragment, Graph.everyNode]
    exact nodes_all_fragment hf hscope nodes

theorem nodes_all_fragment {f : CodePoint → Bool}
    (hf : ∀ p, p.isPrintable = true → f p = true) {scope : Text} (hscope : scope.all f = true) :
    ∀ ns : List (Text × Node),
      (nodesFragment scope ns).allPoints f = (everyNodeOf ns).all (allPointsAt f)
  | [] => rfl
  | (id, node) :: rest => by
    rw [nodesFragment, everyNodeOf, Fragment.allPoints_append, List.all_append,
      Node.all_fragment hf hscope id node, nodes_all_fragment hf hscope rest]

theorem Node.all_fragment {f : CodePoint → Bool}
    (hf : ∀ p, p.isPrintable = true → f p = true) {scope : Text} (hscope : scope.all f = true)
    (id : Text) :
    ∀ n : Node, (n.fragment scope id).allPoints f = (n.everyNode id).all (allPointsAt f)
  | .mk agent inputs update graph extra => by
    have hqualified : (Scope.qualify scope id).all f = id.all f := by
      rw [Scope.qualify, List.all_append, hscope, Bool.true_and]
    have hlabel : (agentLabel (agent.getD .null)).all f
        = (agent.bind Value.text?).toList.all fun t => t.all f := by
      rw [all_agentLabel hf]
      cases agent with
      | none => rfl
      | some v => cases v <;> simp [Value.text?]
    have hleaf (hk : (Node.mk agent inputs update graph extra).kind ≠ .nested) :
        graph.everyNode = [] := Node.everyNode_embedding hk
    rw [Node.fragment]
    cases hid : id.all f with
    | false =>
      -- the id of a node is in one of the groups
      rw [hid] at hqualified
      have hnode : allPointsAt f ([id], .mk agent inputs update graph extra) = false := by
        simp [allPointsAt, hid]
      rw [Node.everyNode, List.all_cons, hnode]
      split <;> simp [Fragment.allPoints, hqualified]
    | true =>
      rw [hid] at hqualified
      have hchild : (Scope.child (Scope.qualify scope id)).all f = true := by
        rw [Scope.child, List.all_append, hqualified]
        exact all_ofString hf (s := ".") (by decide)
      -- a node that is not nested draws nothing of what it embeds, and a static one no agent
      have harrows := all_edges hf (Node.mk agent inputs update graph extra).dependencies
        hqualified hscope
      rw [Node.all_everyNode hid, Node.ownTexts, List.all_append, Node.embedding, Node.agent?,
        ← harrows]
      split
      case h_1 =>
        rw [Fragment.allPoints_append, Fragment.allPoints_append,
          Embedding.all_fragment hf hchild graph, ← hlabel]
        simp (disch := decide) [Fragment.allPoints, hqualified, hid, all_indent hf,
          all_ofString hf, Bool.and_comm, -List.all_eq_true]
      case h_2 hkind =>
        rw [← hlabel, hleaf (by simp [hkind])]
        simp (disch := decide) [Fragment.allPoints, hqualified, hid, all_indent hf,
          all_ofString hf, -List.all_eq_true]
      case h_3 hkind =>
        have hagent : agent = none := Node.agent?_of_static hkind
        rw [hagent, hleaf (by simp [hkind])]
        simp (disch := decide) [Fragment.allPoints, hqualified, hid, all_indent hf,
          all_ofString hf, -List.all_eq_true]

theorem Embedding.all_fragment {f : CodePoint → Bool}
    (hf : ∀ p, p.isPrintable = true → f p = true) {scope : Text} (hscope : scope.all f = true) :
    ∀ e : Embedding, (e.fragment scope).allPoints f = e.everyNode.all (allPointsAt f)
  | .graph g => by
    rw [Embedding.fragment, Embedding.everyNode]
    exact Graph.all_fragment hf hscope g
  | .absent => rfl
  | .reference _ => rfl
  | .unusable => rfl

end

end AgentFlow
