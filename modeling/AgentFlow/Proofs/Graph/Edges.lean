import AgentFlow.Proofs.Graph.Outline
import AgentFlow.Proofs.Graph.Reference

/-!
# Edges are references

The edges that a node draws are the references of one value of its document, one edge each and in
the order of the references. This holds at every depth; an edge comes from a node of the graph that
the node itself belongs to.

* `rawNodeIn?`: the nodes of a document. `nodeIn?_ofValue`: its graph has the nodes that it writes.
* `rawExpression`: the value that a node depends on.
* `edgeTo?`: the edge that a reference draws.
* `edges_are_references`: the edges of every node, and of no other.
-/

namespace AgentFlow

/-! ## Nodes of a document -/

/-- The raw node of an id in the graph of some entries, inside of nested nodes. -/
def rawNodeIn? (es : Entries) (above : List Text) (id : Text) : Option Value :=
  match above with
  | [] => (rawNodes (nodeEntries es)).lookup id
  | outer :: above =>
    ((rawNodes (nodeEntries es)).lookup outer).bind fun node =>
      (node.entries?.bind embeddedEntries?).bind fun inner => rawNodeIn? inner above id

theorem lookup_map_ofValue (ns : List (Text × Value)) (id : Text) :
    (ns.map fun n => (n.1, Node.ofValue n.2)).lookup id = (ns.lookup id).map Node.ofValue := by
  induction ns with
  | nil => rfl
  | cons n ns ih =>
    rw [List.map_cons, List.lookup_cons, List.lookup_cons, ih]
    cases id == n.1 <;> rfl

theorem graph?_embedding_ofValue (node : Value) :
    (Node.ofValue node).embedding.graph?
      = (node.entries?.bind embeddedEntries?).map fun es => Graph.ofValue (.map es) := by
  cases hes : node.entries? with
  | none =>
    rw [Node.ofValue_of_none hes]
    rfl
  | some es =>
    rw [Node.ofValue_eq hes, Node.embedding, graph?_embeddingIn, Option.bind_some]

/-- The graph of a document has the nodes that the document writes. -/
theorem nodeIn?_ofValue (es : Entries) (above : List Text) (id : Text) :
    (Graph.ofValue (.map es)).nodeIn? above id = (rawNodeIn? es above id).map Node.ofValue := by
  induction above generalizing es with
  | nil =>
    rw [Graph.nodeIn?, rawNodeIn?, Graph.ofValue_eq rfl, Graph.nodes, nodesIn_eq_map,
      lookup_map_ofValue]
  | cons outer above ih =>
    rw [Graph.nodeIn?, rawNodeIn?, Graph.ofValue_eq rfl, Graph.nodes, nodesIn_eq_map,
      lookup_map_ofValue]
    cases (rawNodes (nodeEntries es)).lookup outer with
    | none => rfl
    | some node =>
      rw [Option.map_some, Option.bind_some, Option.bind_some, graph?_embedding_ofValue]
      cases node.entries?.bind embeddedEntries? with
      | none => rfl
      | some inner => exact ih inner

/-! ## What a node depends on -/

/-- The value whose references a raw node depends on: of a node with a graph that is a text this
text, of any other node with a graph or an agent its inputs, and else its update. A value that is
missing is null, which has no references. -/
def rawExpression (node : Value) : Value :=
  let es := node.entries?.getD []
  match es.field? "graph", es.field? "agent" with
  | some (.str name), _ => .str name
  | some _, _ => (es.field? "inputs").getD .null
  | none, some _ => (es.field? "inputs").getD .null
  | none, none => (es.field? "update").getD .null

theorem inside_map_singleton (k v : Value) :
    DataSource.inside (.map [(k, v)]) = DataSource.inside v := by
  rw [DataSource.inside, DataSource.insideEntries, DataSource.insideEntries, List.append_nil]

/-- The dependencies of a node hold what the value that it depends on holds. -/
theorem inside_dependencies (node : Value) :
    DataSource.inside (Node.ofValue node).dependencies
      = DataSource.inside (rawExpression node) := by
  cases hes : node.entries? with
  | none =>
    rw [Node.ofValue_of_none hes, rawExpression, hes]
    rfl
  | some es =>
    rw [Node.ofValue_eq hes, embeddingIn_eq, rawExpression, hes, Option.getD_some]
    cases hgraph : es.field? "graph" with
    | some v => cases v <;> rfl
    | none =>
      cases hagent : es.field? "agent" with
      | some agent => rfl
      | none =>
        cases hupdate : es.field? "update" with
        | none => rfl
        | some u => exact inside_map_singleton _ u

/-! ## Edges -/

/-- The arrow of an edge, with its label if it has one. -/
def arrow : Option Text → Text
  | none => " --> "
  | some label => " -- " ++ label ++ " --> "

/-- The edge to a target that a reference draws in a scope. It comes from the node that the
reference names, and what follows the first cut is its label; a reference that names no node draws
none. -/
def edgeTo? (scope target reference : Text) : Option Text :=
  (DataSource.nodeOf? reference).bind fun id =>
    if id = [] then none
    else some (Scope.indent scope ++ scope ++ id ++ arrow (DataSource.labelOf? reference) ++ target)

/-- The edges of a value are those of its references. -/
theorem edges_eq_of_refers {v : Value} {references : List Text} (h : v.Refers references)
    (target scope : Text) : edges v target scope = references.filterMap (edgeTo? scope target) := by
  rw [edges, h.filterMap_inside fun _ => rfl]
  refine congrFun (congrArg _ (funext fun reference => ?_)) _
  cases hnode : DataSource.nodeOf? reference with
  | none => rw [DataSource.ofValue_of_nodeOf?_eq_none hnode, edgeTo?, hnode, Option.bind_none]
  | some id =>
    obtain ⟨path, hsource, hpath, hlabel⟩ := DataSource.exists_ofValue_of_nodeOf? hnode
    rw [hsource, edgeTo?, hnode, Option.bind_some]
    by_cases hid : id = []
    · simp [hid]
    · cases hlabelOf : DataSource.labelOf? reference with
      | none =>
        rw [hpath.2 hlabelOf]
        simp [hid, arrow, Scope.qualify]
      | some label =>
        have hne : path ≠ [] := fun hnil => by simp [hpath.1 hnil] at hlabelOf
        simp [hid, hne, arrow, Scope.qualify, hlabel label hlabelOf]

/-- A value that is no mapping describes the same graph as one without entries. -/
theorem Graph.ofValue_eq_ofEntries (v : Value) :
    Graph.ofValue v = Graph.ofValue (.map (v.entries?.getD [])) := by
  cases hv : v.entries? with
  | none =>
    rw [Graph.ofValue_of_none hv]
    rfl
  | some es => rw [Graph.ofValue_eq hv, Graph.ofValue_eq rfl, Option.getD_some]

/-- **Edges are references.** The lines of a document's fragment are those of its outline, and each
of these is drawn by a node that the document writes. Such a node, at any depth, has one row of
references, and the edges that it draws are those of its references in order, from the scope that
the node is in to the node itself. -/
theorem edges_are_references {v : Value} {g : Graph} (h : Graph.check v = .ok g) (scope : Text) :
    (g.fragment scope).lines = (g.outline scope).map DrawnLine.text ∧
      (∀ l ∈ g.outline scope, ∃ above id,
        l.path = above ++ [id] ∧ (rawNodeIn? (v.entries?.getD []) above id).isSome) ∧
      ∀ above id node, rawNodeIn? (v.entries?.getD []) above id = some node →
        ∃ references, (∀ rs, (rawExpression node).Refers rs ↔ rs = references) ∧
          linesOf (above ++ [id]) .edge (g.outline scope)
            = references.filterMap (edgeTo? (Scope.within scope above)
                (Scope.qualify (Scope.within scope above) id)) := by
  obtain rfl := (Graph.check_eq_ok_iff.1 h).2
  have hdistinct := idsDistinct_ofValue v
  have hnode (above : List Text) (id : Text) : (Graph.ofValue v).nodeIn? above id
      = (rawNodeIn? (v.entries?.getD []) above id).map Node.ofValue := by
    rw [Graph.ofValue_eq_ofEntries]
    exact nodeIn?_ofValue _ above id
  refine ⟨Graph.lines_fragment scope _, fun l hl => ?_, fun above id node hraw => ?_⟩
  · obtain ⟨above, id, n, hpath, hn⟩ := Graph.exists_nodeIn? hdistinct hl
    refine ⟨above, id, hpath, ?_⟩
    rw [← Option.isSome_map, ← hnode, hn, Option.isSome_some]
  · obtain ⟨references, hreferences⟩ := Value.Refers.exists_refers (rawExpression node)
    refine ⟨references,
      fun rs => ⟨fun hrs => hrs.unique hreferences, fun heq => heq ▸ hreferences⟩, ?_⟩
    have hn : (Graph.ofValue v).nodeIn? above id = some (Node.ofValue node) := by
      rw [hnode, hraw, Option.map_some]
    have hedges : edges (Node.ofValue node).dependencies = edges (rawExpression node) := by
      unfold edges
      rw [inside_dependencies]
    rw [Graph.linesOf_outline hdistinct hn, Node.linesOf_edge_outline, hedges,
      edges_eq_of_refers hreferences]

/-- A node with inputs inside of a node. -/
def feedingDocument : Value :=
  .map [(.str "nodes", .map [(.str "a", .map [(.str "graph", .map [(.str "nodes", .map [(.str "b",
    .map [(.str "agent", .null), (.str "inputs",
      .list [.str ":x.y(.)z.w", .map [(.str "k", .str "$\x7b:p\x7d.$\x7b:q.r\x7d")]])])])])])])]

theorem edges_of_feedingDocument :
    Graph.check feedingDocument = .ok (Graph.ofValue feedingDocument) ∧
      linesOf ["a", "b"] .edge ((Graph.ofValue feedingDocument).outline [])
        = [Text.ofString "  a.x -- y(.)z.w --> a.b", Text.ofString "  a.p --> a.b",
          Text.ofString "  a.q -- r --> a.b"] := by
  have hcheck : Graph.check feedingDocument = .ok (Graph.ofValue feedingDocument) := rfl
  obtain ⟨references, hreferences, hlines⟩ :=
    (edges_are_references hcheck []).2.2 ["a"] "b" _ rfl
  have hfound : references = [":x.y(.)z.w", ":p", ":q.r"] := by
    refine ((hreferences _).1 ⟨[[":x.y(.)z.w"], [":p", ":q.r"]], ?_, rfl⟩).symm
    exact .cons (.whole (DataSource.scanned_templates _) rfl)
      (.cons (.templates (DataSource.scanned_templates _)) .nil)
  rw [hfound] at hlines
  exact ⟨hcheck, hlines.trans (by decide)⟩

end AgentFlow
