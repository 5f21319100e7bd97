import AgentFlow.Graph.Fragment
import AgentFlow.Proofs.Graph.Raw

/-!
# Every node has one class

A flowchart puts each node of a graph and of the graphs embedded in it into one of three groups.
Which one is read off the raw node alone: it is nested if it has a member `graph`, else computed if
it has an agent, else static.

* `Graph.placements`: the nodes of a raw document in document order, each before the nodes inside
  it, with their kinds.
* `kind_ofValue`: the kind that a node is given is that of the raw node.
* `groups_of_check`: the groups of a flowchart are the placements of each kind.
-/

namespace AgentFlow

/-- The kind of a raw node. What is no mapping is static, and what the node says about its own kind
does not count. -/
def rawKind (v : Value) : NodeKind :=
  match v.entries? with
  | none => .static
  | some es =>
    if es.hasName "graph" then .nested else if es.hasName "agent" then .computed else .static

mutual

/-- The nodes of a raw graph and of the graphs inside it, each before those that it holds, as
qualified ids with their kinds. Entries whose keys are shown alike make one node: the last of them,
at the place of the first. `no_node_lost_iff` says when there are none such. -/
def Graph.placements (scope : Text) : Value → List (Text × NodeKind)
  | .map es => placementsIn scope es
  | .orderedMap es => placementsIn scope es
  | _ => []

/-- The placements of the nodes under the first member `nodes` of a mapping. -/
def placementsIn (scope : Text) : List (Value × Value) → List (Text × NodeKind)
  | [] => []
  | (k, v) :: es =>
    if k.sameKey (.str "nodes") then nodesPlacements scope v else placementsIn scope es

/-- The placements of the nodes of a mapping from ids to nodes, those with keys that are shown alike
merged (`collapse`). -/
def nodesPlacements (scope : Text) : Value → List (Text × NodeKind)
  | .map es => (collapse (placementList scope es)).flatMap (·.2)
  | .orderedMap es => (collapse (placementList scope es)).flatMap (·.2)
  | _ => []

/-- The placements of entries one by one, under the texts of their keys. -/
def placementList (scope : Text) : List (Value × Value) → List (Text × List (Text × NodeKind))
  | [] => []
  | (k, v) :: es => (k.shown, Node.placements scope k.shown v) :: placementList scope es

/-- The placement of a node, and those of the nodes inside it. -/
def Node.placements (scope id : Text) : Value → List (Text × NodeKind)
  | .map es => (Scope.qualify scope id, rawKind (.map es))
      :: embeddedPlacements (Scope.child (Scope.qualify scope id)) es
  | .orderedMap es => (Scope.qualify scope id, rawKind (.orderedMap es))
      :: embeddedPlacements (Scope.child (Scope.qualify scope id)) es
  | v => [(Scope.qualify scope id, rawKind v)]

/-- The placements of the graph under the first member `graph` of a mapping. -/
def embeddedPlacements (scope : Text) : List (Value × Value) → List (Text × NodeKind)
  | [] => []
  | (k, v) :: es =>
    if k.sameKey (.str "graph") then Graph.placements scope v else embeddedPlacements scope es

end

theorem placementsIn_eq (scope : Text) (es : Entries) :
    placementsIn scope es = ((es.field? "nodes").map (nodesPlacements scope)).getD [] :=
  eq_field? (by rw [placementsIn]) (fun _ _ _ => by rw [placementsIn]) es

theorem embeddedPlacements_eq (scope : Text) (es : Entries) :
    embeddedPlacements scope es = ((es.field? "graph").map (Graph.placements scope)).getD [] :=
  eq_field? (by rw [embeddedPlacements]) (fun _ _ _ => by rw [embeddedPlacements]) es

theorem nodesPlacements_map (scope : Text) (es : Entries) :
    nodesPlacements scope (.map es)
      = (rawNodes es).flatMap fun n => Node.placements scope n.1 n.2 := by
  have hlist : placementList scope es = (es.map fun e => (e.1.shown, e.2)).map
      fun n => (n.1, Node.placements scope n.1 n.2) := by
    induction es with
    | nil => rfl
    | cons e es ih =>
      obtain ⟨k, v⟩ := e
      rw [placementList, ih]
      rfl
  rw [nodesPlacements, hlist, collapse_map fun id v => Node.placements scope id v,
    List.flatMap_map]
  rfl

/-! ## Kinds -/

theorem isDeclared_ofValue (v : Value) : (Embedding.ofValue v).isDeclared = true := by
  cases v <;> rfl

/-- **The kind that a node is given is that of the raw node.** -/
theorem kind_ofValue (v : Value) : (Node.ofValue v).kind = rawKind v := by
  have hentries (es : Entries) (extra : Entries) :
      (Node.mk (es.field? "agent") (es.field? "inputs") (es.field? "update") (embeddingIn es)
        extra).kind = rawKind (.map es) := by
    have hgraph : (embeddingIn es).isDeclared = es.hasName "graph" := by
      rw [embeddingIn_eq, Entries.hasName_eq]
      cases es.field? "graph" with
      | none => rfl
      | some v => exact isDeclared_ofValue v
    rw [Node.kind, Node.embedding, Node.agent?, hgraph, ← Entries.hasName_eq]
    rfl
  cases v with
  | map es => exact hentries es _
  | orderedMap es => exact hentries es _
  | _ => rfl

/-! ## Groups -/

/-- The ids that are placed in one kind, in order. -/
def idsOf (kind : NodeKind) (ps : List (Text × NodeKind)) : List Text :=
  (ps.filter fun p => p.2 = kind).map (·.1)

/-- A fragment whose groups are the placements of each kind. -/
structure Fragment.Groups (f : Fragment) (ps : List (Text × NodeKind)) : Prop where
  static_eq : f.static = idsOf .static ps
  computed_eq : f.computed = idsOf .computed ps
  nested_eq : f.nested = idsOf .nested ps

namespace Fragment

theorem groups_of_no_ids {f : Fragment} (hs : f.static = []) (hc : f.computed = [])
    (hn : f.nested = []) : f.Groups [] := ⟨hs, hc, hn⟩

theorem Groups.append {f f' : Fragment} {ps ps' : List (Text × NodeKind)} (h : f.Groups ps)
    (h' : f'.Groups ps') : (f ++ f').Groups (ps ++ ps') := by
  refine ⟨?_, ?_, ?_⟩ <;> unfold idsOf <;> rw [List.filter_append, List.map_append]
  · rw [static_append, h.static_eq, h'.static_eq, idsOf, idsOf]
  · rw [computed_append, h.computed_eq, h'.computed_eq, idsOf, idsOf]
  · rw [nested_append, h.nested_eq, h'.nested_eq, idsOf, idsOf]

end Fragment

/-- What is not nested has no nodes inside it. -/
theorem embeddedPlacements_of_not_nested {es : Entries} (h : rawKind (.map es) ≠ .nested)
    (scope : Text) : embeddedPlacements scope es = [] := by
  rw [embeddedPlacements_eq]
  cases hg : es.field? "graph" with
  | none => rfl
  | some v =>
    have hname : es.hasName "graph" = true := by rw [Entries.hasName_eq, hg, Option.isSome_some]
    exact absurd (by simp only [rawKind, Value.entries?, hname, if_true]) h

/-- A node draws itself, and what it embeds if it is nested. -/
theorem Node.groups_fragment {n : Node} {scope id : Text} {ps : List (Text × NodeKind)}
    (h : (n.embedding.fragment (Scope.child (Scope.qualify scope id))).Groups ps)
    (hps : n.kind ≠ .nested → ps = []) :
    (n.fragment scope id).Groups ((Scope.qualify scope id, n.kind) :: ps) := by
  obtain ⟨agent, inputs, update, graph, extra⟩ := n
  rw [Node.fragment]
  cases hk : (Node.mk agent inputs update graph extra).kind with
  | nested =>
    have hself (lines : List Text) : Fragment.Groups
        { lines := lines, nested := [Scope.qualify scope id] }
        [(Scope.qualify scope id, .nested)] := ⟨rfl, rfl, rfl⟩
    have hend (lines : List Text) : Fragment.Groups { lines := lines } [] :=
      Fragment.groups_of_no_ids rfl rfl rfl
    have hall (before after : List Text) := ((hself before).append h).append (hend after)
    simp only [List.append_nil] at hall
    exact hall _ _
  | computed =>
    rw [hps (by rw [hk]; decide)]
    exact ⟨rfl, rfl, rfl⟩
  | static =>
    rw [hps (by rw [hk]; decide)]
    exact ⟨rfl, rfl, rfl⟩

theorem groups_node {es : Entries} {scope id : Text}
    (h : (Embedding.fragment (Scope.child (Scope.qualify scope id)) (embeddingIn es)).Groups
      (embeddedPlacements (Scope.child (Scope.qualify scope id)) es)) :
    (Node.fragment scope id (Node.ofValue (.map es))).Groups
      (Node.placements scope id (.map es)) := by
  have hkind := kind_ofValue (.map es)
  rw [Node.placements, ← hkind]
  refine Node.groups_fragment (by rwa [Node.ofValue, Node.embedding]) fun hne => ?_
  exact embeddedPlacements_of_not_nested (hkind ▸ hne) _

/-- Nodes one after the other draw what each of them draws. -/
theorem groups_nodes {ns : List (Text × Value)} {scope : Text}
    (h : ∀ n ∈ ns, (Node.fragment scope n.1 (Node.ofValue n.2)).Groups
      (Node.placements scope n.1 n.2)) :
    (nodesFragment scope (ns.map fun n => (n.1, Node.ofValue n.2))).Groups
      (ns.flatMap fun n => Node.placements scope n.1 n.2) := by
  induction ns with
  | nil => exact Fragment.groups_of_no_ids rfl rfl rfl
  | cons n ns ih =>
    rw [List.map_cons, List.flatMap_cons, nodesFragment]
    exact (h n List.mem_cons_self).append (ih fun m hm => h m (List.mem_cons_of_mem _ hm))

/-- The groups of what a value describes are its placements, be it read as a graph, as the nodes of
one, as a node or as what a node embeds. -/
structure Placed (v : Value) : Prop where
  graph (scope : Text) :
    (Graph.fragment scope (Graph.ofValue v)).Groups (Graph.placements scope v)
  nodes (scope : Text) : (nodesFragment scope (nodesOf v)).Groups (nodesPlacements scope v)
  node (scope id : Text) :
    (Node.fragment scope id (Node.ofValue v)).Groups (Node.placements scope id v)
  embedding (scope : Text) :
    (Embedding.fragment scope (Embedding.ofValue v)).Groups (Graph.placements scope v)

theorem placed_map {es : Entries} (h : ∀ e ∈ es, Placed e.2) : Placed (.map es) := by
  have hnodes (scope : Text) :
      (nodesFragment scope (nodesIn es)).Groups (placementsIn scope es) := by
    rw [nodesIn_eq, placementsIn_eq]
    cases hv : es.field? "nodes" with
    | none => exact Fragment.groups_of_no_ids rfl rfl rfl
    | some v =>
      obtain ⟨e, he, rfl⟩ := Entries.field?_mem hv
      exact (h e he).nodes scope
  have hembedded (scope : Text) :
      (Embedding.fragment scope (embeddingIn es)).Groups (embeddedPlacements scope es) := by
    rw [embeddingIn_eq, embeddedPlacements_eq]
    cases hv : es.field? "graph" with
    | none => exact Fragment.groups_of_no_ids rfl rfl rfl
    | some v =>
      obtain ⟨e, he, rfl⟩ := Entries.field?_mem hv
      exact (h e he).embedding scope
  refine ⟨fun scope => ?_, fun scope => ?_, fun scope id => groups_node (hembedded _),
    fun scope => ?_⟩
  · rw [Graph.ofValue, Graph.fragment, Graph.placements]
    exact hnodes scope
  · rw [nodesOf_map, nodesPlacements_map]
    refine groups_nodes fun n hn => ?_
    obtain ⟨e, he, rfl⟩ := mem_of_mem_rawNodes hn
    exact (h e he).node scope e.1.shown
  · rw [Embedding.ofValue, Embedding.fragment, Graph.fragment, Graph.placements]
    exact hnodes scope

theorem placed_orderedMap {es : Entries} (h : Placed (.map es)) : Placed (.orderedMap es) := by
  refine ⟨fun scope => ?_, fun scope => ?_, fun scope id => ?_, fun scope => ?_⟩
  · simpa only [Graph.ofValue, Graph.placements] using h.graph scope
  · simpa only [nodesOf, nodesPlacements] using h.nodes scope
  · simpa only [Node.ofValue, Node.placements, rawKind, Value.entries?] using h.node scope id
  · simpa only [Embedding.ofValue, Graph.placements] using h.embedding scope

theorem placed (v : Value) : Placed v := by
  induction v using members_induction with
  | h v ih =>
    cases v with
    | map es => exact placed_map (ih es rfl)
    | orderedMap es => exact placed_orderedMap (placed_map (ih es rfl))
    | _ =>
      exact ⟨fun _ => ⟨rfl, rfl, rfl⟩, fun _ => ⟨rfl, rfl, rfl⟩, fun _ _ => ⟨rfl, rfl, rfl⟩,
        fun _ => ⟨rfl, rfl, rfl⟩⟩

/-- **Every node has exactly one class.** For every document that is a graph, and in every scope,
the groups of its fragment are the nodes of each kind among all of its nodes, at any depth and in
document order. -/
theorem groups_of_check {v : Value} {g : Graph} (h : Graph.check v = .ok g) (scope : Text) :
    (g.fragment scope).static = idsOf .static (Graph.placements scope v) ∧
      (g.fragment scope).computed = idsOf .computed (Graph.placements scope v) ∧
      (g.fragment scope).nested = idsOf .nested (Graph.placements scope v) := by
  obtain rfl : Graph.ofValue v = g := by
    unfold Graph.check at h
    split at h
    case isTrue => exact Except.ok.inj h
    case isFalse => cases h
  have hgroups := (placed v).graph scope
  exact ⟨hgroups.static_eq, hgroups.computed_eq, hgroups.nested_eq⟩

/-- A node that calls itself static and embeds a node with an agent and one that is no mapping. -/
def embeddingDocument : Value :=
  .map [(.str "nodes", .map [(.str "a", .map [(.str "kind", .str "static"),
    (.str "graph", .map [(.str "nodes", .map [(.str "b", .map [(.str "agent", .null)]),
      (.str "c", .int 1)])])])])]

theorem groups_of_embeddingDocument :
    ((Graph.ofValue embeddingDocument).fragment []).nested = [Text.ofString "a"] ∧
      ((Graph.ofValue embeddingDocument).fragment []).computed = [Text.ofString "a.b"] ∧
      ((Graph.ofValue embeddingDocument).fragment []).static = [Text.ofString "a.c"] := by
  have hcheck : Graph.check embeddingDocument = .ok (Graph.ofValue embeddingDocument) := rfl
  obtain ⟨hs, hc, hn⟩ := groups_of_check hcheck []
  exact ⟨hn.trans rfl, hc.trans rfl, hs.trans rfl⟩

end AgentFlow
