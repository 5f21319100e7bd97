import AgentFlow.Proofs.Graph.Placement
import AgentFlow.Proofs.Text.Split

/-!
# Qualified ids identify nodes

The id of a node in a flowchart is its place, the ids from the outermost graph down to it, joined by
dots. As long as no id on the way has a dot of its own the place can be read back from it, so nodes
at different places are drawn as different boxes.

* `Graph.places`: the nodes of a graph and of the graphs embedded in it, by place.
* `groups_places`: the groups of a fragment are the joined places of each kind.
* `nodup_paths`: in a graph whose ids are distinct on every level no two nodes have one place.
* `idsDistinct_ofValue`: the ids of the graph that a value describes are distinct on every level.
* `qualified_ids_identify`: the ids of the nodes of a document tell them apart.
-/

namespace AgentFlow

/-! ## Places -/

/-- Where a node is, as the ids from the outermost graph down to it, and how it is drawn. -/
structure Place where
  path : List Text
  kind : NodeKind

namespace Place

/-- A place of an embedded graph, seen from the graph around it. -/
def inside (id : Text) (p : Place) : Place := { p with path := id :: p.path }

/-- The id of the node of a place in a scope. -/
def qualified (scope : Text) (p : Place) : Text := scope ++ Text.join [Scope.separator] p.path

/-- A place none of whose ids has a dot. -/
def IsDotless (p : Place) : Prop := ∀ id ∈ p.path, Scope.separator ∉ id

instance (p : Place) : Decidable p.IsDotless :=
  inferInstanceAs (Decidable (∀ id ∈ p.path, Scope.separator ∉ id))

end Place

mutual

/-- The places of the nodes of a graph and of the graphs embedded in it, each node before those
inside it. -/
def Graph.places : Graph → List Place
  | .mk nodes _ => nodesPlaces nodes

/-- The places of nodes one after the other. -/
def nodesPlaces : List (Text × Node) → List Place
  | [] => []
  | (id, node) :: rest => Node.places id node ++ nodesPlaces rest

/-- The place of a node, and those of the nodes inside it. -/
def Node.places (id : Text) : Node → List Place
  | .mk agent inputs update graph extra =>
    ⟨[id], (Node.mk agent inputs update graph extra).kind⟩
      :: (Embedding.places graph).map (Place.inside id)

/-- The places of what a node embeds. -/
def Embedding.places : Embedding → List Place
  | .graph g => Graph.places g
  | .absent => []
  | .reference _ => []
  | .unusable => []

end

theorem Node.path_ne_nil {id : Text} {n : Node} {p : Place} (h : p ∈ n.places id) :
    p.path ≠ [] := by
  cases n
  rw [Node.places, List.mem_cons, List.mem_map] at h
  obtain rfl | ⟨q, -, rfl⟩ := h
  · exact List.cons_ne_nil _ _
  · exact List.cons_ne_nil _ _

theorem mem_nodesPlaces {ns : List (Text × Node)} {p : Place} :
    p ∈ nodesPlaces ns ↔ ∃ n ∈ ns, p ∈ n.2.places n.1 := by
  induction ns with
  | nil => simp [nodesPlaces]
  | cons n ns ih =>
    obtain ⟨id, node⟩ := n
    simp [nodesPlaces, ih]

theorem Graph.path_ne_nil {g : Graph} {p : Place} (h : p ∈ g.places) : p.path ≠ [] := by
  cases g
  rw [Graph.places, mem_nodesPlaces] at h
  obtain ⟨n, -, hn⟩ := h
  exact Node.path_ne_nil hn

theorem Embedding.path_ne_nil {e : Embedding} {p : Place} (h : p ∈ e.places) : p.path ≠ [] := by
  cases e with
  | graph g =>
    rw [Embedding.places] at h
    exact Graph.path_ne_nil h
  | _ => simp [Embedding.places] at h

/-! ## Groups -/

namespace Place

/-- Places as the ids that are drawn for them, with their kinds. -/
def drawn (scope : Text) (ps : List Place) : List (Text × NodeKind) :=
  ps.map fun p => (p.qualified scope, p.kind)

theorem qualified_inside {p : Place} (h : p.path ≠ []) (scope id : Text) :
    (p.inside id).qualified scope = p.qualified (Scope.child (Scope.qualify scope id)) := by
  simp [qualified, inside, Text.join_cons h, Scope.child, Scope.qualify]

/-- The places inside a node are drawn in the scope of that node. -/
theorem drawn_inside {ps : List Place} (h : ∀ p ∈ ps, p.path ≠ []) (scope id : Text) :
    drawn scope (ps.map (inside id)) = drawn (Scope.child (Scope.qualify scope id)) ps := by
  rw [drawn, drawn, List.map_map]
  exact List.map_congr_left fun p hp => by
    rw [Function.comp_apply, qualified_inside (h p hp), inside]

end Place

/-- What is not nested embeds nothing. -/
theorem Node.places_of_not_nested {n : Node} (h : n.kind ≠ .nested) : n.embedding.places = [] := by
  rw [embedding_of_not_nested h]
  rfl

theorem Node.places_eq (n : Node) (id : Text) :
    n.places id = ⟨[id], n.kind⟩ :: n.embedding.places.map (Place.inside id) := by
  cases n
  rw [Node.places, Node.embedding]

theorem Node.drawn_places (n : Node) (scope id : Text) :
    Place.drawn scope (n.places id) = (Scope.qualify scope id, n.kind)
      :: Place.drawn (Scope.child (Scope.qualify scope id)) n.embedding.places := by
  rw [Node.places_eq, ← Place.drawn_inside fun _ => Embedding.path_ne_nil]
  simp [Place.drawn, Place.qualified, Scope.qualify, Text.join, List.intercalate]

mutual

/-- **The groups of a fragment are the joined places of each kind.** -/
theorem Graph.groups_places (scope : Text) :
    ∀ g : Graph, (g.fragment scope).Groups (Place.drawn scope g.places)
  | .mk nodes _ => by
    rw [Graph.fragment, Graph.places]
    exact nodes_groups_places scope nodes

theorem nodes_groups_places (scope : Text) :
    ∀ ns : List (Text × Node),
      (nodesFragment scope ns).Groups (Place.drawn scope (nodesPlaces ns))
  | [] => Fragment.groups_of_no_ids rfl rfl rfl
  | (id, node) :: rest => by
    rw [nodesFragment, nodesPlaces, Place.drawn, List.map_append]
    exact (Node.groups_places scope id node).append (nodes_groups_places scope rest)

theorem Node.groups_places (scope id : Text) :
    ∀ n : Node, (n.fragment scope id).Groups (Place.drawn scope (n.places id))
  | .mk _ _ _ graph _ => by
    rw [Node.drawn_places]
    refine Node.groups_fragment (Embedding.groups_places _ graph) fun h => ?_
    rw [Node.places_of_not_nested h, Place.drawn, List.map_nil]

theorem Embedding.groups_places (scope : Text) :
    ∀ e : Embedding, (e.fragment scope).Groups (Place.drawn scope e.places)
  | .graph g => by
    rw [Embedding.fragment, Embedding.places]
    exact Graph.groups_places scope g
  | .absent => Fragment.groups_of_no_ids rfl rfl rfl
  | .reference _ => Fragment.groups_of_no_ids rfl rfl rfl
  | .unusable => Fragment.groups_of_no_ids rfl rfl rfl

end

/-! ## Distinct ids -/

mutual

/-- A graph no two nodes of which have one id, and none of whose embedded graphs has such nodes. -/
def Graph.IdsDistinct : Graph → Prop
  | .mk nodes _ => (nodes.map (·.1)).Nodup ∧ nodesIdsDistinct nodes

/-- `Graph.IdsDistinct` for what nodes embed. -/
def nodesIdsDistinct : List (Text × Node) → Prop
  | [] => True
  | (_, node) :: rest => Node.IdsDistinct node ∧ nodesIdsDistinct rest

/-- `Graph.IdsDistinct` for what a node embeds. -/
def Node.IdsDistinct : Node → Prop
  | .mk _ _ _ graph _ => Embedding.IdsDistinct graph

/-- `Graph.IdsDistinct` for a graph that is given. -/
def Embedding.IdsDistinct : Embedding → Prop
  | .graph g => Graph.IdsDistinct g
  | .absent => True
  | .reference _ => True
  | .unusable => True

end

theorem nodesIdsDistinct_iff {ns : List (Text × Node)} :
    nodesIdsDistinct ns ↔ ∀ n ∈ ns, n.2.IdsDistinct := by
  induction ns with
  | nil => simp [nodesIdsDistinct]
  | cons n ns ih =>
    obtain ⟨id, node⟩ := n
    simp [nodesIdsDistinct, ih]

theorem Embedding.idsDistinct_iff {e : Embedding} :
    e.IdsDistinct ↔ ∀ g, e.graph? = some g → g.IdsDistinct := by
  cases e <;> simp [Embedding.IdsDistinct, Embedding.graph?]

theorem idsDistinct_ofEntries (es : Entries) :
    (Graph.ofValue (.map es)).IdsDistinct ∧ (Node.ofValue (.map es)).IdsDistinct := by
  refine graph_induction (G := fun es => (Graph.ofValue (.map es)).IdsDistinct)
    (N := fun es => (Node.ofValue (.map es)).IdsDistinct) (fun es ih => ?_) (fun es ih => ?_) es
  · rw [Graph.ofValue_eq rfl, Graph.IdsDistinct, nodesIn_eq_map, nodesIdsDistinct_iff, List.map_map]
    refine ⟨nodup_collapse _, fun n hn => ?_⟩
    obtain ⟨m, hm, rfl⟩ := List.mem_map.1 hn
    obtain ⟨e, he, rfl⟩ := mem_of_mem_rawNodes hm
    cases hfs : e.2.entries? with
    | none =>
      rw [Node.ofValue_of_none hfs, Node.IdsDistinct, Embedding.IdsDistinct]
      trivial
    | some fs =>
      have h := ih e he fs hfs
      rwa [Node.ofValue_eq rfl, ← Node.ofValue_eq hfs] at h
  · rw [Node.ofValue_eq rfl, Node.IdsDistinct, Embedding.idsDistinct_iff, graph?_embeddingIn]
    intro g hg
    obtain ⟨fs, hfs, rfl⟩ := Option.map_eq_some_iff.1 hg
    exact ih fs hfs

/-- **The ids of the graph that a value describes are distinct on every level.** -/
theorem idsDistinct_ofValue (v : Value) : (Graph.ofValue v).IdsDistinct := by
  cases hv : v.entries? with
  | none =>
    rw [Graph.ofValue_of_none hv, Graph.empty, Graph.IdsDistinct, nodesIdsDistinct]
    exact ⟨List.nodup_nil, trivial⟩
  | some es =>
    have h := (idsDistinct_ofEntries es).1
    rwa [Graph.ofValue_eq rfl, ← Graph.ofValue_eq hv] at h

/-! ## Distinct places -/

theorem Node.head?_path {id : Text} {n : Node} {p : Place} (h : p ∈ n.places id) :
    p.path.head? = some id := by
  rw [Node.places_eq, List.mem_cons, List.mem_map] at h
  obtain rfl | ⟨q, -, rfl⟩ := h <;> rfl

mutual

/-- **No two nodes have one place** in a graph whose ids are distinct on every level. -/
theorem Graph.nodup_paths : ∀ g : Graph, g.IdsDistinct → (g.places.map Place.path).Nodup
  | .mk nodes _, h => by
    rw [Graph.IdsDistinct] at h
    rw [Graph.places]
    exact nodes_nodup_paths nodes h.1 h.2

theorem nodes_nodup_paths : ∀ ns : List (Text × Node), (ns.map (·.1)).Nodup →
    nodesIdsDistinct ns → ((nodesPlaces ns).map Place.path).Nodup
  | [], _, _ => List.nodup_nil
  | (id, node) :: rest, hids, h => by
    rw [nodesIdsDistinct] at h
    rw [List.map_cons, List.nodup_cons] at hids
    rw [nodesPlaces, List.map_append]
    refine List.nodup_append.2 ⟨Node.nodup_paths id node h.1,
      nodes_nodup_paths rest hids.2 h.2, fun a ha b hb hab => hids.1 ?_⟩
    -- the first id of a path says which node it goes through
    obtain ⟨p, hp, rfl⟩ := List.mem_map.1 ha
    obtain ⟨q, hq, rfl⟩ := List.mem_map.1 hb
    obtain ⟨n, hn, hqn⟩ := mem_nodesPlaces.1 hq
    have hid : some id = some n.1 := by rw [← Node.head?_path hp, hab, Node.head?_path hqn]
    exact List.mem_map.2 ⟨n, hn, (Option.some.inj hid).symm⟩

theorem Node.nodup_paths (id : Text) :
    ∀ n : Node, n.IdsDistinct → ((n.places id).map Place.path).Nodup
  | .mk _ _ _ graph _, h => by
    rw [Node.IdsDistinct] at h
    have hinner : ((graph.places.map Place.path).map (id :: ·)).Nodup :=
      List.Pairwise.map (id :: ·) (fun _ _ hne heq => hne (List.tail_eq_of_cons_eq heq))
        (Embedding.nodup_paths graph h)
    rw [List.map_map] at hinner
    rw [Node.places_eq, Node.embedding, List.map_cons, List.map_map]
    refine List.nodup_cons.2 ⟨fun hmem => ?_, hinner⟩
    obtain ⟨p, hp, heq⟩ := List.mem_map.1 hmem
    exact Embedding.path_ne_nil hp (List.tail_eq_of_cons_eq heq)

theorem Embedding.nodup_paths :
    ∀ e : Embedding, e.IdsDistinct → (e.places.map Place.path).Nodup
  | .graph g, h => by
    rw [Embedding.IdsDistinct] at h
    rw [Embedding.places]
    exact Graph.nodup_paths g h
  | .absent, _ => List.nodup_nil
  | .reference _, _ => List.nodup_nil
  | .unusable, _ => List.nodup_nil

end

/-! ## Ids tell nodes apart -/

namespace Place

/-- Two places without dots that are drawn under one id are one place. -/
theorem path_eq_of_qualified_eq {p q : Place} {scope : Text} (hp : p.path ≠ []) (hq : q.path ≠ [])
    (hdp : p.IsDotless) (hdq : q.IsDotless) (h : p.qualified scope = q.qualified scope) :
    p.path = q.path :=
  Text.join_injective hp hq hdp hdq (List.append_cancel_left h)

/-- Places of which no two have one path are drawn under distinct ids if none of them has a dot. -/
theorem nodup_qualified {ps : List Place} (hnodup : (ps.map path).Nodup)
    (hne : ∀ p ∈ ps, p.path ≠ []) (hdot : ∀ p ∈ ps, p.IsDotless) (scope : Text) :
    (ps.map (qualified scope)).Nodup := by
  rw [List.Nodup, List.pairwise_map] at hnodup ⊢
  refine hnodup.imp_of_mem fun hp hq hpq heq => hpq ?_
  exact path_eq_of_qualified_eq (hne _ hp) (hne _ hq) (hdot _ hp) (hdot _ hq) heq

end Place

/-- All ids that are placed are those placed in the three kinds. -/
theorem idsOf_perm (ps : List (Text × NodeKind)) :
    (idsOf .static ps ++ idsOf .computed ps ++ idsOf .nested ps).Perm (ps.map (·.1)) := by
  induction ps with
  | nil => exact .refl _
  | cons p ps ih =>
    obtain ⟨id, kind⟩ := p
    have hcons (k : NodeKind) :
        idsOf k ((id, kind) :: ps) = if kind = k then id :: idsOf k ps else idsOf k ps := by
      by_cases h : kind = k <;> simp [idsOf, h]
    have hmiddle (as bs : List Text) (h : (as ++ bs).Perm (ps.map (·.1))) :
        (as ++ id :: bs).Perm (id :: ps.map (·.1)) := List.perm_middle.trans (h.cons id)
    rw [hcons, hcons, hcons, List.map_cons]
    cases kind with
    | static => exact ih.cons id
    | computed =>
      rw [List.append_assoc] at ih ⊢
      exact hmiddle _ _ ih
    | nested => exact hmiddle _ _ ih

/-- **Qualified ids identify nodes.** In the fragment of a document's graph each node is drawn under
the id of its place, no two nodes have one place, and places that are drawn under one id are one
place unless an id on the way to one of them has a dot. So no id occurs twice in the three groups of
a graph whose ids have no dots. -/
theorem qualified_ids_identify {v : Value} {g : Graph} (h : Graph.check v = .ok g) (scope : Text) :
    (g.fragment scope).Groups (g.places.map fun p => (p.qualified scope, p.kind)) ∧
      (g.places.map Place.path).Nodup ∧
      (∀ p ∈ g.places, ∀ q ∈ g.places, p.path ≠ q.path → p.qualified scope = q.qualified scope →
        ∃ id ∈ p.path ++ q.path, Scope.separator ∈ id) ∧
      ((∀ p ∈ g.places, p.IsDotless) →
        ((g.fragment scope).static ++ (g.fragment scope).computed
          ++ (g.fragment scope).nested).Nodup) := by
  obtain rfl := (Graph.check_eq_ok_iff.1 h).2
  have hgroups := Graph.groups_places scope (Graph.ofValue v)
  have hpaths := Graph.nodup_paths _ (idsDistinct_ofValue v)
  refine ⟨hgroups, hpaths, fun p hp q hq hne heq => ?_, fun hdot => ?_⟩
  · refine Classical.byContradiction fun hdots => hne ?_
    have hdotless : ∀ id ∈ p.path ++ q.path, Scope.separator ∉ id :=
      fun id hid hdot => hdots ⟨id, hid, hdot⟩
    exact Place.path_eq_of_qualified_eq (Graph.path_ne_nil hp) (Graph.path_ne_nil hq)
      (fun id hid => hdotless id (List.mem_append_left _ hid))
      (fun id hid => hdotless id (List.mem_append_right _ hid)) heq
  · rw [hgroups.static_eq, hgroups.computed_eq, hgroups.nested_eq, (idsOf_perm _).nodup_iff,
      Place.drawn, List.map_map]
    exact Place.nodup_qualified hpaths (fun _ => Graph.path_ne_nil) hdot scope

/-- Nodes of one id on two levels, and two without an id. -/
def echoDocument : Value :=
  .map [(.str "nodes", .map [(.str "a", .map [(.str "graph", .map [(.str "nodes",
    .map [(.str "a", .map [(.str "agent", .null)]), (.str [], .null)])])]), (.str [], .null)])]

theorem ids_of_echoDocument :
    Graph.check echoDocument = .ok (Graph.ofValue echoDocument) ∧
      (∀ p ∈ (Graph.ofValue echoDocument).places, p.IsDotless) ∧
      ((Graph.ofValue echoDocument).fragment []).nested = [Text.ofString "a"] ∧
      ((Graph.ofValue echoDocument).fragment []).computed = [Text.ofString "a.a"] ∧
      ((Graph.ofValue echoDocument).fragment []).static = [Text.ofString "a.", []] ∧
      (((Graph.ofValue echoDocument).fragment []).static
        ++ ((Graph.ofValue echoDocument).fragment []).computed
        ++ ((Graph.ofValue echoDocument).fragment []).nested).Nodup := by
  have hcheck : Graph.check echoDocument = .ok (Graph.ofValue echoDocument) := rfl
  have hdot : ∀ p ∈ (Graph.ofValue echoDocument).places, p.IsDotless := by decide
  obtain ⟨hgroups, -, -, hnodup⟩ := qualified_ids_identify hcheck []
  exact ⟨hcheck, hdot, hgroups.nested_eq.trans rfl, hgroups.computed_eq.trans rfl,
    hgroups.static_eq.trans rfl, hnodup hdot⟩

end AgentFlow
