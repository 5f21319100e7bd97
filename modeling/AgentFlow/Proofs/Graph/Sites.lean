import AgentFlow.Proofs.Graph.Raw

/-!
# Mappings that are read as graphs and nodes

A document is read mapping by mapping: it is a graph itself, the members of its `nodes` are nodes,
and the member `graph` of a node is a graph again. A site is one such mapping with the way to it.
Only mappings that can be opened are read further: all texts among their keys are whole, and the ids
of the nodes of a graph can be shown.

* `Graph.sites`, `Node.sites`: the sites of a value, each before those inside it.
* `Site.isFaulty`: a site with a key that is no whole text, or with an id that cannot be shown.
* `Site.IdsDistinct`: no two nodes of a site have one id.
* `graph_sites_eq`, `node_sites_eq`: the sites of a mapping by its entries.
-/

namespace AgentFlow

/-- What a mapping of a document is read as. -/
inductive Role where
  /-- The graph of the document. -/
  | document
  /-- A graph that a node embeds. -/
  | embedded
  | node
  deriving DecidableEq

namespace Role

/-- The steps from the place of a mapping to its members: an embedded graph is one of the two things
that the member `graph` may be. -/
def steps : Role → List Step
  | .embedded => [.name "GraphDescription"]
  | .document => []
  | .node => []

/-- Whether a mapping is read as a graph. -/
def isGraph : Role → Bool
  | .document => true
  | .embedded => true
  | .node => false

end Role

/-- The keys of a mapping that are no texts. -/
def foreignKeys (es : Entries) : List Value := (es.map (·.1)).filter fun k => k.text?.isNone

/-- Whether no key of a mapping is a text with half of a surrogate pair. -/
def hasWholeKeys (es : Entries) : Bool :=
  es.all fun e => e.1.text?.all fun t => t.chars?.isSome

/-- Whether the ids of the nodes of a mapping can be shown. -/
def hasShowableIds (es : Entries) : Bool := (nodeEntries es).all fun e => e.1.isShowable

/-- A mapping of a document, the way to it, and what it is read as. -/
structure Site where
  role : Role
  path : List Step
  entries : Entries

namespace Site

/-- A site of a part, as a site of the whole. -/
def inside (steps : List Step) (s : Site) : Site := { s with path := steps ++ s.path }

/-- Whether the ids of a graph can be shown; a node has none. -/
def hasIds (s : Site) : Bool := !s.role.isGraph || hasShowableIds s.entries

/-- Whether a site is read further. -/
def opens (s : Site) : Bool := s.hasIds && hasWholeKeys s.entries

/-- Whether something is wrong with a site itself. -/
def isFaulty (s : Site) : Bool := !s.opens || !(foreignKeys s.entries).isEmpty

/-- No two nodes of a graph that is read further have one id. -/
def IdsDistinct (s : Site) : Prop :=
  s.role.isGraph = true → s.opens = true → ((nodeEntries s.entries).map fun e => e.1.shown).Nodup

instance (s : Site) : Decidable s.IdsDistinct :=
  inferInstanceAs (Decidable (s.role.isGraph = true → s.opens = true →
    ((nodeEntries s.entries).map fun e => e.1.shown).Nodup))

end Site

mutual

/-- The sites of a value that is read as a graph. -/
def Graph.sites (role : Role) : Value → List Site
  | .map es =>
    ⟨role, [], es⟩ :: if Site.opens ⟨role, [], es⟩ then nodeSitesIn role es else []
  | .orderedMap es =>
    ⟨role, [], es⟩ :: if Site.opens ⟨role, [], es⟩ then nodeSitesIn role es else []
  | _ => []

/-- The sites of the nodes under the first member `nodes` of a mapping. -/
def nodeSitesIn (role : Role) : List (Value × Value) → List Site
  | [] => []
  | (k, v) :: es => if k.sameKey (.str "nodes") then nodeSites role v else nodeSitesIn role es

/-- The sites of the nodes of a mapping from ids to nodes. -/
def nodeSites (role : Role) : Value → List Site
  | .map es => nodeSiteList role es
  | .orderedMap es => nodeSiteList role es
  | _ => []

/-- The sites of entries one by one. -/
def nodeSiteList (role : Role) : List (Value × Value) → List Site
  | [] => []
  | (k, v) :: es =>
    (Node.sites v).map (Site.inside (role.steps ++ [.name "nodes", nameStep k.shown]))
      ++ nodeSiteList role es

/-- The sites of a value that is read as a node. -/
def Node.sites : Value → List Site
  | .map es => ⟨.node, [], es⟩ :: if Site.opens ⟨.node, [], es⟩ then embeddedSitesIn es else []
  | .orderedMap es =>
    ⟨.node, [], es⟩ :: if Site.opens ⟨.node, [], es⟩ then embeddedSitesIn es else []
  | _ => []

/-- The sites of the graph under the first member `graph` of a mapping. -/
def embeddedSitesIn : List (Value × Value) → List Site
  | [] => []
  | (k, v) :: es =>
    if k.sameKey (.str "graph") then
      (Graph.sites .embedded v).map (Site.inside [.name "graph"])
    else embeddedSitesIn es

end

/-! ## Sites by entries -/

/-- The sites of the nodes of a graph, seen from the graph. -/
def innerSites (es : Entries) : List Site :=
  (nodeEntries es).flatMap fun e =>
    (Node.sites e.2).map (Site.inside [.name "nodes", nameStep e.1.shown])

/-- The sites of the graph that a node embeds, seen from the node. -/
def embeddedSites (es : Entries) : List Site :=
  ((embeddedEntries? es).map fun fs =>
    (Graph.sites .embedded (.map fs)).map (Site.inside [.name "graph"])).getD []

@[simp] theorem Site.inside_nil (s : Site) : s.inside [] = s := rfl

theorem Site.inside_append (as bs : List Step) (s : Site) :
    s.inside (as ++ bs) = (s.inside bs).inside as := by
  simp [inside]

theorem nodeSiteList_eq (role : Role) (es : Entries) :
    nodeSiteList role es = es.flatMap fun e =>
      (Node.sites e.2).map (Site.inside (role.steps ++ [.name "nodes", nameStep e.1.shown])) := by
  induction es with
  | nil => rfl
  | cons e es ih =>
    obtain ⟨k, v⟩ := e
    rw [nodeSiteList, ih]
    rfl

theorem nodeSitesIn_eq (role : Role) (es : Entries) :
    nodeSitesIn role es = (innerSites es).map (Site.inside role.steps) := by
  have hfield : nodeSitesIn role es = ((es.field? "nodes").map (nodeSites role)).getD [] :=
    eq_field? (by rw [nodeSitesIn]) (fun _ _ _ => by rw [nodeSitesIn]) es
  have hlist (ns : Entries) : nodeSiteList role ns = (ns.flatMap fun e =>
      (Node.sites e.2).map (Site.inside [.name "nodes", nameStep e.1.shown])).map
        (Site.inside role.steps) := by
    rw [nodeSiteList_eq, List.map_flatMap]
    refine congrArg (List.flatMap · ns) (funext fun e => ?_)
    rw [List.map_map]
    exact List.map_congr_left fun s _ => Site.inside_append _ _ s
  rw [hfield, innerSites, nodeEntries]
  cases es.field? "nodes" with
  | none => rfl
  | some v => cases v <;> first | exact hlist _ | rfl

theorem Graph.sites_eq {v : Value} {es : Entries} (h : v.entries? = some es) (role : Role) :
    Graph.sites role v = ⟨role, [], es⟩ :: if Site.opens ⟨role, [], es⟩ then
      (innerSites es).map (Site.inside role.steps) else [] := by
  cases v <;> cases h <;> rw [Graph.sites, nodeSitesIn_eq]

/-- The sites of a mapping do not depend on whether it is ordered. -/
theorem Graph.sites_congr {v : Value} {es : Entries} (h : v.entries? = some es) (role : Role) :
    Graph.sites role v = Graph.sites role (.map es) := by
  rw [Graph.sites_eq h, Graph.sites_eq rfl]

theorem Graph.sites_of_none {v : Value} (h : v.entries? = none) (role : Role) :
    Graph.sites role v = [] := by
  cases v <;> first | rfl | cases h

theorem embeddedSitesIn_eq (es : Entries) : embeddedSitesIn es = embeddedSites es := by
  have hfield : embeddedSitesIn es = ((es.field? "graph").map fun v =>
      (Graph.sites .embedded v).map (Site.inside [.name "graph"])).getD [] :=
    eq_field? (by rw [embeddedSitesIn]) (fun _ _ _ => by rw [embeddedSitesIn]) es
  rw [hfield, embeddedSites, embeddedEntries?]
  cases es.field? "graph" with
  | none => rfl
  | some v =>
    cases hv : v.entries? with
    | none => simp [hv, Graph.sites_of_none hv]
    | some fs => simp [hv, Graph.sites_congr hv]

theorem Node.sites_eq {v : Value} {es : Entries} (h : v.entries? = some es) :
    Node.sites v = ⟨.node, [], es⟩ :: if Site.opens ⟨.node, [], es⟩ then embeddedSites es
      else [] := by
  cases v <;> cases h <;> rw [Node.sites, embeddedSitesIn_eq]

/-- The sites of a mapping do not depend on whether it is ordered. -/
theorem Node.sites_congr {v : Value} {es : Entries} (h : v.entries? = some es) :
    Node.sites v = Node.sites (.map es) := by
  rw [Node.sites_eq h, Node.sites_eq rfl]

theorem Node.sites_of_none {v : Value} (h : v.entries? = none) : Node.sites v = [] := by
  cases v <;> first | rfl | cases h

/-! ## Parts of a document -/

@[simp] theorem Site.isFaulty_inside (s : Site) (steps : List Step) :
    (s.inside steps).isFaulty = s.isFaulty := rfl

theorem Site.idsDistinct_inside {s : Site} {steps : List Step} :
    (s.inside steps).IdsDistinct ↔ s.IdsDistinct := Iff.rfl

theorem Site.isFaulty_iff {s : Site} :
    s.isFaulty = true ↔ s.opens = false ∨ foreignKeys s.entries ≠ [] := by
  rw [isFaulty]
  cases s.opens <;> simp

theorem forall_map_inside {P : Site → Prop} (hP : ∀ s steps, P (Site.inside steps s) ↔ P s)
    {ss : List Site} {steps : List Step} :
    (∀ s ∈ ss.map (Site.inside steps), P s) ↔ ∀ s ∈ ss, P s := by
  simp [hP]

/-- Where ids are distinct no node takes the place of another. -/
theorem rawNodes_of_nodup {es : Entries} (h : (es.map fun e => e.1.shown).Nodup) :
    rawNodes es = es.map fun e => (e.1.shown, e.2) := by
  refine collapse_of_nodup ?_
  rwa [List.map_map]

/-- The sites of an embedded graph are those of the graph on its own, one step further down. -/
theorem sites_embedded (es : Entries) : Graph.sites .embedded (.map es)
    = ⟨.embedded, [], es⟩ :: (Graph.sites .document (.map es)).tail.map
        (Site.inside [.name "GraphDescription"]) := by
  have hopens : Site.opens ⟨.embedded, [], es⟩ = Site.opens ⟨.document, [], es⟩ := rfl
  rw [Graph.sites_eq rfl, Graph.sites_eq rfl, hopens, List.tail_cons]
  split
  · simp [Role.steps, Site.inside]
  · rfl

theorem idsDistinct_embedded_iff {es : Entries} :
    (∀ s ∈ Graph.sites .embedded (.map es), s.IdsDistinct) ↔
      ∀ s ∈ Graph.sites .document (.map es), s.IdsDistinct := by
  obtain ⟨rest, hrest⟩ : ∃ rest, Graph.sites .document (.map es) = ⟨.document, [], es⟩ :: rest :=
    ⟨_, Graph.sites_eq rfl _⟩
  rw [sites_embedded, hrest, List.tail_cons, List.forall_mem_cons, List.forall_mem_cons,
    forall_map_inside fun _ _ => Site.idsDistinct_inside]
  exact Iff.rfl

/-- The ids of a graph are distinct on every level just if they are where it can be opened, and so
are those of its nodes. -/
theorem graph_idsDistinct_iff {es : Entries} :
    (∀ s ∈ Graph.sites .document (.map es), s.IdsDistinct) ↔
      (Site.opens ⟨.document, [], es⟩ = true → ((nodeEntries es).map fun e => e.1.shown).Nodup ∧
        ∀ e ∈ nodeEntries es, ∀ fs, e.2.entries? = some fs →
          ∀ s ∈ Node.sites (.map fs), s.IdsDistinct) := by
  have hnode (e : Value × Value) : (∀ s ∈ Node.sites e.2, s.IdsDistinct) ↔
      ∀ fs, e.2.entries? = some fs → ∀ s ∈ Node.sites (.map fs), s.IdsDistinct := by
    cases hfs : e.2.entries? with
    | none => simp [Node.sites_of_none hfs]
    | some fs => simp [Node.sites_congr hfs]
  rw [Graph.sites_eq rfl, List.forall_mem_cons, Site.IdsDistinct]
  cases hopens : Site.opens ⟨.document, [], es⟩ with
  | false => simp
  | true =>
    rw [if_pos rfl, forall_map_inside fun _ _ => Site.idsDistinct_inside, innerSites,
      List.forall_mem_flatMap]
    simp only [forall_map_inside fun _ _ => Site.idsDistinct_inside, hnode, Role.isGraph,
      true_implies]

/-- The ids inside a node are distinct just if those of the graph that it embeds are. -/
theorem node_idsDistinct_iff {es : Entries} :
    (∀ s ∈ Node.sites (.map es), s.IdsDistinct) ↔
      (Site.opens ⟨.node, [], es⟩ = true → ∀ fs, embeddedEntries? es = some fs →
        ∀ s ∈ Graph.sites .document (.map fs), s.IdsDistinct) := by
  have hself : Site.IdsDistinct ⟨.node, [], es⟩ := fun hrole => nomatch hrole
  rw [Node.sites_eq rfl, List.forall_mem_cons, and_iff_right hself]
  cases Site.opens ⟨.node, [], es⟩ with
  | false => simp
  | true =>
    rw [if_pos rfl, embeddedSites]
    cases embeddedEntries? es with
    | none => simp
    | some fs =>
      rw [Option.map_some, Option.getD_some,
        forall_map_inside fun _ _ => Site.idsDistinct_inside, idsDistinct_embedded_iff]
      simp

end AgentFlow
