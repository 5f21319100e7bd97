import AgentFlow.Proofs.Graph.Indentation
import Mathlib.Data.List.Nodup

/-!
# Blocks of a fragment

A nested node draws the edges to it, a line that opens its block, the lines of the graph inside it
and a line that ends the block. Blocks are closed in the order that nesting asks for, and no line
but the end of a block can be taken for one, whatever the ids are.

* `Shape.text_eq_end_iff`: which lines are blanks and the word `end`.
* `openBlocks`: the blocks that are open behind some lines. `WellBracketed.openBlocks_eq`: lines
  that are well bracketed leave open what is open in front of them.
* `Graph.wellBracketed_strokes`: the lines of a graph are well bracketed.
* `Graph.exists_strokes_around`: the lines of a node at any depth stand in one piece, and what is
  around them is drawn by other nodes.
* `blocks_well_bracketed`: the blocks of a fragment.
-/

namespace AgentFlow

/-! ## Lines that end a block -/

/-- Whether a line is nothing but blanks and the word that ends a block. -/
def IsEndLine (t : Text) : Prop :=
  ∃ n, t = List.replicate n (CodePoint.char ' ') ++ Text.ofString "end"

namespace Shape

/-- Every line but the end of a block has a bracket or the head of an arrow. -/
theorem exists_mark_of_ne_ending {s : Shape} (h : s ≠ .ending) :
    .char '(' ∈ s.text ∨ .char '[' ∈ s.text ∨ .char '>' ∈ s.text := by
  have hlabel : ∀ label, CodePoint.char '>' ∈ arrow label := by
    intro label
    have hhead : CodePoint.char '>' ∈ Text.ofString " --> " := by decide
    cases label with
    | none => exact hhead
    | some label => exact List.mem_append_right _ hhead
  have hround : CodePoint.char '(' ∈ Text.ofString "(" := by decide
  have hsquare : CodePoint.char '[' ∈ Text.ofString "[" := by decide
  cases s with
  | static node title => simp [text, hround]
  | computed node title label => simp [text, hround]
  | opening node title label => simp [text, hsquare]
  | edge source label target => simp [text, hlabel]
  | ending => exact absurd rfl h

end Shape

/-- **Which lines can be taken for the end of a block.** -/
theorem Stroke.isEndLine_iff (s : Stroke) : IsEndLine s.text ↔ s.shape = .ending := by
  constructor
  · rintro ⟨n, hn⟩
    refine Decidable.byContradiction fun hne => ?_
    have hblank {p : CodePoint} (hp : p ∈ s.text) : p = .char ' ' ∨ p ∈ Text.ofString "end" := by
      rw [hn, List.mem_append] at hp
      exact hp.imp_left List.eq_of_mem_replicate
    have hmark {p : CodePoint} (hp : p ∈ s.shape.text) :
        p = .char ' ' ∨ p ∈ Text.ofString "end" := hblank (List.mem_append_right _ hp)
    rcases Shape.exists_mark_of_ne_ending hne with hp | hp | hp
    all_goals exact absurd (hmark hp) (by decide)
  · intro h
    rw [text, h]
    exact ⟨s.indent, rfl⟩

/-! ## Reading brackets -/

/-- A block that is open: the node that it belongs to, and the blanks in front of the line that
opened it. -/
abbrev OpenBlock := List Text × Nat

/-- The blocks that are open behind a line, innermost first. There are none to tell if the line ends
any other block than the innermost one that is open. -/
def openBehind (opened : List OpenBlock) (s : Stroke) : Option (List OpenBlock) :=
  match s.shape.role with
  | .opening => some ((s.path, s.indent) :: opened)
  | .ending => if opened.head? = some (s.path, s.indent) then some opened.tail else none
  | .declaration | .edge => some opened

/-- The blocks that are open behind some lines. -/
def openBlocks (opened : List OpenBlock) (ss : List Stroke) : Option (List OpenBlock) :=
  ss.foldlM openBehind opened

/-- Whether every block that is opened is ended behind the blocks inside it, by a line of the same
node that is indented alike. -/
inductive WellBracketed : List Stroke → Prop
  | nil : WellBracketed []
  | line {s : Stroke} {ss : List Stroke} (h : s.shape.role = .declaration ∨ s.shape.role = .edge)
    (hrest : WellBracketed ss) : WellBracketed (s :: ss)
  | block {path : List Text} {indent : Nat} {opening : Shape} {inner rest : List Stroke}
    (h : opening.role = .opening) (hinner : WellBracketed inner) (hrest : WellBracketed rest) :
    WellBracketed (⟨path, indent, opening⟩ :: (inner ++ ⟨path, indent, .ending⟩ :: rest))

namespace WellBracketed

variable {ss us : List Stroke}

theorem append (h : WellBracketed ss) (h' : WellBracketed us) : WellBracketed (ss ++ us) := by
  induction h with
  | nil => exact h'
  | line h _ ih => exact .line h ih
  | block h hinner _ _ ih =>
    rw [List.cons_append, List.append_assoc, List.cons_append]
    exact .block h hinner ih

/-- Lines of an embedded graph, seen from the graph around it. -/
theorem map_inside (h : WellBracketed ss) (id : Text) :
    WellBracketed (ss.map (Stroke.inside id)) := by
  induction h with
  | nil => exact .nil
  | line h _ ih => exact .line h ih
  | block h _ _ ihinner ih =>
    rw [List.map_cons, List.map_append, List.map_cons]
    exact .block h ihinner ih

/-- **Lines that are well bracketed leave open what is open in front of them.** -/
theorem openBlocks_eq (h : WellBracketed ss) (opened : List OpenBlock) :
    openBlocks opened ss = some opened := by
  induction h generalizing opened with
  | nil => rfl
  | @line s ss h _ ih =>
    have hstep : openBehind opened s = some opened := by
      rcases h with h | h <;> rw [openBehind, h]
    rw [openBlocks, List.foldlM_cons, hstep]
    exact ih opened
  | @block path indent opening inner rest h _ _ ihinner ih =>
    have hopen : openBehind opened ⟨path, indent, opening⟩ = some ((path, indent) :: opened) := by
      rw [openBehind, h]
    have hend : openBehind ((path, indent) :: opened) ⟨path, indent, .ending⟩ = some opened :=
      if_pos rfl
    have hinner : inner.foldlM openBehind ((path, indent) :: opened)
        = some ((path, indent) :: opened) := ihinner _
    rw [openBlocks, List.foldlM_cons, hopen, Option.bind_eq_bind, Option.bind_some,
      List.foldlM_append, hinner, Option.bind_eq_bind, Option.bind_some, List.foldlM_cons, hend]
    exact ih opened

end WellBracketed

namespace Node

variable {n : Node} {scope id : Text}

theorem role_shape_of_not_nested (h : n.kind ≠ .nested) :
    (n.shape scope id).role = .declaration := by
  rw [shape]
  split
  · exact absurd ‹_› h
  · rfl
  · rfl

theorem role_of_mem_edgeShapes {s : Shape} (h : s ∈ n.edgeShapes scope id) : s.role = .edge := by
  obtain ⟨source, -, hsource⟩ := List.mem_filterMap.1 h
  cases source with
  | literal => cases hsource
  | node source path =>
    rw [DataSource.shape?, Option.ite_none_left_eq_some] at hsource
    rw [← Option.some.inj hsource.2]
    rfl

/-- The edges to a node in front of other lines. -/
theorem wellBracketed_edgeShapes (n : Node) (scope id : Text) :
    WellBracketed ((n.edgeShapes scope id).map (stroke scope id)) := by
  have hedges : ∀ s ∈ n.edgeShapes scope id, s.role = .edge := fun _ => role_of_mem_edgeShapes
  generalize n.edgeShapes scope id = ss at hedges
  induction ss with
  | nil => exact .nil
  | cons s ss ih =>
    rw [List.forall_mem_cons] at hedges
    exact .line (.inr hedges.1) (ih hedges.2)

end Node

mutual

/-- **The lines of a graph are well bracketed.** -/
theorem Graph.wellBracketed_strokes (scope : Text) :
    ∀ g : Graph, WellBracketed (g.strokes scope)
  | .mk nodes _ => by
    rw [Graph.strokes]
    exact nodes_wellBracketed_strokes scope nodes

theorem nodes_wellBracketed_strokes (scope : Text) :
    ∀ ns : List (Text × Node), WellBracketed (nodesStrokes scope ns)
  | [] => .nil
  | (id, node) :: rest => by
    rw [nodesStrokes]
    exact (Node.wellBracketed_strokes scope id node).append (nodes_wellBracketed_strokes scope rest)

theorem Node.wellBracketed_strokes (scope id : Text) :
    ∀ n : Node, WellBracketed (n.strokes scope id)
  | .mk agent inputs update graph extra => by
    have hedges := Node.wellBracketed_edgeShapes (.mk agent inputs update graph extra) scope id
    by_cases hk : (Node.mk agent inputs update graph extra).kind = .nested
    · have hinner := (Embedding.wellBracketed_strokes (Scope.child (Scope.qualify scope id))
        graph).map_inside id
      have hopening : (Node.shape scope id (.mk agent inputs update graph extra)).role
          = .opening := by
        rw [Node.shape, hk]
        rfl
      rw [Node.strokes_of_nested hk, List.map_append, List.append_assoc, List.append_assoc]
      exact hedges.append (.block hopening hinner .nil)
    · rw [Node.strokes_of_not_nested hk]
      exact .line (.inl (Node.role_shape_of_not_nested hk)) hedges

theorem Embedding.wellBracketed_strokes (scope : Text) :
    ∀ e : Embedding, WellBracketed (e.strokes scope)
  | .graph g => by
    rw [Embedding.strokes]
    exact Graph.wellBracketed_strokes scope g
  | .absent => .nil
  | .reference _ => .nil
  | .unusable => .nil

end

/-! ## The lines of one node -/

/-- Whether some lines stand in one piece among others, and what is around them is drawn by nodes
that a path does not go through. -/
def IsPieceOf (path : List Text) (piece ss : List Stroke) : Prop :=
  ∃ before after, ss = before ++ piece ++ after ∧ ∀ s ∈ before ++ after, ¬ path <+: s.path

namespace IsPieceOf

variable {path : List Text} {piece ss us : List Stroke}

theorem refl (path : List Text) (piece : List Stroke) : IsPieceOf path piece piece :=
  ⟨[], [], (List.append_nil piece).symm, fun _ hs => nomatch hs⟩

theorem behind (h : IsPieceOf path piece ss) (hus : ∀ u ∈ us, ¬ path <+: u.path) :
    IsPieceOf path piece (us ++ ss) := by
  obtain ⟨before, after, rfl, hother⟩ := h
  refine ⟨us ++ before, after, by simp only [List.append_assoc], fun s hs => ?_⟩
  rw [List.append_assoc, List.mem_append] at hs
  exact hs.elim (hus s) (hother s)

theorem inFront (h : IsPieceOf path piece ss) (hus : ∀ u ∈ us, ¬ path <+: u.path) :
    IsPieceOf path piece (ss ++ us) := by
  obtain ⟨before, after, rfl, hother⟩ := h
  refine ⟨before, after ++ us, by simp only [List.append_assoc], fun s hs => ?_⟩
  rw [← List.append_assoc, List.mem_append] at hs
  exact hs.elim (hother s) (hus s)

/-- Lines of an embedded graph, seen from the graph around it. -/
theorem map_inside (h : IsPieceOf path piece ss) (id : Text) :
    IsPieceOf (id :: path) (piece.map (Stroke.inside id)) (ss.map (Stroke.inside id)) := by
  obtain ⟨before, after, rfl, hother⟩ := h
  refine ⟨before.map (Stroke.inside id), after.map (Stroke.inside id), by simp, fun s hs => ?_⟩
  rw [← List.map_append] at hs
  obtain ⟨u, hu, rfl⟩ := List.mem_map.1 hs
  exact fun hprefix => hother u hu (List.cons_prefix_cons.1 hprefix).2

end IsPieceOf

/-- A stroke of an embedded graph, seen from a graph some nodes further out. -/
def Stroke.below (above : List Text) (s : Stroke) : Stroke := { s with path := above ++ s.path }

theorem Stroke.map_below_cons (outer : Text) (above : List Text) (ss : List Stroke) :
    ss.map (below (outer :: above)) = (ss.map (below above)).map (inside outer) := by
  rw [List.map_map]
  rfl

theorem nodesStrokes_append (scope : Text) (ms ns : List (Text × Node)) :
    nodesStrokes scope (ms ++ ns) = nodesStrokes scope ms ++ nodesStrokes scope ns := by
  induction ms with
  | nil => rfl
  | cons m ms ih => rw [List.cons_append, nodesStrokes, nodesStrokes, ih, List.append_assoc]

/-- All that a node draws goes through it. -/
theorem Node.head?_path_of_mem_strokes {n : Node} {scope id : Text} {s : Stroke}
    (h : s ∈ n.strokes scope id) : s.path.head? = some id := by
  rcases mem_strokes.1 h with hown | ⟨g, -, inner, -, rfl⟩
  · obtain ⟨shape, -, rfl⟩ := List.mem_map.1 hown
    rfl
  · rfl

theorem Embedding.strokes_of_graph? {e : Embedding} {g : Graph} (h : e.graph? = some g)
    (scope : Text) : e.strokes scope = g.strokes scope := by
  cases e <;> cases h
  rw [strokes]

section

variable {path : List Text} {piece : List Stroke} {id : Text}

/-- Of nodes with distinct ids, no other draws lines that go through one of them. -/
theorem IsPieceOf.nodesStrokes {ns : List (Text × Node)} (hids : (ns.map (·.1)).Nodup) {n : Node}
    (hn : ns.lookup id = some n) {scope : Text}
    (h : IsPieceOf (id :: path) piece (n.strokes scope id)) :
    IsPieceOf (id :: path) piece (nodesStrokes scope ns) := by
  obtain ⟨ms, ms', rfl, -⟩ := List.lookup_eq_some_iff.1 hn
  rw [List.map_append, List.map_cons, List.nodup_middle, List.nodup_cons, ← List.map_append] at hids
  have hother {us : List (Text × Node)} (hus : us ⊆ ms ++ ms') :
      ∀ s ∈ AgentFlow.nodesStrokes scope us, ¬ id :: path <+: s.path := by
    intro s hs hprefix
    obtain ⟨m, hm, hs⟩ := mem_nodesStrokes.1 hs
    obtain ⟨t, ht⟩ := hprefix
    have hid : id = m.1 := by
      have hhead := Node.head?_path_of_mem_strokes hs
      rwa [← ht, List.cons_append, List.head?_cons, Option.some_inj] at hhead
    exact hids.1 (List.mem_map.2 ⟨m, hus hm, hid.symm⟩)
  rw [nodesStrokes_append, AgentFlow.nodesStrokes]
  exact (h.inFront (hother (List.subset_append_right ms ms'))).behind
    (hother (List.subset_append_left ms ms'))

/-- The lines of the graph inside a node stand in one piece among its lines. -/
theorem IsPieceOf.embedded {n : Node} {inner : Graph} (hinner : n.embedding.graph? = some inner)
    {scope : Text} (hpath : path ≠ [])
    (h : IsPieceOf path piece (inner.strokes (Scope.child (Scope.qualify scope id)))) :
    IsPieceOf (id :: path) (piece.map (Stroke.inside id)) (n.strokes scope id) := by
  have hown : ∀ shape, ¬ id :: path <+: (Node.stroke scope id shape).path := fun shape hprefix =>
    hpath (List.prefix_nil.1 (List.cons_prefix_cons.1 hprefix).2)
  have hedges : ∀ u ∈ (n.edgeShapes scope id ++ [n.shape scope id]).map (Node.stroke scope id),
      ¬ id :: path <+: u.path := by
    intro u hu
    obtain ⟨shape, -, rfl⟩ := List.mem_map.1 hu
    exact hown shape
  have hending : ∀ u ∈ [Node.stroke scope id .ending], ¬ id :: path <+: u.path := by
    intro u hu
    rw [List.mem_singleton.1 hu]
    exact hown .ending
  rw [Node.strokes_of_nested (Node.kind_of_graph? hinner), Embedding.strokes_of_graph? hinner]
  exact ((h.map_inside id).behind hedges).inFront hending

end

namespace Graph

/-- **The lines of a node at any depth stand in one piece**: those that it draws by itself in the
scope of the nodes around it, with the lines of all nodes inside it. -/
theorem isPieceOf_strokes {g : Graph} (hg : g.IdsDistinct) {above : List Text} {id : Text}
    {n : Node} (hn : g.nodeIn? above id = some n) (scope : Text) :
    IsPieceOf (above ++ [id])
      ((n.strokes (Scope.within scope above) id).map (Stroke.below above)) (g.strokes scope) := by
  induction above generalizing g scope with
  | nil =>
    obtain ⟨ns, extra⟩ := g
    rw [IdsDistinct] at hg
    have hwhole : (n.strokes scope id).map (Stroke.below []) = n.strokes scope id := List.map_id _
    rw [strokes, Scope.within, List.flatMap_nil, List.append_nil, hwhole]
    exact (IsPieceOf.refl _ _).nodesStrokes hg.1 hn
  | cons outer above ih =>
    rw [nodeIn?] at hn
    obtain ⟨m, hm, hin⟩ := Option.bind_eq_some_iff.1 hn
    obtain ⟨inner, hinner, hin⟩ := Option.bind_eq_some_iff.1 hin
    have hpiece := ih (hg.embedded hm hinner) hin (Scope.child (Scope.qualify scope outer))
    obtain ⟨ns, extra⟩ := g
    rw [IdsDistinct] at hg
    rw [strokes, Scope.within_cons, Stroke.map_below_cons]
    exact (hpiece.embedded hinner (by simp)).nodesStrokes hg.1 hm

/-- **Every line is drawn by a node of the graph**, and is one of those that the node draws by
itself in the scope of the nodes around it. -/
theorem exists_nodeIn?_of_mem_strokes {g : Graph} (hg : g.IdsDistinct) {scope : Text} {s : Stroke}
    (hs : s ∈ g.strokes scope) :
    ∃ above id n, s.path = above ++ [id] ∧ g.nodeIn? above id = some n ∧
      s.shape ∈ n.ownShapes (Scope.within scope above) id := by
  induction g using Graph.induction generalizing scope s with
  | h g ih =>
    obtain ⟨⟨id, n⟩, hn, hs⟩ := mem_strokes.1 hs
    have hlookup : g.nodes.lookup id = some n := by
      cases g
      rw [IdsDistinct] at hg
      exact lookup_of_mem hg.1 hn
    rcases Node.mem_strokes.1 hs with hown | ⟨inner, hinner, s', hs', rfl⟩
    · obtain ⟨shape, hshape, rfl⟩ := List.mem_map.1 hown
      refine ⟨[], id, n, rfl, hlookup, ?_⟩
      rwa [Scope.within, List.flatMap_nil, List.append_nil]
    · obtain ⟨above, id', m, hpath, hm, hshape⟩ :=
        ih _ hn inner hinner (hg.embedded hlookup hinner) hs'
      refine ⟨id :: above, id', m, congrArg (id :: ·) hpath, ?_, ?_⟩
      · rw [nodeIn?, hlookup, Option.bind_some, hinner, Option.bind_some, hm]
      · rwa [Scope.within_cons]

end Graph

/-- Only a nested node opens or ends a block. -/
theorem Node.kind_of_mem_ownShapes {n : Node} {scope id : Text} {s : Shape}
    (h : s ∈ n.ownShapes scope id) (hs : s.role = .opening ∨ s.role = .ending) :
    n.kind = .nested := by
  refine Decidable.byContradiction fun hk => ?_
  rw [ownShapes, if_neg hk, List.append_nil, List.mem_cons] at h
  rcases h with rfl | h
  · rw [role_shape_of_not_nested hk] at hs
    rcases hs with hs | hs <;> cases hs
  · rw [role_of_mem_edgeShapes h] at hs
    rcases hs with hs | hs <;> cases hs

/-! ## Blocks -/

/-- Whether some lines are the block of a nested node in a scope, with the edges to the node in
front of it. -/
structure IsBlock (scope : Text) (above : List Text) (id : Text) (n : Node) (arrows : List Stroke)
    (opening : Stroke) (inner : List Stroke) (ending : Stroke) : Prop where
  arrows_text : arrows.map Stroke.text = edges n.dependencies (Scope.qualify scope id) scope
  arrows_role : ∀ s ∈ arrows, s.path = above ++ [id] ∧ s.shape.role = .edge
  opening_eq : opening = ⟨above ++ [id], Scope.depth scope + 1,
    .opening (Scope.qualify scope id) id (agentLabel (n.agent?.getD .null))⟩
  inner_text : inner.map Stroke.text = n.embedding.graph?.elim [] fun g =>
    (g.fragment (Scope.child (Scope.qualify scope id))).lines
  inner_path : ∀ s ∈ inner, above ++ [id] <+: s.path ∧ s.path ≠ above ++ [id]
  ending_eq : ending = ⟨above ++ [id], opening.indent, .ending⟩

theorem Stroke.map_text_below (above : List Text) (ss : List Stroke) :
    (ss.map (below above)).map text = ss.map text := by
  rw [List.map_map]
  rfl

theorem Stroke.map_text_inside (id : Text) (ss : List Stroke) :
    (ss.map (inside id)).map text = ss.map text := by
  rw [List.map_map]
  rfl

theorem Embedding.path_ne_nil_of_mem_strokes {e : Embedding} {scope : Text} {s : Stroke}
    (h : s ∈ e.strokes scope) : s.path ≠ [] := by
  obtain ⟨g, -, hs⟩ := mem_strokes.1 h
  exact Graph.path_ne_nil_of_mem_strokes hs

theorem Embedding.map_text_strokes (e : Embedding) (scope : Text) :
    (e.strokes scope).map Stroke.text = e.graph?.elim [] fun g => (g.fragment scope).lines := by
  cases e with
  | graph g => exact (g.lines_eq_strokes scope).symm
  | _ => rfl

theorem Node.map_text_edgeShapes (n : Node) (scope id : Text) :
    ((n.edgeShapes scope id).map (stroke scope id)).map Stroke.text
      = edges n.dependencies (Scope.qualify scope id) scope := by
  rw [← map_text_arrows, arrows_eq_strokes, List.map_map (g := DrawnLine.text)]
  rfl

/-- The lines of a nested node are its block. -/
theorem Node.exists_isBlock {n : Node} (hk : n.kind = .nested) (scope : Text) (above : List Text)
    (id : Text) : ∃ arrows opening inner ending,
      (n.strokes scope id).map (Stroke.below above) = arrows ++ [opening] ++ inner ++ [ending] ∧
      IsBlock scope above id n arrows opening inner ending := by
  refine ⟨((n.edgeShapes scope id).map (stroke scope id)).map (Stroke.below above),
    (stroke scope id (n.shape scope id)).below above,
    ((n.embedding.strokes (Scope.child (Scope.qualify scope id))).map (Stroke.inside id)).map
      (Stroke.below above),
    (stroke scope id .ending).below above, ?_, ?_⟩
  · rw [strokes_of_nested hk]
    simp only [List.map_append, List.map_cons, List.map_nil]
  · exact
      { arrows_text := by rw [Stroke.map_text_below, map_text_edgeShapes]
        arrows_role := by
          intro s hs
          rw [List.map_map] at hs
          obtain ⟨shape, hshape, rfl⟩ := List.mem_map.1 hs
          exact ⟨rfl, role_of_mem_edgeShapes hshape⟩
        opening_eq := by
          rw [shape, hk]
          rfl
        inner_text := by
          rw [Stroke.map_text_below, Stroke.map_text_inside, Embedding.map_text_strokes]
        inner_path := by
          intro s hs
          rw [List.map_map] at hs
          obtain ⟨inner, hinner, rfl⟩ := List.mem_map.1 hs
          have hne := Embedding.path_ne_nil_of_mem_strokes hinner
          have hpath : (Stroke.below above (Stroke.inside id inner)).path
              = (above ++ [id]) ++ inner.path := (List.append_assoc above [id] inner.path).symm
          rw [Function.comp_apply, hpath]
          exact ⟨List.prefix_append _ _, fun heq => hne (by simpa using heq)⟩
        ending_eq := rfl }

/-- **The blocks of a fragment.** Read from the first line to the last, the lines of a graph never
end a block but the innermost one that is open, by a line of the node that opened it which is
indented alike, and none is left open. Only the end of a block is a line of blanks and the word
`end`, and only nested nodes open and end blocks. The lines of a nested node at any depth stand in
one piece: the edges to it, one line that opens its block, the lines of the graph inside it, none if
it has no such graph, and one line that ends the block. What is in front of this piece and behind it
is drawn by other nodes. -/
theorem blocks_well_bracketed {v : Value} {g : Graph} (h : Graph.check v = .ok g) (scope : Text) :
    (g.fragment scope).lines = (g.strokes scope).map Stroke.text ∧
      openBlocks [] (g.strokes scope) = some [] ∧
      (∀ s ∈ g.strokes scope, IsEndLine s.text ↔ s.shape = .ending) ∧
      (∀ s ∈ g.strokes scope, s.shape.role = .opening ∨ s.shape.role = .ending →
        ∃ above id n, s.path = above ++ [id] ∧ g.nodeIn? above id = some n ∧ n.kind = .nested) ∧
      ∀ above id n, g.nodeIn? above id = some n → n.kind = .nested →
        ∃ before arrows opening inner ending after,
          g.strokes scope = before ++ (arrows ++ [opening] ++ inner ++ [ending]) ++ after ∧
          IsBlock (Scope.within scope above) above id n arrows opening inner ending ∧
          ∀ s ∈ before ++ after, ¬ above ++ [id] <+: s.path := by
  obtain rfl := (Graph.check_eq_ok_iff.1 h).2
  have hdistinct := idsDistinct_ofValue v
  refine ⟨Graph.lines_eq_strokes _ scope, (Graph.wellBracketed_strokes scope _).openBlocks_eq [],
    fun s _ => s.isEndLine_iff, fun s hs hrole => ?_, fun above id n hn hk => ?_⟩
  · obtain ⟨above, id, n, hpath, hn, hshape⟩ := Graph.exists_nodeIn?_of_mem_strokes hdistinct hs
    exact ⟨above, id, n, hpath, hn, Node.kind_of_mem_ownShapes hshape hrole⟩
  · obtain ⟨before, after, heq, hother⟩ := Graph.isPieceOf_strokes hdistinct hn scope
    obtain ⟨arrows, opening, inner, ending, hown, hblock⟩ :=
      Node.exists_isBlock hk (Scope.within scope above) above id
    exact ⟨before, arrows, opening, inner, ending, after, hown ▸ heq, hblock, hother⟩

/-- Nodes with the name of the word that ends a block, and a block without a graph. -/
def endDocument : Value :=
  .map [(.str "nodes", .map [
    (.str "end", .map [(.str "inputs", .str ":end"),
      (.str "graph", .map [(.str "nodes", .map [(.str "end", .null)])])]),
    (.str "ref", .map [(.str "graph", .str ":end")])])]

theorem blocks_of_endDocument :
    Graph.check endDocument = .ok (Graph.ofValue endDocument) ∧
      ((Graph.ofValue endDocument).strokes []).map Stroke.text
        = [Text.ofString " end --> end",
          Text.ofString " subgraph end[end: <span class=\"agent-name\"></span>]",
          Text.ofString "  end.end(end)", Text.ofString " end", Text.ofString " end --> ref",
          Text.ofString " subgraph ref[ref: <span class=\"agent-name\"></span>]",
          Text.ofString " end"] ∧
      openBlocks [] ((Graph.ofValue endDocument).strokes []) = some [] ∧
      ∃ before arrows opening inner ending after,
        (Graph.ofValue endDocument).strokes []
          = before ++ (arrows ++ [opening] ++ inner ++ [ending]) ++ after ∧
        opening.path = [Text.ofString "end"] ∧
        inner.map Stroke.text = [Text.ofString "  end.end(end)"] ∧
        ending.text = Text.ofString " end" := by
  have hcheck : Graph.check endDocument = .ok (Graph.ofValue endDocument) := rfl
  obtain ⟨-, hopen, -, -, hnested⟩ := blocks_well_bracketed hcheck []
  obtain ⟨before, arrows, opening, inner, ending, after, heq, hblock, -⟩ :=
    hnested [] "end" _ rfl rfl
  obtain ⟨-, -, rfl, hinner, -, rfl⟩ := hblock
  exact ⟨hcheck, by decide +kernel, hopen, before, arrows, _, inner, _, after, heq, rfl,
    hinner.trans (by decide +kernel), by decide +kernel⟩

end AgentFlow
