import AgentFlow.Proofs.Graph.ClassLines
import AgentFlow.Proofs.Graph.Flowchart
import AgentFlow.Proofs.Graph.Reference
import AgentFlow.Proofs.Graph.Texts
import Mathlib.Algebra.Ring.Nat

/-!
# How many lines a flowchart has

Besides its header a flowchart draws one line for each node, one more for each nested one, one for
each edge, and one for each kind that some node is of. Ids and agents are drawn as they are, and a
line feed in one of them ends the line. So a flowchart has as many lines as it draws just if no id
and no agent has a line feed; a reference never has one.

* `Graph.lineCount`: the number of lines that a flowchart draws.
* `Graph.length_lines_flowchart`: it has so many lines, and one more for each line feed in them.
* `DataSource.lineFeed_not_mem`: no edge shows a line feed.
* `allPointsAt_isInline_iff`: when nothing that is drawn of a node has a line feed.
* `flowchart_lines_iff`: when a flowchart has the lines that it draws, and no more.
-/

namespace AgentFlow

/-! ## Lines that are drawn -/

/-- Whether a source is drawn as an edge. -/
def DataSource.isDrawn : DataSource → Bool
  | .literal _ => false
  | .node id _ => !id.isEmpty

/-- The number of edges to a node. -/
def Node.edgeCount (n : Node) : Nat :=
  (DataSource.inside n.dependencies).countP DataSource.isDrawn

/-- The number of lines that draw a node and the edges to it. -/
def Node.lineCount (n : Node) : Nat := n.edgeCount + if n.kind = .nested then 2 else 1

namespace Graph

/-- The number of nodes of a kind in a graph and in the graphs embedded in it. -/
def kindCount (kind : NodeKind) (g : Graph) : Nat := g.everyNode.countP fun m => m.2.kind = kind

/-- The number of edges of a graph and of the graphs embedded in it. -/
def edgeCount (g : Graph) : Nat := (g.everyNode.map fun m => m.2.edgeCount).sum

/-- The number of kinds that some node is of. -/
def classCount (g : Graph) : Nat :=
  NodeKind.inOrder.countP fun kind => 0 < g.kindCount kind

/-- The number of lines that the flowchart of a graph draws. -/
def lineCount (g : Graph) : Nat :=
  1 + g.kindCount .static + g.kindCount .computed + 2 * g.kindCount .nested + g.edgeCount
    + g.classCount

end Graph

theorem length_edges (dependencies : Value) (target scope : Text) :
    (edges dependencies target scope).length
      = (DataSource.inside dependencies).countP DataSource.isDrawn := by
  rw [edges, List.length_filterMap_eq_countP]
  refine congrFun (congrArg _ (funext fun source => ?_)) _
  cases source with
  | literal v => rfl
  | node id path => cases id <;> rfl

theorem Node.sum_everyNode (n : Node) (id : Text) :
    ((n.everyNode id).map fun m => m.2.lineCount).sum
      = n.lineCount + (n.embedding.everyNode.map fun m => m.2.lineCount).sum := by
  rw [everyNode_eq, List.map_cons, List.sum_cons, List.map_map]
  rfl

mutual

/-- The fragment of a graph draws the lines of its nodes. -/
theorem Graph.length_lines_fragment (scope : Text) : ∀ g : Graph,
    (g.fragment scope).lines.length = (g.everyNode.map fun m => m.2.lineCount).sum
  | .mk nodes _ => by
    rw [Graph.fragment, Graph.everyNode]
    exact nodes_length_lines_fragment scope nodes

theorem nodes_length_lines_fragment (scope : Text) : ∀ ns : List (Text × Node),
    (nodesFragment scope ns).lines.length = ((everyNodeOf ns).map fun m => m.2.lineCount).sum
  | [] => rfl
  | (id, node) :: rest => by
    rw [nodesFragment, everyNodeOf, Fragment.lines_append, List.length_append, List.map_append,
      List.sum_append, Node.length_lines_fragment scope id node,
      nodes_length_lines_fragment scope rest]

theorem Node.length_lines_fragment (scope id : Text) : ∀ n : Node,
    (n.fragment scope id).lines.length = ((n.everyNode id).map fun m => m.2.lineCount).sum
  | .mk agent inputs update graph extra => by
    have hedges := length_edges (Node.mk agent inputs update graph extra).dependencies
      (Scope.qualify scope id) scope
    have hleaf (hk : (Node.mk agent inputs update graph extra).kind ≠ .nested) :
        graph.everyNode = [] := Node.everyNode_embedding hk
    rw [Node.sum_everyNode, Node.lineCount, Node.edgeCount, ← hedges, Node.embedding,
      Node.fragment]
    split
    case h_1 hkind =>
      have hinner :=
        Embedding.length_lines_fragment (Scope.child (Scope.qualify scope id)) graph
      simp [hkind, hinner]
      omega
    case h_2 hkind => simp [hkind, hleaf (by simp [hkind])]
    case h_3 hkind => simp [hkind, hleaf (by simp [hkind])]

theorem Embedding.length_lines_fragment (scope : Text) : ∀ e : Embedding,
    (e.fragment scope).lines.length = (e.everyNode.map fun m => m.2.lineCount).sum
  | .graph g => by
    rw [Embedding.fragment, Embedding.everyNode]
    exact Graph.length_lines_fragment scope g
  | .absent => rfl
  | .reference _ => rfl
  | .unusable => rfl

end

/-- The lines of all nodes, counted by what they draw. -/
theorem Graph.sum_lineCount (g : Graph) : (g.everyNode.map fun m => m.2.lineCount).sum
    = g.kindCount .static + g.kindCount .computed + 2 * g.kindCount .nested + g.edgeCount := by
  rw [kindCount, kindCount, kindCount, edgeCount]
  induction g.everyNode with
  | nil => rfl
  | cons m ms ih =>
    rw [List.map_cons, List.sum_cons, ih, List.map_cons, List.sum_cons, Node.lineCount]
    cases hkind : m.2.kind <;> simp [hkind] <;> omega

theorem Graph.length_idsOf (g : Graph) (scope : Text) (kind : NodeKind) :
    (idsOf kind (Place.drawn scope g.places)).length = g.kindCount kind := by
  rw [idsOf, List.length_map, ← List.countP_eq_length_filter, g.places_eq_map, Place.drawn,
    List.map_map, List.countP_map, kindCount]
  rfl

theorem Graph.length_classLines (g : Graph) (scope : Text) :
    (g.fragment scope).classLines.length = g.classCount := by
  rw [(g.groups_places scope).classLines_eq, List.length_map, ← List.countP_eq_length_filter,
    classCount]
  refine List.countP_congr fun kind _ => ?_
  rw [decide_eq_true_eq, decide_eq_true_eq, ← g.length_idsOf scope kind, List.length_pos_iff]

/-- A flowchart has the lines that it draws, and one more for each line feed in one of them. -/
theorem Graph.length_lines_flowchart (g : Graph) : (Text.lines g.flowchart).length
    = g.lineCount
      + ((g.fragment []).lines ++ (g.fragment []).classLines).flatten.count (.char '\n') := by
  have hheader : (Text.ofString "flowchart TD").count (.char '\n') = 0 := by decide
  rw [flowchart, List.cons_append, Text.length_lines_join (List.cons_ne_nil _ _), List.length_cons,
    List.length_append, g.length_lines_fragment, g.sum_lineCount, g.length_classLines,
    List.flatten_cons, List.count_append, hheader, lineCount]
  omega

/-! ## Line feeds -/

/-- Whether a code point stays on its line. -/
def CodePoint.isInline (p : CodePoint) : Bool := p ≠ .char '\n'

theorem CodePoint.isInline_of_isPrintable {p : CodePoint} (h : p.isPrintable = true) :
    p.isInline = true := by
  rw [isInline, decide_eq_true_eq]
  rintro rfl
  cases h

theorem Text.all_isInline_iff {t : Text} :
    t.all CodePoint.isInline = true ↔ .char '\n' ∉ t := all_ne_iff

namespace DataSource

theorem mem_segments_of_mem_drawnTexts {body t : Text} (h : t ∈ (ofBody body).drawnTexts) :
    t ∈ segments false body := by
  unfold ofBody at h
  split at h
  · cases h
  case h_2 hsegments =>
    rw [drawnTexts] at h
    split at h
    · cases h
    · rwa [hsegments]

/-- **No edge shows a line feed**: a reference has none. -/
theorem lineFeed_not_mem {v : Value} {source : DataSource} (h : source ∈ inside v) {t : Text}
    (ht : t ∈ source.drawnTexts) : .char '\n' ∉ t := by
  obtain ⟨w, rfl⟩ := exists_ofValue_of_mem_inside h
  unfold ofValue at ht
  split at ht
  case h_1 =>
    split at ht
    case h_1 body hbody =>
      have hall := Text.all_isInline_iff.2 (lineFeed_not_mem_referenceBody? hbody)
      rw [← join_segments false body, Text.all_join (by decide), List.all_eq_true] at hall
      exact Text.all_isInline_iff.1 (hall t (mem_segments_of_mem_drawnTexts ht))
    case h_2 => cases ht
  case h_2 => cases ht

end DataSource

/-- A node of which no id down to it, nor its agent, has a line feed. -/
def IsOneLine (m : List Text × Node) : Prop :=
  (∀ id ∈ m.1, .char '\n' ∉ id) ∧ ∀ t, m.2.agent? = some (.str t) → .char '\n' ∉ t

theorem allPointsAt_isInline_iff {m : List Text × Node} :
    allPointsAt CodePoint.isInline m = true ↔ IsOneLine m := by
  have hreferences (n : Node) : ((DataSource.inside n.dependencies).flatMap
      DataSource.drawnTexts).all (List.all · CodePoint.isInline) = true := by
    refine List.all_eq_true.2 fun t ht => Text.all_isInline_iff.2 ?_
    obtain ⟨source, hsource, ht⟩ := List.mem_flatMap.1 ht
    exact DataSource.lineFeed_not_mem hsource ht
  rw [allPointsAt, Node.ownTexts, List.all_append, hreferences, Bool.and_true, Bool.and_eq_true,
    List.all_eq_true, IsOneLine]
  refine and_congr (forall₂_congr fun _ _ => Text.all_isInline_iff) ?_
  cases m.2.agent? with
  | none => simp
  | some v => cases v <;> simp [Value.text?, -List.all_eq_true, Text.all_isInline_iff]

/-- **When a flowchart has the lines that it draws.** A text that is drawn is a graph, and its
flowchart has at least one line for the header, each static and each computed node, each edge and
each class, and two for each nested node. It has no other lines just if there is no line feed in the
id of a node, at any depth, or in an agent that is a text. -/
theorem flowchart_lines_iff {language text chart : Text}
    (hlanguage : isGraphLanguage language = true) (h : flowchartOf language text = .ok chart) :
    ∃ g, Graph.load language text = .ok g ∧ g.lineCount ≤ (Text.lines chart).length ∧
      ((Text.lines chart).length = g.lineCount ↔ ∀ m ∈ g.everyNode, IsOneLine m) := by
  rcases flowchartOf_eq_ok_iff.1 h with ⟨hother, -⟩ | ⟨-, g, hload, -, -, rfl⟩
  · rw [hlanguage] at hother
    cases hother
  · have hpoints : (g.fragment []).allPoints CodePoint.isInline = _ :=
      g.all_fragment (fun _ => CodePoint.isInline_of_isPrintable) rfl
    have hlines := (g.fragment []).all_lines fun _ => CodePoint.isInline_of_isPrintable
    refine ⟨g, hload, ?_, ?_⟩
    · rw [g.length_lines_flowchart]
      exact Nat.le_add_right _ _
    · rw [g.length_lines_flowchart, Nat.add_eq_left, Text.count_flatten_eq_zero_iff]
      simp only [← Text.all_isInline_iff, ← allPointsAt_isInline_iff]
      rw [← List.all_eq_true, hlines, hpoints, List.all_eq_true]

/-- Nodes of all kinds, one of them with two edges and one with an edge from a nested node. -/
def rowsText : Text :=
  "nodes: \x7ba: \x7bgraph: \x7bnodes: \x7bb: \x7bagent: x, inputs: [\":c\", \":c.d\"]\x7d, "
    ++ "c: \x7b\x7d\x7d\x7d\x7d, e: \x7bupdate: \":a\"\x7d\x7d"

theorem rowsText_lines : isGraphLanguage "yaml" = true ∧
    ∃ chart, flowchartOf "yaml" rowsText = .ok chart ∧ (Text.lines chart).length = 12 := by
  have hlanguage : isGraphLanguage "yaml" = true := by decide
  have hread : ((Graph.load "yaml" rowsText).toOption.any fun g => g.isShowable
      && g.everyNode.all (allPointsAt CodePoint.isInline) && g.lineCount == 12) = true := by
    decide +kernel
  obtain ⟨g, hload, hg⟩ := exists_ok_of_any_toOption hread
  rw [Bool.and_eq_true, Bool.and_eq_true, beq_iff_eq, List.all_eq_true] at hg
  obtain ⟨⟨hshown, hnodes⟩, hcount⟩ := hg
  have hend : drawsForever "yaml" rowsText = false := by decide +kernel
  have hdraw := flowchartOf_eq_ok_iff.2 (.inr ⟨hlanguage, g, hload, hend, hshown, rfl⟩)
  obtain ⟨g', hload', -, hiff⟩ := flowchart_lines_iff hlanguage hdraw
  obtain rfl : g = g' := Except.ok.inj (hload.symm.trans hload')
  refine ⟨hlanguage, g.flowchart, hdraw, ?_⟩
  rw [hiff.2 fun m hm => allPointsAt_isInline_iff.1 (hnodes m hm), hcount]

/-- A node with an agent of two lines. -/
def twoLineText : Text := "\x7b\"nodes\": \x7b\"a\": \x7b\"agent\": \"x\\ny\"\x7d\x7d\x7d"

/-- A line feed in an agent adds a line. -/
theorem twoLineText_adds_line : ∃ g chart, Graph.load "json" twoLineText = .ok g ∧
    flowchartOf "json" twoLineText = .ok chart ∧ g.lineCount = 3 ∧
    Text.lines chart = ["flowchart TD", " a(a<br/><span class=\"agent-name\">x", "y</span>)",
      "class a computedNode"] := by
  have hread : ((Graph.load "json" twoLineText).toOption.any fun g => g.isShowable
      && g.lineCount == 3
      && Text.lines g.flowchart == ["flowchart TD", " a(a<br/><span class=\"agent-name\">x",
        "y</span>)", "class a computedNode"]) = true := by
    decide +kernel
  obtain ⟨g, hload, hg⟩ := exists_ok_of_any_toOption hread
  rw [Bool.and_eq_true, Bool.and_eq_true, beq_iff_eq, beq_iff_eq] at hg
  obtain ⟨⟨hshown, hcount⟩, hlines⟩ := hg
  have hend : drawsForever "json" twoLineText = false := drawsForever_of_ne (by decide) _
  exact ⟨g, g.flowchart, hload,
    flowchartOf_eq_ok_iff.2 (.inr ⟨by decide, g, hload, hend, hshown, rfl⟩), hcount, hlines⟩

end AgentFlow
