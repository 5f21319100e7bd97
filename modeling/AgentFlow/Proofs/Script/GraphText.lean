import AgentFlow.Proofs.Graph.Flowchart
import AgentFlow.Proofs.Graph.PlainGraph
import AgentFlow.Proofs.Json.RoundTrip
import AgentFlow.Proofs.Script.Naming
import AgentFlow.Script.GraphLiteral

/-!
# The text of a graph in a script

The graph around a position of a script is handed on as JSON text, and a flowchart is drawn from
that text. Nothing is lost on the way: the text reads as the value of the literal, the value is a
graph, and the flowchart of the text is the flowchart of that graph.

* `firstGraph_spec`: the value that is found belongs to one of the literals.
* `graph_text_loses_nothing`: what the text stands for.
-/

namespace AgentFlow.Script

/-- The value that is found belongs to one of the nodes, and looks like a graph. -/
theorem firstGraph_spec {s : Script} {ts : List Tree} {v : Value}
    (h : s.firstGraph ts = .ok (some v)) :
    ∃ t ∈ ts, s.value t = .ok v ∧ looksLikeGraph v = true := by
  induction ts with
  | nil => cases h
  | cons t ts ih =>
    rw [firstGraph] at h
    cases hv : s.value t with
    | error e =>
      rw [hv] at h
      cases h
    | ok w =>
      simp only [hv, Bind.bind, Except.bind] at h
      split at h
      case isTrue hlooks =>
        obtain rfl := Option.some.inj (Except.ok.inj h)
        exact ⟨t, List.mem_cons_self, hv, hlooks⟩
      case isFalse =>
        obtain ⟨u, hu, hspec⟩ := ih h
        exact ⟨u, List.mem_cons_of_mem _ hu, hspec⟩

theorem graphAt?_spec {s : Script} {p : Position} {text : Text} (h : s.graphAt? p = some text) :
    ∃ v, s.firstGraph (s.objectsAround p) = .ok (some v) ∧
      Json.write? (.indented 2) v = some text := by
  unfold graphAt? at h
  split at h
  case h_1 v hv => exact ⟨v, hv, h⟩
  case h_2 => cases h

theorem isShowable_of_write? {layout : Json.Layout} {v : Value} {text : Text}
    (h : Json.write? layout v = some text) : v.isShowable = true := by
  unfold Json.write? at h
  split at h
  case isTrue hs => exact hs
  case isFalse => cases h

/-- A text that reads as JSON has the flowchart of the graph that its value describes. -/
theorem flowchartOf_json {text : Text} {v : Value} {g : Graph} (h : Json.read text = .ok v)
    (hg : Graph.check v = .ok g) : flowchartOf "json" text = g.flowchart? := by
  have hload : Graph.load "json" text = .ok g := by
    rw [Graph.load, valueOfText, if_neg (by decide), h]
    simp only [Except.mapError, Bind.bind, Except.bind, hg]
  have hend : drawsForever "json" text = false := drawsForever_of_ne (by decide) text
  rw [flowchartOf, if_pos (by decide), hload]
  simp [Bind.bind, Except.bind, hend]

/-- **From a script over JSON to a flowchart nothing is lost.** The text of the graph around a
position is written from the value of one of the object literals there, reads as exactly that
value, and has the flowchart of the graph that the value describes. -/
theorem graph_text_loses_nothing {s : Script} {p : Position} {text : Text}
    (h : s.graphAt? p = some text) :
    ∃ t ∈ s.objectsAround p, ∃ v, s.value t = .ok v ∧ looksLikeGraph v = true ∧
      s.firstGraph (s.objectsAround p) = .ok (some v) ∧
      Json.write? (.indented 2) v = some text ∧ Json.read text = .ok v ∧
      ∃ g, Graph.check v = .ok g ∧ g.flowchart? = .ok g.flowchart ∧
        flowchartOf "json" text = .ok g.flowchart := by
  obtain ⟨v, hfirst, hwrite⟩ := graphAt?_spec h
  obtain ⟨t, ht, hv, hlooks⟩ := firstGraph_spec hfirst
  have hplain : v.IsPlain := convert_isPlain hv
  have hread := Json.read_write hplain hwrite
  obtain ⟨g, hcheck, hflow⟩ := flowchart?_of_isPlain hplain (isShowable_of_write? hwrite)
  exact ⟨t, ht, v, hv, hlooks, hfirst, hwrite, hread, g, hcheck, hflow,
    (flowchartOf_json hread hcheck).trans hflow⟩

/-- The value of `agentLiteral`: a graph with one node, which an agent computes. -/
def agentGraph : Value :=
  .map [(.str "nodes", .map [(.str "a", .map [(.str "agent", .str "x")])])]

/-- A node that an agent computes. -/
def agentNode : Tree :=
  .node .object 22 34 "\x7bagent: \"x\"\x7d".toList
    [(.plain, pairOf (leafAt .propertyName 23 "agent".toList)
      (.node .string 30 33 "\"x\"".toList [(.plain, leafAt .fragment 31 ['x'])]))]

/-- The nodes of a graph. -/
def agentNodes : Tree :=
  .node .object 18 35 "\x7ba: \x7bagent: \"x\"\x7d\x7d".toList
    [(.plain, pairOf (leafAt .propertyName 19 ['a']) agentNode)]

/-- A graph literal with one node. -/
def agentLiteral : Tree :=
  .node .object 10 36 "\x7bnodes: \x7ba: \x7bagent: \"x\"\x7d\x7d\x7d".toList
    [(.plain, pairOf (leafAt .propertyName 11 "nodes".toList) agentNodes)]

def agentScript : Script where
  chars := "const g = \x7bnodes: \x7ba: \x7bagent: \"x\"\x7d\x7d\x7d;".toList
  root := .node .other 0 37 "const g = \x7bnodes: \x7ba: \x7bagent: \"x\"\x7d\x7d\x7d;".toList [
    (.plain, .node .other 0 36 "const g = \x7bnodes: \x7ba: \x7bagent: \"x\"\x7d\x7d\x7d".toList [
      (.plain, .node .declarator 6 36 "g = \x7bnodes: \x7ba: \x7bagent: \"x\"\x7d\x7d\x7d".toList [
        (.name, leafAt .identifier 6 ['g']), (.value, agentLiteral)])])]

theorem firstGraph_agentScript :
    agentScript.firstGraph [agentNode, agentNodes, agentLiteral] = .ok (some agentGraph) := by
  have hnode : agentScript.value agentNode = .ok (.map [(.str "agent", .str "x")]) :=
    answer_of_run (n := 10) (c := ⟨[], .node agentNode⟩) rfl
  have hnodes : agentScript.value agentNodes
      = .ok (.map [(.str "a", .map [(.str "agent", .str "x")])]) :=
    answer_of_run (n := 10) (c := ⟨[], .node agentNodes⟩) rfl
  have hliteral : agentScript.value agentLiteral = .ok agentGraph :=
    answer_of_run (n := 10) (c := ⟨[], .node agentLiteral⟩) rfl
  simp only [firstGraph, hnode, hnodes, hliteral]
  rfl

/-- The text of the graph around a place in its only node. -/
def agentText : Text :=
  "\x7b\n  \"nodes\": \x7b\n    \"a\": \x7b\n      \"agent\": \"x\"\n    \x7d\n  \x7d\n\x7d"

/-- From the middle of a node to the flowchart of its graph. -/
theorem graph_text_of_agentScript :
    Script.ofChars agentScript.chars = agentScript ∧
      agentScript.graphAt? ⟨0, 24⟩ = some agentText ∧
      (∃ t ∈ agentScript.objectsAround ⟨0, 24⟩, agentScript.value t = .ok agentGraph) ∧
      Json.read agentText = .ok agentGraph ∧
      flowchartOf "json" agentText = .ok ("flowchart TD\n"
        ++ " a(a<br/><span class=\"agent-name\">x</span>)\nclass a computedNode") := by
  have hobjects : agentScript.objectsAround ⟨0, 24⟩ = [agentNode, agentNodes, agentLiteral] := rfl
  have hfirst := firstGraph_agentScript
  rw [← hobjects] at hfirst
  have hgraph : agentScript.graphAt? ⟨0, 24⟩ = some agentText := by
    rw [graphAt?, hfirst]
    rfl
  have hcheck : Graph.check agentGraph = .ok
      (.mk [("a", .mk (some (.str "x")) none none .absent [])] []) := rfl
  obtain ⟨t, ht, v, hv, -, hfirst', -, hread, g, hg, -, hflow⟩ := graph_text_loses_nothing hgraph
  obtain rfl := Option.some.inj (Except.ok.inj (hfirst.symm.trans hfirst'))
  obtain rfl := Except.ok.inj (hcheck.symm.trans hg)
  exact ⟨rfl, hgraph, ⟨t, ht, hv⟩, hread, hflow⟩

end AgentFlow.Script
