import AgentFlow.Proofs.Graph.Texts
import AgentFlow.Proofs.Value.Sendable

/-!
# Flowcharts that can be sent

A flowchart shows the ids of nodes, the agents and the references as they are, and everything else
as a value inside another. So it can be sent just if these texts can.

* `Graph.isDrawable`: a graph whose ids, agents and references can be sent.
* `Graph.isDrawable_eq_all`: this is the case just if all points of its texts can be sent.
* `Graph.isSendable_flowchart`: when a flowchart can be sent.
-/

namespace AgentFlow

/-- Whether a source is drawn as no edge, or as one that can be sent. -/
def DataSource.isSendable : DataSource → Bool
  | .literal _ => true
  | .node id path => id.isEmpty || (id.isSendable && path.all Text.isSendable)

mutual

/-- Whether the texts that a flowchart shows of a graph can be sent. -/
def Graph.isDrawable : Graph → Bool
  | .mk nodes _ => nodesDrawable nodes

/-- `Graph.isDrawable` for nodes with their ids. -/
def nodesDrawable : List (Text × Node) → Bool
  | [] => true
  | (id, node) :: rest => id.isSendable && Node.isDrawable node && nodesDrawable rest

/-- Whether the agent of a node, if it is a text, its references and its graph can be sent. -/
def Node.isDrawable : Node → Bool
  | .mk agent inputs update graph extra =>
    (agent.bind Value.text?).all Text.isSendable
      && (DataSource.inside (Node.mk agent inputs update graph extra).dependencies).all
        DataSource.isSendable
      && Embedding.isDrawable graph

/-- `Graph.isDrawable` for what a node embeds. -/
def Embedding.isDrawable : Embedding → Bool
  | .graph g => Graph.isDrawable g
  | .absent => true
  | .reference _ => true
  | .unusable => true

end

/-! ## Points -/

theorem DataSource.isSendable_eq_all (source : DataSource) :
    source.isSendable = source.drawnTexts.all (List.all · CodePoint.isSendable) := by
  cases source with
  | literal v => rfl
  | node id path =>
    rw [isSendable, drawnTexts, Text.isSendable_eq_all]
    cases id <;> rfl

mutual

/-- A graph can be drawn just if the points of its texts can be sent. -/
theorem Graph.isDrawable_eq_all :
    ∀ g : Graph, g.isDrawable = g.everyNode.all (allPointsAt CodePoint.isSendable)
  | .mk nodes _ => by
    rw [Graph.isDrawable, Graph.everyNode]
    exact nodesDrawable_eq_all nodes

theorem nodesDrawable_eq_all : ∀ ns : List (Text × Node),
    nodesDrawable ns = (everyNodeOf ns).all (allPointsAt CodePoint.isSendable)
  | [] => rfl
  | (id, node) :: rest => by
    rw [nodesDrawable, everyNodeOf, List.all_append, Node.isDrawable_eq_all id node,
      nodesDrawable_eq_all rest]

theorem Node.isDrawable_eq_all (id : Text) : ∀ n : Node, (id.isSendable && n.isDrawable)
      = (n.everyNode id).all (allPointsAt CodePoint.isSendable)
  | .mk agent inputs update graph extra => by
    cases hid : id.isSendable with
    | false =>
      have hnode : allPointsAt CodePoint.isSendable ([id], .mk agent inputs update graph extra)
          = false := by
        rw [Text.isSendable_eq_all] at hid
        simp [allPointsAt, hid, -List.all_eq_false]
      rw [Node.everyNode, List.all_cons, hnode]
      rfl
    | true =>
      have hagent : (agent.bind Value.text?).all Text.isSendable
          = (agent.bind Value.text?).toList.all (List.all · CodePoint.isSendable) := by
        cases agent.bind Value.text? with
        | none => rfl
        | some t => exact (Bool.and_true _).symm
      have hreferences : DataSource.isSendable
          = fun source => source.drawnTexts.all (List.all · CodePoint.isSendable) :=
        funext DataSource.isSendable_eq_all
      rw [Text.isSendable_eq_all] at hid
      rw [Node.all_everyNode hid, Node.isDrawable, Node.ownTexts, Node.embedding, Node.agent?,
        List.all_append, List.all_flatMap, hagent, hreferences, Embedding.isDrawable_eq_all graph,
        Bool.true_and]

theorem Embedding.isDrawable_eq_all :
    ∀ e : Embedding, e.isDrawable = e.everyNode.all (allPointsAt CodePoint.isSendable)
  | .graph g => by
    rw [Embedding.isDrawable, Embedding.everyNode]
    exact Graph.isDrawable_eq_all g
  | .absent => rfl
  | .reference _ => rfl
  | .unusable => rfl

end

/-- **When a flowchart can be sent.** A flowchart can be sent just if the ids, the agents that are
texts and the references of its graph can. -/
theorem Graph.isSendable_flowchart (g : Graph) : g.flowchart.isSendable = g.isDrawable := by
  have hpoints : (g.fragment []).allPoints CodePoint.isSendable = _ :=
    g.all_fragment (fun _ => CodePoint.isSendable_of_isPrintable) rfl
  have hlines := (g.fragment []).all_lines fun _ => CodePoint.isSendable_of_isPrintable
  rw [g.isDrawable_eq_all, ← hpoints, ← hlines, ← Text.isSendable_eq_all, flowchart]
  simp

end AgentFlow
