import AgentFlow.Graph.Document
import AgentFlow.Proofs.Graph.Raw
import AgentFlow.Proofs.Value.Plain

/-!
# Graphs of plain values

The one thing that a document can get wrong about its graph is a key that is no proper text, and a
plain value has none. So each plain value is a graph, and if its integers can be shown the graph
has a flowchart.

* `problems_of_isPlain`: a plain value has no problems.
* `isShowable_of_isPlain`: its graph can be shown if it can.
* `flowchart?_of_isPlain`: it has the flowchart of its graph.
-/

namespace AgentFlow

/-! ## Problems -/

section

variable {es : Entries}

theorem Entries.HasPlainKeys.mappingProblems_eq (h : es.HasPlainKeys) :
    mappingProblems [] es = [] := by
  have hbroken : (es.any fun e => isBrokenKey e.1) = false := by
    rw [List.any_eq_false]
    intro e he
    obtain ⟨cs, hcs⟩ := h.texts e he
    simp [hcs, isBrokenKey, Text.chars?_ofChars]
  have hkeys : keyProblems es = [] := by
    refine List.filterMap_eq_nil_iff.2 fun e he => ?_
    obtain ⟨cs, hcs⟩ := h.texts e he
    rw [hcs]
  simp [mappingProblems, hbroken, hkeys]

theorem Entries.HasPlainKeys.all_isShowable (h : es.HasPlainKeys) :
    (es.all fun e => e.1.isShowable) = true := by
  refine List.all_eq_true.2 fun e he => ?_
  obtain ⟨cs, hcs⟩ := h.texts e he
  simp [hcs, Value.isShowable]

theorem idsShowable_of_isPlain (h : ∀ e ∈ es, e.2.IsPlain) : idsShowable es = true := by
  unfold idsShowable
  split
  case h_1 nodes hnodes =>
    obtain ⟨v, hv, hentries⟩ := Option.bind_eq_some_iff.1 hnodes
    obtain ⟨e, he, hev⟩ := Entries.field?_mem hv
    have hplain : v.IsPlain := hev ▸ h e he
    cases hplain <;> cases hentries
    case map hk _ => exact hk.all_isShowable
  case h_2 => rfl

end

/-- **A plain value has no problems**, be it read as a graph, as the nodes of one or as a node. -/
theorem problems_of_isPlain {v : Value} (h : v.IsPlain) :
    Graph.problems v = [] ∧ nodesProblems v = [] ∧ Node.problems v = [] := by
  induction h with
  | @map es hk hv ih =>
    have hnodes : nodesProblemsIn es = [] := by
      rw [nodesProblemsIn_eq]
      exact field?_induction (P := (· = [])) rfl fun e he => (ih e he).2.1
    have hgraph : embeddingProblemsIn es = [] := by
      rw [embeddingProblemsIn_eq]
      refine field?_induction (P := (· = [])) rfl fun e he => ?_
      rw [(ih e he).1]
      rfl
    refine ⟨?_, ?_, ?_⟩
    · rw [Graph.problems, if_pos (idsShowable_of_isPlain hv), hnodes, hk.mappingProblems_eq]
    · rw [nodesProblems_map, List.flatMap_eq_nil_iff]
      intro n hn
      obtain ⟨e, he, rfl⟩ := mem_of_mem_rawNodes hn
      simp only [(ih e he).2.2, List.map_nil]
    · rw [Node.problems, hgraph, hk.mappingProblems_eq]
  | _ => exact ⟨rfl, rfl, rfl⟩

/-! ## Showing -/

theorem nodesShowable_iff {ns : List (Text × Node)} :
    nodesShowable ns = true ↔ ∀ n ∈ ns, n.2.isShowable = true := by
  induction ns with
  | nil => simp [nodesShowable]
  | cons n ns ih =>
    obtain ⟨id, node⟩ := n
    simp [nodesShowable, ih]

/-- A plain value that can be shown describes what can be shown, be it read as a graph, as the nodes
of one, as a node or as what a node embeds. -/
theorem isShowable_of_isPlain {v : Value} (h : v.IsPlain) (hs : v.isShowable = true) :
    (Graph.ofValue v).isShowable = true ∧ nodesShowable (nodesOf v) = true ∧
      (Node.ofValue v).isShowable = true ∧ (Embedding.ofValue v).isShowable = true := by
  induction h with
  | @map es hk hv ih =>
    rw [Value.isShowable] at hs
    have hes := Value.isShowable_of_entriesShowable hs
    have ih := fun e he => ih e he (hes e he)
    have hnodes : nodesShowable (nodesIn es) = true := by
      rw [nodesIn_eq]
      exact field?_induction (P := (nodesShowable · = true)) rfl fun e he => (ih e he).2.1
    have hgraph : (embeddingIn es).isShowable = true := by
      rw [embeddingIn_eq]
      exact field?_induction (P := (Embedding.isShowable · = true)) rfl
        fun e he => (ih e he).2.2.2
    refine ⟨?_, ?_, ?_, ?_⟩
    · rw [Graph.ofValue, Graph.isShowable]
      exact hnodes
    · rw [nodesOf_map, nodesShowable_iff]
      intro n hn
      obtain ⟨m, hm, rfl⟩ := List.mem_map.1 hn
      obtain ⟨e, he, rfl⟩ := mem_of_mem_rawNodes hm
      exact (ih e he).2.2.1
    · rw [Node.ofValue, Node.isShowable, hgraph, Bool.and_true]
      cases ha : es.field? "agent" with
      | none => rfl
      | some a =>
        obtain ⟨e, he, rfl⟩ := Entries.field?_mem ha
        exact hes e he
    · rw [Embedding.ofValue, Embedding.isShowable, Graph.isShowable]
      exact hnodes
  | _ => exact ⟨rfl, rfl, rfl, rfl⟩

/-- **A plain value that can be shown is a graph with a flowchart.** -/
theorem flowchart?_of_isPlain {v : Value} (h : v.IsPlain) (hs : v.isShowable = true) :
    ∃ g, Graph.check v = .ok g ∧ g.flowchart? = .ok g.flowchart := by
  refine ⟨Graph.ofValue v, ?_, ?_⟩
  · rw [Graph.check, (problems_of_isPlain h).1]
    rfl
  · rw [Graph.flowchart?, if_pos (isShowable_of_isPlain h hs).1]

end AgentFlow
