import AgentFlow.Graph.Document
import AgentFlow.Proofs.Graph.Reports
import AgentFlow.Proofs.Json.Values

/-!
# When no node is lost

The nodes of a document are its entries under the texts of their keys. An entry whose key has the
text of an earlier key takes the place of the earlier node, so a graph holds all nodes of its
document just if the texts of the keys are distinct wherever nodes are read. Names in JSON text are
distinct texts, so there it always does; keys of other kinds may have one text, as `1` and `"1"`.

* `Graph.Keeps`: a graph that holds one node for each entry, in order and on every level.
* `keeps_iff_entries`: the graph of a mapping holds all its nodes just if ids are distinct.
* `idsDistinct_of_isJson`: the ids of what JSON text holds are distinct.
* `no_node_lost_iff`: when no node of a document is lost.
-/

namespace AgentFlow

mutual

/-- A graph that holds the nodes of the given entries. -/
def Graph.Keeps (es : Entries) : Graph → Prop
  | .mk nodes _ => nodesKeep (nodeEntries es) nodes

/-- Nodes that are those of entries: one for each entry, in order, under the text of its key and
read from its own value. -/
def nodesKeep (es : Entries) : List (Text × Node) → Prop
  | [] => es = []
  | (id, node) :: rest =>
    ∃ e more, es = e :: more ∧ id = e.1.shown ∧ Node.Keeps e.2 node ∧ nodesKeep more rest

/-- A node that is read from a value and whose graph holds the nodes of that value. -/
def Node.Keeps (v : Value) : Node → Prop
  | .mk agent inputs update graph extra =>
    Node.mk agent inputs update graph extra = Node.ofValue v ∧
      Embedding.Keeps (v.entries?.bind embeddedEntries?) graph

/-- A graph that is given where there are entries for one, and that holds their nodes. -/
def Embedding.Keeps (es? : Option Entries) : Embedding → Prop
  | .graph g => ∃ es, es? = some es ∧ Graph.Keeps es g
  | .absent => es? = none
  | .reference _ => es? = none
  | .unusable => es? = none

end

/-! ## Nodes and entries -/

theorem ids_of_nodesKeep {es : Entries} {nodes : List (Text × Node)} (h : nodesKeep es nodes) :
    nodes.map (·.1) = es.map fun e => e.1.shown := by
  induction nodes generalizing es with
  | nil =>
    rw [nodesKeep] at h
    rw [h]
    rfl
  | cons n nodes ih =>
    obtain ⟨id, node⟩ := n
    rw [nodesKeep] at h
    obtain ⟨e, more, rfl, rfl, -, hmore⟩ := h
    rw [List.map_cons, List.map_cons, ih hmore]

/-- Where every entry gives its own node, it matters only what the nodes embed. -/
theorem nodesKeep_map {es : Entries} {f : Value → Node} :
    nodesKeep es (es.map fun e => (e.1.shown, f e.2)) ↔ ∀ e ∈ es, (f e.2).Keeps e.2 := by
  induction es with
  | nil => simp [nodesKeep]
  | cons e es ih =>
    rw [List.map_cons, nodesKeep, List.forall_mem_cons, ← ih]
    constructor
    · rintro ⟨d, more, heq, -, hd, hmore⟩
      cases heq
      exact ⟨hd, hmore⟩
    · exact fun ⟨he, hes⟩ => ⟨e, es, rfl, rfl, he, hes⟩

/-- The nodes of entries are all there just if the texts of the keys are distinct, for one node is
kept for each text. -/
theorem nodesKeep_rawNodes_iff {es : Entries} :
    nodesKeep es ((rawNodes es).map fun n => (n.1, Node.ofValue n.2)) ↔
      (es.map fun e => e.1.shown).Nodup ∧ ∀ e ∈ es, (Node.ofValue e.2).Keeps e.2 := by
  have hall (h : (es.map fun e => e.1.shown).Nodup) :
      (rawNodes es).map (fun n => (n.1, Node.ofValue n.2))
        = es.map fun e => (e.1.shown, Node.ofValue e.2) := by
    rw [rawNodes_of_nodup h, List.map_map]
    rfl
  constructor
  · intro hkeep
    have hnodup : (es.map fun e => e.1.shown).Nodup := by
      rw [← ids_of_nodesKeep hkeep, List.map_map]
      exact nodup_collapse _
    rw [hall hnodup, nodesKeep_map] at hkeep
    exact ⟨hnodup, hkeep⟩
  · rintro ⟨hnodup, hnodes⟩
    rw [hall hnodup, nodesKeep_map]
    exact hnodes

theorem Graph.keeps_ofValue_iff {v : Value} {es : Entries} (h : v.entries? = some es) :
    (Graph.ofValue v).Keeps es ↔ ((nodeEntries es).map fun e => e.1.shown).Nodup ∧
      ∀ e ∈ nodeEntries es, (Node.ofValue e.2).Keeps e.2 := by
  rw [Graph.ofValue_eq h, Graph.Keeps, nodesIn_eq_map, nodesKeep_rawNodes_iff]

theorem Node.keeps_ofValue_of_none {v : Value} (h : v.entries? = none) :
    (Node.ofValue v).Keeps v := by
  rw [Node.ofValue_of_none h, Node.Keeps, Node.ofValue_of_none h, h, Embedding.Keeps]
  exact ⟨rfl, rfl⟩

theorem Embedding.keeps_iff {es : Entries} :
    (embeddingIn es).Keeps (embeddedEntries? es) ↔
      ∀ fs, embeddedEntries? es = some fs → (Graph.ofValue (.map fs)).Keeps fs := by
  have hgraph := graph?_embeddingIn es
  cases hfs : embeddedEntries? es with
  | none =>
    rw [hfs, Option.map_none] at hgraph
    cases hg : embeddingIn es <;> simp_all [Embedding.graph?, Embedding.Keeps]
  | some fs =>
    rw [hfs, Option.map_some] at hgraph
    cases hg : embeddingIn es <;> simp_all [Embedding.graph?, Embedding.Keeps]

theorem Node.keeps_ofValue_iff {v : Value} {es : Entries} (h : v.entries? = some es) :
    (Node.ofValue v).Keeps v ↔
      ∀ fs, embeddedEntries? es = some fs → (Graph.ofValue (.map fs)).Keeps fs := by
  rw [Node.ofValue_eq h, Node.Keeps, Node.ofValue_eq h, h, Option.bind_some, Embedding.keeps_iff,
    and_iff_right rfl]

theorem Node.keeps_congr {v : Value} {es : Entries} (h : v.entries? = some es) :
    (Node.ofValue v).Keeps v ↔ (Node.ofValue (.map es)).Keeps (.map es) := by
  rw [Node.keeps_ofValue_iff h, Node.keeps_ofValue_iff (v := .map es) rfl]

/-! ## Values without problems -/

/-- A mapping about which nothing is said can be opened, and nothing is said about what is in it. -/
theorem opens_of_append_eq_nil {role : Role} {es : Entries} {inner : List Problem}
    (h : (if Site.opens ⟨role, [], es⟩ then inner else []) ++ Site.keyProblems ⟨role, [], es⟩
      = []) : Site.opens ⟨role, [], es⟩ = true ∧ inner = [] := by
  obtain ⟨hinner, hkeys⟩ := List.append_eq_nil_iff.1 h
  rw [Site.keyProblems_eq_nil_iff, Site.isFaulty, Bool.or_eq_false_iff, Bool.not_eq_false'] at hkeys
  rw [if_pos hkeys.1] at hinner
  exact ⟨hkeys.1, hinner⟩

theorem embeddingProblemsIn_eq_nil_iff {es : Entries} : embeddingProblemsIn es = [] ↔
    ∀ fs, embeddedEntries? es = some fs → Graph.problems (.map fs) = [] := by
  rw [embeddingProblemsIn_eq_entries]
  cases embeddedEntries? es with
  | none => simp
  | some fs => simp [embeddedProblems, List.isEmpty_iff]

/-- The graph of a mapping holds all its nodes, and so does that of a node, just if no two nodes
have one id wherever nodes are read. -/
theorem keeps_iff_entries (es : Entries) :
    (Graph.problems (.map es) = [] → ((Graph.ofValue (.map es)).Keeps es ↔
      ∀ s ∈ Graph.sites .document (.map es), s.IdsDistinct)) ∧
    (Node.problems (.map es) = [] → ((Node.ofValue (.map es)).Keeps (.map es) ↔
      ∀ s ∈ Node.sites (.map es), s.IdsDistinct)) := by
  refine graph_induction
    (G := fun es => Graph.problems (.map es) = [] → ((Graph.ofValue (.map es)).Keeps es ↔
      ∀ s ∈ Graph.sites .document (.map es), s.IdsDistinct))
    (N := fun es => Node.problems (.map es) = [] → ((Node.ofValue (.map es)).Keeps (.map es) ↔
      ∀ s ∈ Node.sites (.map es), s.IdsDistinct))
    (fun es ih hproblems => ?_) (fun es ih hproblems => ?_) es
  · rw [Graph.problems_eq_site] at hproblems
    obtain ⟨hopens, hinner⟩ := opens_of_append_eq_nil hproblems
    rw [nodesProblemsIn_eq_flatMap, List.flatMap_eq_nil_iff] at hinner
    rw [Graph.keeps_ofValue_iff rfl, graph_idsDistinct_iff, imp_iff_right hopens]
    refine and_congr_right fun hnodup => forall₂_congr fun e he => ?_
    -- where ids are distinct no node with problems hides behind another
    have hnone : Node.problems e.2 = [] := by
      refine List.map_eq_nil_iff.1 (hinner (e.1.shown, e.2) ?_)
      rw [rawNodes_of_nodup hnodup]
      exact List.mem_map_of_mem he
    cases hfs : e.2.entries? with
    | none => exact iff_of_true (Node.keeps_ofValue_of_none hfs) (by simp)
    | some fs =>
      rw [Node.problems_congr hfs] at hnone
      rw [Node.keeps_congr hfs, ih e he fs hfs hnone]
      simp
  · rw [Node.problems_eq_site] at hproblems
    obtain ⟨hopens, hinner⟩ := opens_of_append_eq_nil hproblems
    rw [embeddingProblemsIn_eq_nil_iff] at hinner
    rw [Node.keeps_ofValue_iff rfl, node_idsDistinct_iff, imp_iff_right hopens]
    exact forall₂_congr fun fs hfs => ih fs hfs (hinner fs hfs)

/-- A graph of a value that is accepted holds all nodes of the value just if no two nodes have one
id wherever nodes are read. -/
theorem keeps_iff_of_check {v : Value} {g : Graph} (h : Graph.check v = .ok g) :
    g.Keeps (v.entries?.getD []) ↔ ∀ s ∈ Graph.sites .document v, s.IdsDistinct := by
  obtain ⟨hproblems, rfl⟩ := Graph.check_eq_ok_iff.1 h
  cases hv : v.entries? with
  | none =>
    rw [Graph.ofValue_of_none hv, Graph.sites_of_none hv, Graph.empty, Graph.Keeps, nodesKeep]
    exact iff_of_true rfl (by simp)
  | some es =>
    rw [Graph.problems_congr hv] at hproblems
    rw [Graph.sites_congr hv, ← (keeps_iff_entries es).1 hproblems, Graph.ofValue_eq hv,
      ← Graph.ofValue_eq (v := .map es) rfl, Option.getD_some]

/-! ## JSON text -/

/-- A mapping that JSON text holds is none that was declared to be ordered. -/
theorem Value.IsJson.map_of_entries {v : Value} (h : v.IsJson) {es : Entries}
    (hv : v.entries? = some es) : Value.IsJson (.map es) := by
  cases v <;> cases hv
  · exact h
  · cases h

theorem Value.IsJson.hasTextKeys {es : Entries} (h : Value.IsJson (.map es)) : es.HasTextKeys := by
  cases h with
  | map hk _ => exact hk

theorem Value.IsJson.members {es : Entries} (h : Value.IsJson (.map es)) :
    ∀ e ∈ es, e.2.IsJson := by
  cases h with
  | map _ hv => exact hv

theorem Value.IsJson.field {es fs : Entries} {name : Text} (h : Value.IsJson (.map es))
    (hf : (es.field? name).bind Value.entries? = some fs) : Value.IsJson (.map fs) := by
  obtain ⟨v, hv, hfs⟩ := Option.bind_eq_some_iff.1 hf
  obtain ⟨e, he, rfl⟩ := Entries.field?_mem hv
  exact (h.members e he).map_of_entries hfs

theorem Value.IsJson.nodeEntries {es : Entries} (h : Value.IsJson (.map es)) :
    Value.IsJson (.map (nodeEntries es)) := by
  rw [AgentFlow.nodeEntries]
  cases hns : (es.field? "nodes").bind Value.entries? with
  | none => exact .map Entries.hasTextKeys_nil (by simp)
  | some ns => exact h.field hns

/-- Keys that are distinct texts are distinct as texts. -/
theorem Entries.HasTextKeys.nodup_shown {es : Entries} (h : es.HasTextKeys) :
    (es.map fun e => e.1.shown).Nodup := by
  have hkeys : es.map (·.1) = (es.map fun e => e.1.shown).map Value.str := by
    rw [List.map_map]
    refine List.map_congr_left fun e he => ?_
    obtain ⟨t, ht⟩ := h.texts e he
    rw [Function.comp_apply, ht]
    rfl
  exact List.Pairwise.of_map Value.str (fun _ _ hne heq => hne (congrArg _ heq)) (hkeys ▸ h.nodup)

/-- The ids of what JSON text holds are distinct wherever nodes are read. -/
theorem idsDistinct_of_isJson (es : Entries) :
    (Value.IsJson (.map es) → ∀ s ∈ Graph.sites .document (.map es), s.IdsDistinct) ∧
    (Value.IsJson (.map es) → ∀ s ∈ Node.sites (.map es), s.IdsDistinct) := by
  refine graph_induction
    (G := fun es => Value.IsJson (.map es) →
      ∀ s ∈ Graph.sites .document (.map es), s.IdsDistinct)
    (N := fun es => Value.IsJson (.map es) → ∀ s ∈ Node.sites (.map es), s.IdsDistinct)
    (fun es ih h => graph_idsDistinct_iff.2 fun _ => ⟨?_, fun e he fs hfs => ?_⟩)
    (fun es ih h => node_idsDistinct_iff.2 fun _ fs hfs => ih fs hfs (h.field hfs)) es
  · exact h.nodeEntries.hasTextKeys.nodup_shown
  · exact ih e he fs hfs ((h.nodeEntries.members e he).map_of_entries hfs)

/-! ## Documents -/

/-- **When no node of a document is lost.** The graph of a text that is accepted holds one node for
each entry of `nodes`, in order and on every level, just if no two keys of one such mapping have the
same text; the graph of JSON text always does. -/
theorem no_node_lost_iff {language text : Text} {v : Value} {g : Graph}
    (hv : valueOfText language text = .ok v) (h : Graph.check v = .ok g) :
    (g.Keeps (v.entries?.getD []) ↔ ∀ s ∈ Graph.sites .document v, s.IdsDistinct) ∧
      (language ≠ "yaml" → g.Keeps (v.entries?.getD [])) := by
  refine ⟨keeps_iff_of_check h, fun hlanguage => (keeps_iff_of_check h).2 ?_⟩
  rw [valueOfText, if_neg hlanguage, mapError_eq_ok_iff] at hv
  have hjson := Json.isJson_of_read hv
  cases hes : v.entries? with
  | none => simp [Graph.sites_of_none hes]
  | some es =>
    rw [Graph.sites_congr hes]
    exact (idsDistinct_of_isJson es).1 (hjson.map_of_entries hes)

/-- Nodes under keys of several kinds, one of them with a graph. -/
def mixedKeyText : Text :=
  "nodes: \x7b1: \x7bgraph: \x7bnodes: \x7btrue: a, 2: b\x7d\x7d\x7d, x: c, null: d\x7d"

/-- A graph with two nodes whose keys are a number and the text of that number. -/
def sameIdText : Text := "nodes: \x7b1: \x7bagent: a\x7d, \"1\": \x7bagent: b\x7d\x7d"

theorem mixedKeyText_keeps : ∃ v g, valueOfText "yaml" mixedKeyText = .ok v ∧
    Graph.check v = .ok g ∧ g.Keeps (v.entries?.getD []) := by
  have hread : (match valueOfText "yaml" mixedKeyText with
      | .ok v => decide ((Graph.problems v).isEmpty = true ∧
          ∀ s ∈ Graph.sites .document v, s.IdsDistinct)
      | .error _ => false) = true := by decide +kernel
  split at hread
  case h_1 v hv =>
    obtain ⟨hproblems, hids⟩ := of_decide_eq_true hread
    have hcheck := Graph.check_eq_ok_iff.2 ⟨List.isEmpty_iff.1 hproblems, rfl⟩
    exact ⟨v, _, hv, hcheck, (no_node_lost_iff hv hcheck).1.2 hids⟩
  case h_2 => cases hread

/-- Of two nodes whose keys have one text only one is left. -/
theorem sameIdText_loses_node : ∃ v g, valueOfText "yaml" sameIdText = .ok v ∧
    Graph.check v = .ok g ∧ (nodeEntries (v.entries?.getD [])).length = 2 ∧ g.nodes.length = 1 ∧
    ¬ g.Keeps (v.entries?.getD []) := by
  have hread : (match valueOfText "yaml" sameIdText with
      | .ok v => decide ((Graph.problems v).isEmpty = true ∧
          (nodeEntries (v.entries?.getD [])).length = 2 ∧ (Graph.ofValue v).nodes.length = 1 ∧
          ¬ ∀ s ∈ Graph.sites .document v, s.IdsDistinct)
      | .error _ => false) = true := by decide +kernel
  split at hread
  case h_1 v hv =>
    obtain ⟨hproblems, hentries, hnodes, hids⟩ := of_decide_eq_true hread
    have hcheck := Graph.check_eq_ok_iff.2 ⟨List.isEmpty_iff.1 hproblems, rfl⟩
    exact ⟨v, _, hv, hcheck, hentries, hnodes, mt (keeps_iff_of_check hcheck).1 hids⟩
  case h_2 => cases hread

end AgentFlow
