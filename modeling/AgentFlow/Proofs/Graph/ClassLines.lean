import AgentFlow.Proofs.Graph.Identity

/-!
# Reading the class lines

A class line names the nodes of one kind: the ids stand between its first two blanks, with a comma
between each two of them. Ids are not quoted, so one that has a blank ends the row of ids too early,
and one that has a comma is read as two. All other ids are read back as they are.

* `Fragment.Groups.classLines_eq`: the class lines of a fragment, one for each kind that occurs.
* `readIds_classLineOf`: what a class line is read as.
* `readIds_eq_iff`: when this is the ids that the line was made of.
* `class_lines_read_back_iff`: when the class lines name exactly the nodes.
-/

namespace AgentFlow

/-! ## Class lines -/

/-- The kinds in the order of their class lines. -/
def NodeKind.inOrder : List NodeKind := [.static, .computed, .nested]

/-- The name of the style of a kind. -/
def NodeKind.className : NodeKind → Text
  | .static => "staticNode"
  | .computed => "computedNode"
  | .nested => "nestedGraph"

/-- The line that gives nodes the style of a kind. -/
def classLineOf (kind : NodeKind) (ids : List Text) : Text :=
  "class " ++ Text.join "," ids ++ " " ++ kind.className

/-- **A fragment has a class line for each kind that occurs.** -/
theorem Fragment.Groups.classLines_eq {f : Fragment} {ps : List (Text × NodeKind)}
    (h : f.Groups ps) : f.classLines = (NodeKind.inOrder.filter fun kind => idsOf kind ps ≠ []).map
      fun kind => classLineOf kind (idsOf kind ps) := by
  have hline (kind : NodeKind) : classLine (idsOf kind ps) kind.className
      = ([kind].filter fun kind => idsOf kind ps ≠ []).map
          fun kind => classLineOf kind (idsOf kind ps) := by
    by_cases hids : idsOf kind ps = [] <;> simp [classLine, classLineOf, hids]
  rw [classLines, h.static_eq, h.computed_eq, h.nested_eq]
  show classLine _ NodeKind.static.className ++ classLine _ NodeKind.computed.className
    ++ classLine _ NodeKind.nested.className = _
  rw [hline, hline, hline, ← List.map_append, ← List.filter_append, ← List.map_append,
    ← List.filter_append]
  rfl

/-! ## Reading them -/

/-- The ids that a class line is read as: what stands between its first two blanks, cut at
commas. -/
def readIds (line : Text) : List Text :=
  Text.splitOn (.char ',') ((Text.splitOn (.char ' ') line)[1]?.getD [])

/-- **What a class line is read as**: its ids up to the first blank in them, cut at commas. -/
theorem readIds_classLineOf (kind : NodeKind) (ids : List Text) : readIds (classLineOf kind ids)
    = Text.splitOn (.char ',') ((Text.join "," ids).takeWhile (· ≠ .char ' ')) := by
  have hline : classLineOf kind ids = Text.ofString "class"
      ++ .char ' ' :: (Text.join "," ids ++ .char ' ' :: kind.className) := by
    rw [classLineOf, List.append_assoc, List.append_assoc]
    rfl
  have hclass : Text.splitOn (.char ' ') (Text.ofString "class") = [Text.ofString "class"] := by
    decide
  have hids := Text.head?_splitOn (.char ' ') (Text.join "," ids)
  rw [List.head?_eq_getElem?] at hids
  rw [readIds, hline, Text.splitOn_append_cons, Text.splitOn_append_cons, hclass,
    List.singleton_append, List.getElem?_cons_succ,
    List.getElem?_append_left (List.length_pos_iff.2 (Text.splitOn_ne_nil _ _)), hids,
    Option.getD_some]

/-- **When a class line is read back.** -/
theorem readIds_eq_iff {kind : NodeKind} {ids : List Text} (hne : ids ≠ []) :
    readIds (classLineOf kind ids) = ids ↔ ∀ id ∈ ids, .char ' ' ∉ id ∧ .char ',' ∉ id := by
  rw [readIds_classLineOf]
  constructor
  · intro h id hid
    -- what is read holds no comma, and nothing behind a blank
    rw [← h] at hid
    refine ⟨fun hblank => ?_, Text.not_mem_of_mem_splitOn hid⟩
    have hfront := List.all_eq_true.1 List.all_takeWhile _ (Text.mem_of_mem_splitOn hid hblank)
    exact absurd rfl (of_decide_eq_true hfront)
  · intro h
    have hblank : .char ' ' ∉ Text.join "," ids :=
      (Text.not_mem_join_iff (by decide)).2 fun id hid => (h id hid).1
    have hfront := Text.head?_splitOn (.char ' ') (Text.join "," ids)
    rw [Text.splitOn_of_not_mem hblank, List.head?_cons, Option.some_inj] at hfront
    rw [← hfront]
    exact Text.splitOn_join hne fun id hid => (h id hid).2

/-! ## The nodes of a graph -/

theorem Place.not_mem_qualified_iff {c : CodePoint} (h : c ≠ Scope.separator) {p : Place}
    {scope : Text} : c ∉ p.qualified scope ↔ ∀ id ∈ scope :: p.path, c ∉ id := by
  rw [qualified, List.mem_append, not_or, Text.not_mem_join_iff (by simpa using h),
    List.forall_mem_cons]

/-- The ids in a scope of the nodes of a kind, those of embedded graphs among them. -/
def Graph.idsIn (scope : Text) (kind : NodeKind) (g : Graph) : List Text :=
  (g.places.filter fun p => p.kind = kind).map (Place.qualified scope)

theorem Graph.idsOf_drawn (g : Graph) (scope : Text) (kind : NodeKind) :
    idsOf kind (Place.drawn scope g.places) = g.idsIn scope kind := by
  rw [idsOf, Place.drawn, List.filter_map, List.map_map]
  rfl

/-- **When the class lines name exactly the nodes.** The class lines of a graph are one for each
kind that some node is of, at any depth. The line of a kind is read as the ids of the nodes of that
kind, in order, just if no id down to one of them has a blank or a comma, and neither has the
scope. -/
theorem class_lines_read_back_iff (g : Graph) (scope : Text) :
    (g.fragment scope).classLines
        = (NodeKind.inOrder.filter fun kind => g.idsIn scope kind ≠ []).map
            (fun kind => classLineOf kind (g.idsIn scope kind)) ∧
      ∀ kind, g.idsIn scope kind ≠ [] →
        (readIds (classLineOf kind (g.idsIn scope kind)) = g.idsIn scope kind ↔
          ∀ p ∈ g.places, p.kind = kind → ∀ id ∈ scope :: p.path,
            .char ' ' ∉ id ∧ .char ',' ∉ id) := by
  refine ⟨?_, fun kind hne => ?_⟩
  · simp only [← g.idsOf_drawn]
    exact (g.groups_places scope).classLines_eq
  · rw [readIds_eq_iff hne, Graph.idsIn, List.forall_mem_map]
    simp only [List.mem_filter, decide_eq_true_eq, and_imp]
    refine forall₃_congr fun p _ _ => ?_
    rw [Place.not_mem_qualified_iff (by decide), Place.not_mem_qualified_iff (by decide)]
    exact ⟨fun h id hid => ⟨h.1 id hid, h.2 id hid⟩,
      fun h => ⟨fun id hid => (h id hid).1, fun id hid => (h id hid).2⟩⟩

/-- Nodes with and without an agent inside of a node, and one beside it. -/
def boxedDocument : Value :=
  .map [(.str "nodes", .map [(.str "a", .map [(.str "graph", .map [(.str "nodes",
    .map [(.str "b", .map [(.str "agent", .null)]), (.str "c", .null)])])]), (.str "d", .null)])]

theorem classLines_of_boxedDocument :
    (Graph.ofValue boxedDocument).idsIn [] .static ≠ [] ∧
      ((Graph.ofValue boxedDocument).fragment []).classLines
        = [Text.ofString "class a.c,d staticNode", Text.ofString "class a.b computedNode",
          Text.ofString "class a nestedGraph"] ∧
      readIds "class a.c,d staticNode" = [Text.ofString "a.c", Text.ofString "d"] := by
  have hne : (Graph.ofValue boxedDocument).idsIn [] .static ≠ [] := by decide
  obtain ⟨hlines, hread⟩ := class_lines_read_back_iff (Graph.ofValue boxedDocument) []
  exact ⟨hne, hlines.trans (by decide), (hread .static hne).2 (by decide)⟩

/-- An id with a comma, and one with a blank. -/
def spacedDocument : Value :=
  .map [(.str "nodes", .map [(.str "a,b", .null), (.str "c d", .map [(.str "agent", .null)])])]

/-- An id with a comma is read as two, and one with a blank up to the blank. -/
theorem spacedDocument_misread :
    Graph.check spacedDocument = .ok (Graph.ofValue spacedDocument) ∧
      ((Graph.ofValue spacedDocument).fragment []).static = [Text.ofString "a,b"] ∧
      ((Graph.ofValue spacedDocument).fragment []).computed = [Text.ofString "c d"] ∧
      ((Graph.ofValue spacedDocument).fragment []).classLines.map readIds
        = [[Text.ofString "a", Text.ofString "b"], [Text.ofString "c"]] := by
  exact ⟨rfl, by decide, by decide, by decide⟩

end AgentFlow
