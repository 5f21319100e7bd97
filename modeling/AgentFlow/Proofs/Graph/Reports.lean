import AgentFlow.Proofs.Graph.Sites

/-!
# What is reported of a document

A document is refused if one of its sites is faulty, and then the problems that are listed are those
of its sites: each key of a site that is no text is listed once, and each embedded graph in which
something is wrong is listed once more because it is no name either. A site that cannot be opened is
listed as such, and nothing in it is.

* `Site.problems`: the problems that a site contributes.
* `Reported`: problems that are those of some sites.
* `reported_graph`, `reported_node`: the problems of a graph and of a node are those of its sites.
* `check_reports_sites`: when a document is refused, and what is listed.
-/

namespace AgentFlow

/-! ## The problems of a site -/

namespace Site

/-- The problems of the keys of a mapping: each key that is no text. A mapping that cannot be opened
has one problem. -/
def keyProblems (s : Site) : List Problem :=
  if !s.hasIds then [⟨s.role.steps, .valueError⟩]
  else if !hasWholeKeys s.entries then [⟨s.role.steps, .stringUnicode⟩]
  else (foreignKeys s.entries).map fun k => ⟨s.role.steps ++ [keyStep k], .invalidKey⟩

/-- Whether something is wrong with a graph or inside it. -/
def fails (s : Site) : Bool := (Graph.sites .document (.map s.entries)).any isFaulty

/-- An embedded graph in which something is wrong is no name of a graph either. -/
def refusal (s : Site) : List Problem :=
  if s.role = .embedded ∧ s.fails = true then [⟨[.name "str"], .stringType⟩] else []

/-- The problems that a site contributes. -/
def problems (s : Site) : List Problem :=
  (s.keyProblems ++ s.refusal).map (Problem.inside s.path)

theorem problems_inside (s : Site) (steps : List Step) :
    (s.inside steps).problems = s.problems.map (Problem.inside steps) := by
  rw [problems, problems, List.map_map]
  exact List.map_congr_left fun p _ => Problem.inside_append _ _ p

theorem flatMap_problems_inside (ss : List Site) (steps : List Step) :
    (ss.map (inside steps)).flatMap problems
      = (ss.flatMap problems).map (Problem.inside steps) := by
  rw [List.flatMap_map, List.map_flatMap]
  exact congrArg (List.flatMap · ss) (funext fun s => problems_inside s steps)

theorem keyProblems_eq_nil_iff {s : Site} : s.keyProblems = [] ↔ s.isFaulty = false := by
  rw [keyProblems, isFaulty, opens]
  cases s.hasIds <;> cases hasWholeKeys s.entries <;> simp

theorem problems_of_nil (role : Role) (es : Entries) : problems ⟨role, [], es⟩
    = keyProblems ⟨role, [], es⟩ ++ refusal ⟨role, [], es⟩ :=
  List.map_id'' Problem.inside_nil _

/-- A site that is no embedded graph has the problems of its keys. -/
theorem problems_of_top {role : Role} (h : role ≠ .embedded) (es : Entries) :
    problems ⟨role, [], es⟩ = keyProblems ⟨role, [], es⟩ := by
  have hrefusal : refusal ⟨role, [], es⟩ = [] := if_neg fun hr => h hr.1
  rw [problems_of_nil, hrefusal, List.append_nil]

/-- The keys of an embedded graph are one step further down than those of the graph on its own. -/
theorem keyProblems_embedded (es : Entries) : keyProblems ⟨.embedded, [], es⟩
    = (keyProblems ⟨.document, [], es⟩).map (Problem.inside [.name "GraphDescription"]) := by
  have hids : hasIds ⟨.embedded, [], es⟩ = hasIds ⟨.document, [], es⟩ := rfl
  rw [keyProblems, keyProblems, hids]
  cases hasIds ⟨.document, [], es⟩ <;> cases hasWholeKeys es <;>
    simp [Role.steps, Problem.inside, Function.comp_def]

end Site

/-! ## Problems of some sites -/

/-- Problems that are those of some sites, in any order; there are some just if a site is faulty. -/
structure Reported (ps : List Problem) (ss : List Site) : Prop where
  perm : ps.Perm (ss.flatMap Site.problems)
  eq_nil_iff : ps = [] ↔ ∀ s ∈ ss, s.isFaulty = false

namespace Reported

theorem nil : Reported [] [] := ⟨.refl _, by simp⟩

theorem inside {ps : List Problem} {ss : List Site} (h : Reported ps ss) (steps : List Step) :
    Reported (ps.map (Problem.inside steps)) (ss.map (Site.inside steps)) := by
  refine ⟨?_, ?_⟩
  · rw [Site.flatMap_problems_inside]
    exact h.perm.map _
  · rw [List.map_eq_nil_iff, h.eq_nil_iff]
    simp

theorem append {ps ps' : List Problem} {ss ss' : List Site} (h : Reported ps ss)
    (h' : Reported ps' ss') : Reported (ps ++ ps') (ss ++ ss') := by
  refine ⟨?_, ?_⟩
  · rw [List.flatMap_append]
    exact h.perm.append h'.perm
  · rw [List.append_eq_nil_iff, h.eq_nil_iff, h'.eq_nil_iff]
    simp only [List.mem_append, or_imp, forall_and]

theorem flatMap {α : Type} {xs : List α} {f : α → List Problem} {g : α → List Site}
    (h : ∀ x ∈ xs, Reported (f x) (g x)) : Reported (xs.flatMap f) (xs.flatMap g) := by
  induction xs with
  | nil => exact nil
  | cons x xs ih =>
    rw [List.flatMap_cons, List.flatMap_cons]
    exact (h x List.mem_cons_self).append (ih fun y hy => h y (List.mem_cons_of_mem _ hy))

end Reported

/-! ## One site -/

theorem any_isBrokenKey (es : Entries) :
    (es.any fun e => isBrokenKey e.1) = !hasWholeKeys es := by
  rw [hasWholeKeys, List.not_all_eq_any_not]
  refine congrArg (List.any es) (funext fun e => ?_)
  cases e.1 <;> simp [isBrokenKey, Value.text?]

theorem keyProblems_eq (es : Entries) :
    keyProblems es = (foreignKeys es).map fun k => ⟨[keyStep k], .invalidKey⟩ := by
  induction es with
  | nil => rfl
  | cons e es ih =>
    obtain ⟨k, v⟩ := e
    rw [keyProblems] at ih
    rw [keyProblems, List.filterMap_cons, ih, foreignKeys]
    cases k <;> simp [foreignKeys, Value.text?]

theorem idsShowable_eq (es : Entries) : idsShowable es = hasShowableIds es := by
  rw [idsShowable, hasShowableIds, nodeEntries]
  cases (es.field? "nodes").bind Value.entries? <;> rfl

section

variable {role : Role} {es : Entries} {inner : List Problem} {ss : List Site}

/-- A mapping that is no embedded graph adds the problems of its keys to those inside it. -/
theorem Reported.cons (hrole : role ≠ .embedded) (h : Reported inner ss) :
    Reported (inner ++ Site.keyProblems ⟨role, [], es⟩) (⟨role, [], es⟩ :: ss) := by
  refine ⟨?_, ?_⟩
  · rw [List.flatMap_cons, Site.problems_of_top hrole]
    exact List.perm_append_comm.trans (h.perm.append_left _)
  · rw [List.append_eq_nil_iff, h.eq_nil_iff, Site.keyProblems_eq_nil_iff, List.forall_mem_cons]
    exact And.comm

theorem reported_mapping (hrole : role ≠ .embedded)
    (h : Site.opens ⟨role, [], es⟩ = true → Reported inner ss) :
    Reported
      ((if Site.opens ⟨role, [], es⟩ then inner else []) ++ Site.keyProblems ⟨role, [], es⟩)
      (⟨role, [], es⟩ :: if Site.opens ⟨role, [], es⟩ then ss else []) := by
  refine .cons hrole ?_
  split
  case isTrue hopens => exact h hopens
  case isFalse => exact .nil

/-- What is said about a mapping: what is inside it, if it can be opened, and its keys. -/
theorem mappingProblems_eq (hrole : role ≠ .embedded) :
    (if Site.hasIds ⟨role, [], es⟩ then mappingProblems inner es else [⟨[], .valueError⟩])
      = (if Site.opens ⟨role, [], es⟩ then inner else []) ++ Site.keyProblems ⟨role, [], es⟩ := by
  have hsteps : role.steps = [] := by cases role <;> first | rfl | exact absurd rfl hrole
  rw [mappingProblems, any_isBrokenKey, keyProblems_eq, Site.keyProblems, Site.opens]
  simp only [hsteps]
  cases Site.hasIds ⟨role, [], es⟩ <;> cases hasWholeKeys es <;> simp

theorem Graph.problems_eq_site (es : Entries) : Graph.problems (.map es)
    = (if Site.opens ⟨.document, [], es⟩ then nodesProblemsIn es else [])
      ++ Site.keyProblems ⟨.document, [], es⟩ := by
  have hids : Site.hasIds ⟨.document, [], es⟩ = idsShowable es := (idsShowable_eq es).symm
  rw [Graph.problems_eq rfl, ← hids, mappingProblems_eq (by decide)]

theorem Node.problems_eq_site (es : Entries) : Node.problems (.map es)
    = (if Site.opens ⟨.node, [], es⟩ then embeddingProblemsIn es else [])
      ++ Site.keyProblems ⟨.node, [], es⟩ := by
  have hids : Site.hasIds ⟨.node, [], es⟩ = true := rfl
  rw [Node.problems_eq rfl, ← mappingProblems_eq (by decide), hids, if_pos rfl]

end

/-! ## Embedded graphs -/

section

variable {es : Entries}
  (h : Reported (Graph.problems (.map es)) (Graph.sites .document (.map es)))

include h

/-- An embedded graph is refused as a name just if the graph on its own has problems. -/
theorem refusal_eq : Site.refusal ⟨.embedded, [], es⟩
    = if Graph.problems (.map es) = [] then [] else [⟨[.name "str"], .stringType⟩] := by
  have hfails : Site.fails ⟨.embedded, [], es⟩ = true ↔ ¬ Graph.problems (.map es) = [] := by
    rw [h.eq_nil_iff, Site.fails, List.any_eq_true]
    simp
  rw [Site.refusal]
  by_cases hnil : Graph.problems (.map es) = [] <;> simp [hfails, hnil]

theorem reported_refusal :
    Reported ((Graph.problems (.map es)).map (Problem.inside [.name "GraphDescription"])
        ++ Site.refusal ⟨.embedded, [], es⟩)
      (Graph.sites .embedded (.map es)) := by
  have hrefusal := refusal_eq h
  have hsites := sites_embedded es
  obtain ⟨rest, hrest⟩ : ∃ rest, Graph.sites .document (.map es) = ⟨.document, [], es⟩ :: rest :=
    ⟨_, Graph.sites_eq rfl _⟩
  obtain ⟨hperm, hnil⟩ := h
  rw [hrest, List.flatMap_cons, Site.problems_of_top (by decide)] at hperm
  rw [hrest, List.forall_mem_cons] at hnil
  rw [hsites, hrest, List.tail_cons]
  refine ⟨?_, ?_⟩
  · have hself : Site.problems ⟨.embedded, [], es⟩
        = (Site.keyProblems ⟨.document, [], es⟩).map (Problem.inside [.name "GraphDescription"])
          ++ Site.refusal ⟨.embedded, [], es⟩ := by
      rw [Site.problems_of_nil, Site.keyProblems_embedded]
    rw [List.flatMap_cons, Site.flatMap_problems_inside, hself]
    refine ((hperm.map _).append_right _).trans ?_
    rw [List.map_append, List.append_assoc, List.append_assoc]
    exact List.perm_append_comm.append_left _
  · rw [List.append_eq_nil_iff, List.map_eq_nil_iff, hrefusal, List.forall_mem_cons,
      forall_map_inside fun _ _ => by rw [Site.isFaulty_inside]]
    constructor
    · exact fun hall => hnil.1 hall.1
    · exact fun hall => ⟨hnil.2 hall, if_pos (hnil.2 hall)⟩

/-- The problems of an embedded graph are those of the graph on its own and, if it has any, that it
is no name of a graph. -/
theorem reported_embedded : Reported (embeddedProblems (Graph.problems (.map es)))
    ((Graph.sites .embedded (.map es)).map (Site.inside [.name "graph"])) := by
  have hinside := (reported_refusal h).inside [.name "graph"]
  rw [refusal_eq h] at hinside
  rw [embeddedProblems]
  by_cases hnil : Graph.problems (.map es) = []
  · simpa [hnil] using hinside
  · have hboth : Problem.inside [.name "graph", .name "GraphDescription"]
        = Problem.inside [.name "graph"] ∘ Problem.inside [.name "GraphDescription"] :=
      funext fun p => Problem.inside_append [_] [_] p
    rw [if_neg hnil, List.map_append, List.map_map] at hinside
    rw [if_neg (mt List.isEmpty_iff.1 hnil), hboth]
    exact hinside

end

/-! ## Graphs and nodes -/

/-- The problems of a graph and of a node are those of their sites, if no node takes the place of
another. -/
theorem reported_entries (es : Entries) :
    ((∀ s ∈ Graph.sites .document (.map es), s.IdsDistinct) →
      Reported (Graph.problems (.map es)) (Graph.sites .document (.map es))) ∧
    ((∀ s ∈ Node.sites (.map es), s.IdsDistinct) →
      Reported (Node.problems (.map es)) (Node.sites (.map es))) := by
  refine graph_induction
    (G := fun es => (∀ s ∈ Graph.sites .document (.map es), s.IdsDistinct) →
      Reported (Graph.problems (.map es)) (Graph.sites .document (.map es)))
    (N := fun es => (∀ s ∈ Node.sites (.map es), s.IdsDistinct) →
      Reported (Node.problems (.map es)) (Node.sites (.map es)))
    (fun es ih hdistinct => ?_) (fun es ih hdistinct => ?_) es
  · rw [graph_idsDistinct_iff] at hdistinct
    rw [Graph.problems_eq_site, Graph.sites_eq rfl]
    refine reported_mapping (by decide) fun hopens => ?_
    obtain ⟨hnodup, hnodes⟩ := hdistinct hopens
    have hself : (innerSites es).map (Site.inside Role.document.steps) = innerSites es :=
      List.map_id'' Site.inside_nil _
    rw [nodesProblemsIn_eq_flatMap, rawNodes_of_nodup hnodup, List.flatMap_map, hself]
    refine .flatMap fun e he => .inside ?_ _
    cases hfs : e.2.entries? with
    | none =>
      rw [Node.problems_of_none hfs, Node.sites_of_none hfs]
      exact .nil
    | some fs =>
      rw [Node.problems_congr hfs, Node.sites_congr hfs]
      exact ih e he fs hfs (hnodes e he fs hfs)
  · rw [node_idsDistinct_iff] at hdistinct
    rw [Node.problems_eq_site, Node.sites_eq rfl]
    refine reported_mapping (by decide) fun hopens => ?_
    rw [embeddingProblemsIn_eq_entries, embeddedSites]
    cases hfs : embeddedEntries? es with
    | none => exact .nil
    | some fs => exact reported_embedded (ih fs hfs (hdistinct hopens fs hfs))

/-! ## Documents -/

/-- **What is reported of a document.** If no node of a document takes the place of another, it is
refused just if one of its sites cannot be opened or has a key that is no text, and then the
problems that are listed are those of its sites. -/
theorem check_reports_sites {v : Value} (h : ∀ s ∈ Graph.sites .document v, s.IdsDistinct) :
    ((∃ ps, Graph.check v = .error ps) ↔
        ∃ s ∈ Graph.sites .document v, s.opens = false ∨ foreignKeys s.entries ≠ []) ∧
      ∀ ps, Graph.check v = .error ps →
        ps.Perm ((Graph.sites .document v).flatMap Site.problems) := by
  have hreported : Reported (Graph.problems v) (Graph.sites .document v) := by
    cases hv : v.entries? with
    | none =>
      rw [Graph.problems_of_none hv, Graph.sites_of_none hv]
      exact .nil
    | some es =>
      rw [Graph.sites_congr hv] at h ⊢
      rw [Graph.problems_congr hv]
      exact (reported_entries es).1 h
  refine ⟨?_, fun ps hps => (Graph.check_eq_error_iff.1 hps).1 ▸ hreported.perm⟩
  simp only [Graph.check_eq_error_iff, exists_eq_left', ne_eq, hreported.eq_nil_iff]
  simp [← Site.isFaulty_iff]

/-- A graph with a key that is no text, embedded in one whose node has such a key too. -/
def foreignKeyDocument : Value :=
  .map [(.str "nodes", .map [(.int 1, .map [(.null, .null), (.str "graph",
    .map [(.bool true, .null), (.str "nodes", .map [(.float ⟨false, 0⟩, .map [])])])])])]

theorem foreignKeyDocument_reports :
    (∀ s ∈ Graph.sites .document foreignKeyDocument, s.IdsDistinct) ∧
      ∃ ps, Graph.check foreignKeyDocument = .error ps ∧ ps.Perm
        [⟨[.name "nodes", .name "1", .name "None"], .invalidKey⟩,
          ⟨[.name "nodes", .name "1", .name "graph", .name "GraphDescription", .index 1],
            .invalidKey⟩,
          ⟨[.name "nodes", .name "1", .name "graph", .name "str"], .stringType⟩] := by
  have hids : ∀ s ∈ Graph.sites .document foreignKeyDocument, s.IdsDistinct := by
    decide +kernel
  obtain ⟨hiff, hperm⟩ := check_reports_sites hids
  have hfaulty : ∃ s ∈ Graph.sites .document foreignKeyDocument, s.isFaulty = true := by
    decide +kernel
  simp only [Site.isFaulty_iff] at hfaulty
  obtain ⟨ps, hps⟩ := hiff.2 hfaulty
  have hproblems : (Graph.sites .document foreignKeyDocument).flatMap Site.problems
      = [⟨[.name "nodes", .name "1", .name "None"], .invalidKey⟩,
        ⟨[.name "nodes", .name "1", .name "graph", .name "GraphDescription", .index 1],
          .invalidKey⟩,
        ⟨[.name "nodes", .name "1", .name "graph", .name "str"], .stringType⟩] := by
    decide +kernel
  exact ⟨hids, ps, hps, hproblems ▸ hperm ps hps⟩

/-- A graph one of whose members is named by half of a surrogate pair. -/
def halfNameDocument : Value := .map [(.str [.surrogate 0], .int 1)]

/-- A key that is half of a surrogate pair is a text, and yet no key of a graph. -/
theorem halfNameDocument_refused :
    Graph.check halfNameDocument = .error [⟨[], .stringUnicode⟩] ∧
      ¬ ∃ s ∈ Graph.sites .document halfNameDocument, foreignKeys s.entries ≠ [] := by
  have hproblems : Graph.problems halfNameDocument = [⟨[], .stringUnicode⟩] := by decide +kernel
  have hkeys : ∀ s ∈ Graph.sites .document halfNameDocument,
      (foreignKeys s.entries).isEmpty = true := by decide +kernel
  refine ⟨Graph.check_eq_error_iff.2 ⟨hproblems, List.cons_ne_nil _ _⟩, ?_⟩
  rintro ⟨s, hs, hforeign⟩
  exact hforeign (List.isEmpty_iff.1 (hkeys s hs))

end AgentFlow
