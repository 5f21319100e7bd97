import AgentFlow.Graph.Check

/-!
# Graphs as documents write them

What is read off the entries of a document is read off its first member of a name, and its nodes
are its entries with one for each id.

* `mem_collapse`, `collapse_map`: what is kept was there, and changing the things one by one
  commutes with keeping one for each name.
* `collapse_of_nodup`: distinct names are kept as they are.
* `eq_field?`: a search for the first member of a name finds the field of that name.
* `nodup_collapse`: one thing is kept for each name.
* `rawNodes`: the nodes of a document before they are read.
* `members_induction`: what holds of a value if it holds of its members holds of all values.
* `nodeEntries`, `embeddedEntries?`: the nodes of a graph and the graph of a node as they are
  written; `graph_induction` is the induction along them.
-/

namespace AgentFlow

variable {α β : Type}

theorem mem_putNamed {es : List (Text × α)} {k : Text} {a : α} {e : Text × α}
    (h : e ∈ putNamed es k a) : e ∈ es ∨ e = (k, a) := by
  induction es with
  | nil => exact .inr (List.mem_singleton.1 h)
  | cons d es ih =>
    rw [putNamed] at h
    split at h
    · rcases List.mem_cons.1 h with rfl | h
      · exact .inr rfl
      · exact .inl (List.mem_cons_of_mem _ h)
    · rcases List.mem_cons.1 h with rfl | h
      · exact .inl List.mem_cons_self
      · exact (ih h).imp_left (List.mem_cons_of_mem _)

/-- What is kept was there. -/
theorem mem_collapse {es : List (Text × α)} {e : Text × α} (h : e ∈ collapse es) : e ∈ es := by
  suffices ∀ acc, e ∈ es.foldl (fun acc e => putNamed acc e.1 e.2) acc → e ∈ acc ∨ e ∈ es from
    (this [] h).resolve_left (by simp)
  clear h
  induction es with
  | nil => exact fun acc h => .inl h
  | cons d es ih =>
    intro acc h
    rcases ih _ h with h | h
    · rcases mem_putNamed h with h | rfl
      · exact .inl h
      · exact .inr List.mem_cons_self
    · exact .inr (List.mem_cons_of_mem _ h)

theorem putNamed_map (f : Text → α → β) (es : List (Text × α)) (k : Text) (a : α) :
    putNamed (es.map fun e => (e.1, f e.1 e.2)) k (f k a)
      = (putNamed es k a).map fun e => (e.1, f e.1 e.2) := by
  induction es with
  | nil => rfl
  | cons e es ih =>
    rw [List.map_cons, putNamed, putNamed, ih]
    split <;> rfl

/-- Changing the things one by one commutes with putting them together. -/
theorem collapse_map (f : Text → α → β) (es : List (Text × α)) :
    collapse (es.map fun e => (e.1, f e.1 e.2))
      = (collapse es).map fun e => (e.1, f e.1 e.2) := by
  suffices ∀ acc : List (Text × α), (es.map fun e => (e.1, f e.1 e.2)).foldl
      (fun acc e => putNamed acc e.1 e.2) (acc.map fun e => (e.1, f e.1 e.2))
      = (es.foldl (fun acc e => putNamed acc e.1 e.2) acc).map fun e => (e.1, f e.1 e.2) from
    this []
  induction es with
  | nil => exact fun acc => rfl
  | cons e es ih =>
    intro acc
    rw [List.map_cons, List.foldl_cons, List.foldl_cons, putNamed_map]
    exact ih _

theorem putNamed_of_not_mem {es : List (Text × α)} {k : Text} (h : k ∉ es.map (·.1)) (a : α) :
    putNamed es k a = es ++ [(k, a)] := by
  induction es with
  | nil => rfl
  | cons e es ih =>
    rw [List.map_cons, List.mem_cons, not_or] at h
    rw [putNamed, if_neg (Ne.symm h.1), ih h.2]
    rfl

/-- Distinct names are kept as they are. -/
theorem collapse_of_nodup {es : List (Text × α)} (h : (es.map (·.1)).Nodup) : collapse es = es := by
  suffices ∀ acc : List (Text × α), ((acc ++ es).map (·.1)).Nodup →
      es.foldl (fun acc e => putNamed acc e.1 e.2) acc = acc ++ es from this [] h
  clear h
  induction es with
  | nil => simp
  | cons e es ih =>
    intro acc h
    have hnew : e.1 ∉ acc.map (·.1) := by
      rw [List.map_append, List.map_cons, List.nodup_append] at h
      exact fun hmem => h.2.2 e.1 hmem e.1 List.mem_cons_self rfl
    have happ : acc ++ [(e.1, e.2)] ++ es = acc ++ e :: es := by simp
    rw [List.foldl_cons, putNamed_of_not_mem hnew, ih _ (happ ▸ h), happ]

theorem map_putNamed (es : List (Text × α)) (k : Text) (a : α) :
    (putNamed es k a).map (·.1)
      = if k ∈ es.map (·.1) then es.map (·.1) else es.map (·.1) ++ [k] := by
  induction es with
  | nil => rfl
  | cons e es ih =>
    rw [putNamed]
    by_cases he : e.1 = k
    · simp [he]
    · have hk : k ≠ e.1 := Ne.symm he
      rw [if_neg he, List.map_cons, List.map_cons, ih]
      by_cases hmem : k ∈ es.map (·.1) <;> simp_all

/-- One thing is kept for each name. -/
theorem nodup_collapse (es : List (Text × α)) : ((collapse es).map (·.1)).Nodup := by
  suffices ∀ acc : List (Text × α), (acc.map (·.1)).Nodup →
      ((es.foldl (fun acc e => putNamed acc e.1 e.2) acc).map (·.1)).Nodup from
    this [] List.nodup_nil
  induction es with
  | nil => exact fun acc h => h
  | cons e es ih =>
    refine fun acc h => ih _ ?_
    rw [map_putNamed]
    split
    · exact h
    case isFalse hnew =>
      refine List.nodup_append.2 ⟨h, by simp, fun a ha b hb hab => hnew ?_⟩
      rwa [← List.mem_singleton.1 hb, ← hab]

/-! ## The first member of a name -/

section

variable {γ : Type} {f : Entries → γ} {g : Value → γ} {name : Text} {d : γ}

/-- A search for the first member of a name finds the field of that name. -/
theorem eq_field? (hnil : f [] = d)
    (hcons : ∀ k v es, f ((k, v) :: es) = if k.sameKey (.str name) then g v else f es)
    (es : Entries) : f es = ((es.field? name).map g).getD d := by
  induction es with
  | nil => exact hnil
  | cons e es ih =>
    rw [hcons e.1 e.2 es, ih, Entries.field?, Entries.field?, Entries.get?, Entries.get?,
      List.find?_cons]
    cases e.1.sameKey (.str name) <;> rfl

theorem Entries.field?_mem {es : Entries} {v : Value} (h : es.field? name = some v) :
    ∃ e ∈ es, e.2 = v := by
  obtain ⟨e, he, rfl⟩ := Option.map_eq_some_iff.1 h
  exact ⟨e, List.mem_of_find?_eq_some he, rfl⟩

/-- What holds of all members and where there is none holds of a field. -/
theorem field?_induction {P : γ → Prop} {es : Entries} (hd : P d) (h : ∀ e ∈ es, P (g e.2)) :
    P (((es.field? name).map g).getD d) := by
  cases hv : es.field? name with
  | none => exact hd
  | some v =>
    obtain ⟨e, he, rfl⟩ := Entries.field?_mem hv
    exact h e he

theorem Entries.hasName_eq (es : Entries) (name : Text) :
    es.hasName name = (es.field? name).isSome := by
  rw [field?, get?, Option.isSome_map, List.isSome_find?, hasName, hasKey]

end

theorem nodesIn_eq (es : Entries) : nodesIn es = ((es.field? "nodes").map nodesOf).getD [] :=
  eq_field? (by rw [nodesIn]) (fun _ _ _ => by rw [nodesIn]) es

theorem embeddingIn_eq (es : Entries) :
    embeddingIn es = ((es.field? "graph").map Embedding.ofValue).getD .absent :=
  eq_field? (by rw [embeddingIn]) (fun _ _ _ => by rw [embeddingIn]) es

theorem nodesProblemsIn_eq (es : Entries) :
    nodesProblemsIn es = ((es.field? "nodes").map nodesProblems).getD [] :=
  eq_field? (by rw [nodesProblemsIn]) (fun _ _ _ => by rw [nodesProblemsIn]) es

theorem embeddingProblemsIn_eq (es : Entries) : embeddingProblemsIn es
    = ((es.field? "graph").map fun v => embeddedProblems (Graph.problems v)).getD [] :=
  eq_field? (by rw [embeddingProblemsIn]) (fun _ _ _ => by rw [embeddingProblemsIn]) es

/-! ## Nodes of a document -/

/-- The raw nodes of entries by id: a later one takes the place of an earlier one of its id. -/
def rawNodes (es : Entries) : List (Text × Value) := collapse (es.map fun e => (e.1.shown, e.2))

theorem mem_of_mem_rawNodes {es : Entries} {n : Text × Value} (h : n ∈ rawNodes es) :
    ∃ e ∈ es, n = (e.1.shown, e.2) := by
  obtain ⟨e, he, rfl⟩ := List.mem_map.1 (mem_collapse h)
  exact ⟨e, he, rfl⟩

theorem nodesOf_map (es : Entries) :
    nodesOf (.map es) = (rawNodes es).map fun n => (n.1, Node.ofValue n.2) := by
  have hlist : nodeList es
      = (es.map fun e => (e.1.shown, e.2)).map fun n => (n.1, Node.ofValue n.2) := by
    induction es with
    | nil => rfl
    | cons e es ih =>
      obtain ⟨k, v⟩ := e
      rw [nodeList, ih]
      rfl
  rw [nodesOf, hlist, collapse_map fun _ v => Node.ofValue v]
  rfl

theorem nodesProblems_map (es : Entries) :
    nodesProblems (.map es) = (rawNodes es).flatMap fun n =>
      (Node.problems n.2).map (Problem.inside [.name "nodes", nameStep n.1]) := by
  have hlist : nodeProblemList es
      = (es.map fun e => (e.1.shown, e.2)).map fun n => (n.1, Node.problems n.2) := by
    induction es with
    | nil => rfl
    | cons e es ih =>
      obtain ⟨k, v⟩ := e
      rw [nodeProblemList, ih]
      rfl
  rw [nodesProblems, hlist, collapse_map fun _ v => Node.problems v, List.flatMap_map]
  rfl

/-! ## Members of members -/

private theorem sizeOf_member_lt {es : Entries} {e : Value × Value} (h : e ∈ es) :
    sizeOf e.2 < sizeOf es := by
  have hlt := List.sizeOf_lt_of_mem h
  have hpair : sizeOf e = 1 + sizeOf e.1 + sizeOf e.2 := rfl
  omega

/-- What holds of a value if it holds of all its members holds of every value. -/
theorem members_induction {P : Value → Prop}
    (h : ∀ v, (∀ es, v.entries? = some es → ∀ e ∈ es, P e.2) → P v) (v : Value) : P v := by
  induction hn : sizeOf v using Nat.strongRecOn generalizing v with
  | _ n ih =>
    subst hn
    refine h v fun es hes e he => ?_
    have hlt := sizeOf_member_lt he
    cases v <;> cases hes
    · exact ih _ (Nat.lt_trans hlt (by simp)) _ rfl
    · exact ih _ (Nat.lt_trans hlt (by simp)) _ rfl

/-! ## Graphs and nodes by their entries -/

/-- The entries of the member `nodes` of a mapping. -/
def nodeEntries (es : Entries) : Entries := ((es.field? "nodes").bind Value.entries?).getD []

/-- The entries of the member `graph` of a mapping, if that is a mapping. -/
def embeddedEntries? (es : Entries) : Option Entries := (es.field? "graph").bind Value.entries?

theorem nodesIn_eq_map (es : Entries) :
    nodesIn es = (rawNodes (nodeEntries es)).map fun n => (n.1, Node.ofValue n.2) := by
  rw [nodesIn_eq, nodeEntries]
  cases es.field? "nodes" with
  | none => rfl
  | some v =>
    cases v with
    | map ns => exact nodesOf_map ns
    | orderedMap ns =>
      have h := nodesOf_map ns
      rw [nodesOf] at h
      rw [Option.map_some, Option.getD_some, nodesOf, h]
      rfl
    | _ => rfl

theorem graph?_embeddingIn (es : Entries) :
    (embeddingIn es).graph? = (embeddedEntries? es).map fun fs => Graph.ofValue (.map fs) := by
  rw [embeddingIn_eq, embeddedEntries?]
  cases es.field? "graph" with
  | none => rfl
  | some v => cases v <;> simp [Embedding.ofValue, Embedding.graph?, Value.entries?, Graph.ofValue]

theorem nodesProblemsIn_eq_flatMap (es : Entries) :
    nodesProblemsIn es = (rawNodes (nodeEntries es)).flatMap fun n =>
      (Node.problems n.2).map (Problem.inside [.name "nodes", nameStep n.1]) := by
  rw [nodesProblemsIn_eq, nodeEntries]
  cases es.field? "nodes" with
  | none => rfl
  | some v =>
    cases v with
    | map ns => exact nodesProblems_map ns
    | orderedMap ns =>
      have h := nodesProblems_map ns
      rw [nodesProblems] at h
      rw [Option.map_some, Option.getD_some, nodesProblems, h]
      rfl
    | _ => rfl

theorem Graph.problems_of_none {v : Value} (h : v.entries? = none) : Graph.problems v = [] := by
  cases v <;> first | rfl | cases h

theorem Graph.problems_eq {v : Value} {es : Entries} (h : v.entries? = some es) :
    Graph.problems v
      = if idsShowable es then mappingProblems (nodesProblemsIn es) es
        else [⟨[], .valueError⟩] := by
  cases v <;> cases h <;> rw [Graph.problems]

theorem Node.problems_of_none {v : Value} (h : v.entries? = none) : Node.problems v = [] := by
  cases v <;> first | rfl | cases h

theorem Node.problems_eq {v : Value} {es : Entries} (h : v.entries? = some es) :
    Node.problems v = mappingProblems (embeddingProblemsIn es) es := by
  cases v <;> cases h <;> rw [Node.problems]

theorem Graph.problems_congr {v : Value} {es : Entries} (h : v.entries? = some es) :
    Graph.problems v = Graph.problems (.map es) := by
  rw [Graph.problems_eq h, Graph.problems_eq rfl]

theorem Node.problems_congr {v : Value} {es : Entries} (h : v.entries? = some es) :
    Node.problems v = Node.problems (.map es) := by
  rw [Node.problems_eq h, Node.problems_eq rfl]

theorem embeddingProblemsIn_eq_entries (es : Entries) :
    embeddingProblemsIn es = ((embeddedEntries? es).map fun fs =>
      embeddedProblems (Graph.problems (.map fs))).getD [] := by
  rw [embeddingProblemsIn_eq, embeddedEntries?]
  cases es.field? "graph" with
  | none => rfl
  | some v =>
    cases hv : v.entries? with
    | none => simp [hv, Graph.problems_of_none hv, embeddedProblems]
    | some fs => simp [hv, Graph.problems_congr hv]

/-- A mapping describes the same graph whether it is ordered or not. -/
theorem Graph.ofValue_eq {v : Value} {es : Entries} (h : v.entries? = some es) :
    Graph.ofValue v = .mk (nodesIn es) (otherMembers graphMembers es) := by
  cases v <;> cases h <;> rw [Graph.ofValue]

theorem Node.ofValue_eq {v : Value} {es : Entries} (h : v.entries? = some es) :
    Node.ofValue v = .mk (es.field? "agent") (es.field? "inputs") (es.field? "update")
      (embeddingIn es) (otherMembers nodeMembers es) := by
  cases v <;> cases h <;> rw [Node.ofValue]

/-- What is no mapping describes the graph without nodes. -/
theorem Graph.ofValue_of_none {v : Value} (h : v.entries? = none) : Graph.ofValue v = .empty := by
  cases v <;> first | rfl | cases h

/-- A node that is no mapping declares nothing. -/
theorem Node.ofValue_of_none {v : Value} (h : v.entries? = none) :
    Node.ofValue v = .mk none none none .absent [] := by
  cases v <;> first | rfl | cases h

/-- A value is accepted if it has no problems, as the graph that it describes. -/
theorem Graph.check_eq_ok_iff {v : Value} {g : Graph} :
    Graph.check v = .ok g ↔ Graph.problems v = [] ∧ Graph.ofValue v = g := by
  rw [Graph.check]
  split
  case isTrue h => simp [List.isEmpty_iff.1 h]
  case isFalse h => simp [mt List.isEmpty_iff.2 h]

/-- A value is refused for its problems, if it has any. -/
theorem Graph.check_eq_error_iff {v : Value} {ps : List Problem} :
    Graph.check v = .error ps ↔ Graph.problems v = ps ∧ ps ≠ [] := by
  rw [Graph.check]
  split
  case isTrue h => simp [List.isEmpty_iff.1 h, eq_comm]
  case isFalse h =>
    have hne := mt List.isEmpty_iff.2 h
    exact ⟨fun heq => ⟨Except.error.inj heq, Except.error.inj heq ▸ hne⟩, fun heq => heq.1 ▸ rfl⟩

private theorem mem_entries_of_field {es fs : Entries} {name : Text}
    (h : (es.field? name).bind Value.entries? = some fs) :
    ∃ e ∈ es, e.2.entries? = some fs := by
  obtain ⟨v, hv, hfs⟩ := Option.bind_eq_some_iff.1 h
  obtain ⟨e, he, rfl⟩ := Entries.field?_mem hv
  exact ⟨e, he, hfs⟩

/-- Induction over the graphs and nodes of a document. What holds of a graph if it holds of its
nodes, and of a node if it holds of its graph, holds of all mappings. -/
theorem graph_induction {G N : Entries → Prop}
    (graph : ∀ es, (∀ e ∈ nodeEntries es, ∀ fs, e.2.entries? = some fs → N fs) → G es)
    (node : ∀ es, (∀ fs, embeddedEntries? es = some fs → G fs) → N es) (es : Entries) :
    G es ∧ N es := by
  suffices ∀ v : Value, (∀ fs, v.entries? = some fs → G fs ∧ N fs) ∧
      ∀ ns, v.entries? = some ns → ∀ e ∈ ns, ∀ fs, e.2.entries? = some fs → N fs from
    (this (.map es)).1 es rfl
  intro v
  induction v using members_induction with
  | h v ih =>
  refine ⟨fun es hes => ⟨graph es fun e he fs hfs => ?_, node es fun fs hfs => ?_⟩,
    fun ns hns e he fs hfs => ((ih ns hns e he).1 fs hfs).2⟩
  · cases hns : (es.field? "nodes").bind Value.entries? with
    | none => simp [nodeEntries, hns] at he
    | some ns =>
      rw [nodeEntries, hns, Option.getD_some] at he
      obtain ⟨d, hd, hdn⟩ := mem_entries_of_field hns
      exact (ih es hes d hd).2 ns hdn e he fs hfs
  · obtain ⟨d, hd, hdf⟩ := mem_entries_of_field hfs
    exact ((ih es hes d hd).1 fs hdf).1

end AgentFlow
