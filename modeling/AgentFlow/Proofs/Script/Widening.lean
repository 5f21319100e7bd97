import AgentFlow.Proofs.Script.GraphText
import AgentFlow.Proofs.Script.Members

/-!
# The graph around a position

The search for a graph starts with the innermost object literal around a position and ends with the
first that has one of the keys of a graph. Nodes with an agent or a value are looked for as well,
but they stand in a mapping under one of these keys. So all positions from which the same literal is
found give the same text.

* `looksLikeGraph_map`: a mapping looks like a graph just if it has one of the keys.
* `IsGraph`, `IsInnermostGraph`: the literals that are graphs, and the one that is found.
* `IsFaultless`: what is asked of the literals that are passed.
* `graphAt?_innermost`: the text of the graph around a position.
-/

namespace AgentFlow.Script

variable {s : Script} {p q : Position} {t : Tree} {v : Value}

/-! ## The keys of a graph -/

/-- The look into the nodes of a mapping decides nothing. -/
theorem looksLikeGraph_map (es : Entries) :
    looksLikeGraph (.map es) = true ↔ ∃ k ∈ graphKeys, ∃ v, es.field? k = some v := by
  have hname (k : Text) : es.hasName k = true ↔ ∃ v, es.field? k = some v := by
    rw [Entries.hasName, Entries.hasKey_eq, Option.isSome_iff_exists]
    rfl
  rw [looksLikeGraph, Value.entries?, Bool.or_eq_true, List.any_eq_true, List.any_eq_true]
  simp only [hname]
  refine or_iff_right_of_imp ?_
  rintro ⟨e, he, -⟩
  cases hnodes : es.field? "nodes" with
  | none =>
    rw [hnodes] at he
    cases he
  | some v => exact ⟨"nodes", .head _, v, hnodes⟩

/-- Whether a literal is converted to a mapping with one of the keys of a graph. -/
def IsGraph (s : Script) (t : Tree) : Prop :=
  ∃ es : Entries, s.value t = .ok (.map es) ∧ ∃ k ∈ graphKeys, ∃ v, es.field? k = some v

/-- Whether a literal is the innermost graph around a position. -/
def IsInnermostGraph (s : Script) (p : Position) (t : Tree) : Prop :=
  ∃ inner outer, s.objectsAround p = inner ++ t :: outer ∧ s.IsGraph t ∧
    ∀ u ∈ inner, ¬ s.IsGraph u

/-- Whether nothing fails on the way to the graph around a position: literals that no graph stands
inside of are converted, and the graph is written. -/
structure IsFaultless (s : Script) (p : Position) : Prop where
  converts : ∀ inner t outer, s.objectsAround p = inner ++ t :: outer →
    (∀ u ∈ inner, ¬ s.IsGraph u) → ∃ v, s.value t = .ok v
  writes : ∀ t v, s.IsInnermostGraph p t → s.value t = .ok v →
    ∃ text, Json.write? (.indented 2) v = some text

/-! ## Literals that are graphs -/

theorem kind_of_mem_objectsAround (h : t ∈ s.objectsAround p) : t.kind = .object := by
  simpa using List.of_mem_filter h

theorem exists_entries_of_value (ht : t.kind = .object) (hv : s.value t = .ok v) :
    ∃ es : Entries, v = .map es := by
  rw [value, ← t.withMembers_labelled] at hv
  exact exists_entries_of_convert ht hv

theorem isGraph_iff_looksLikeGraph (ht : t.kind = .object) (hv : s.value t = .ok v) :
    s.IsGraph t ↔ looksLikeGraph v = true := by
  obtain ⟨es, rfl⟩ := exists_entries_of_value ht hv
  rw [looksLikeGraph_map, IsGraph, hv]
  constructor
  · rintro ⟨es', hes, hkeys⟩
    exact Value.map.inj (Except.ok.inj hes) ▸ hkeys
  · intro hkeys
    exact ⟨es, rfl, hkeys⟩

/-- A literal is a graph just if one of its members supplies a key of a graph. -/
theorem isGraph_iff_supplies (ht : t.kind = .object) (hv : s.value t = .ok v) :
    s.IsGraph t ↔ ∃ m ∈ t.labelled, ∃ k ∈ graphKeys, ∃ w, Supplies s.root [] t m k w := by
  obtain ⟨es, rfl⟩ := exists_entries_of_value ht hv
  have hfield (k : Text) := by
    rw [value, ← t.withMembers_labelled] at hv
    exact exists_field?_iff ht hv k
  rw [isGraph_iff_looksLikeGraph ht hv, looksLikeGraph_map]
  simp only [hfield]
  constructor
  · rintro ⟨k, hk, m, hm, hsupplies⟩
    exact ⟨m, hm, k, hk, hsupplies⟩
  · rintro ⟨m, hm, k, hk, hsupplies⟩
    exact ⟨k, hk, m, hm, hsupplies⟩

/-- The innermost graph around a position is the first one. -/
theorem IsInnermostGraph.unique (h : s.IsInnermostGraph p t) {u : Tree}
    (h' : s.IsInnermostGraph p u) : t = u := by
  classical
  have hfind {t : Tree} (h : s.IsInnermostGraph p t) :
      (s.objectsAround p).find? (fun t => decide (s.IsGraph t)) = some t := by
    obtain ⟨inner, outer, hcut, ht, hinner⟩ := h
    exact List.find?_eq_some_iff_append.2
      ⟨decide_eq_true ht, inner, outer, hcut, fun u hu => by simp [hinner u hu]⟩
  exact Option.some.inj ((hfind h).symm.trans (hfind h'))

theorem exists_isInnermostGraph (ht : t ∈ s.objectsAround p) (hgraph : s.IsGraph t) :
    ∃ u, s.IsInnermostGraph p u := by
  classical
  have hsome : ((s.objectsAround p).find? fun t => decide (s.IsGraph t)).isSome = true :=
    List.find?_isSome.2 ⟨t, ht, decide_eq_true hgraph⟩
  obtain ⟨u, hu⟩ := Option.isSome_iff_exists.1 hsome
  obtain ⟨hgraph, inner, outer, hcut, hinner⟩ := List.find?_eq_some_iff_append.1 hu
  exact ⟨u, inner, outer, hcut, of_decide_eq_true hgraph, fun w hw => by simpa using hinner w hw⟩

/-! ## The search -/

/-- Literals that do not look like a graph are passed. -/
theorem firstGraph_append {inner outer : List Tree}
    (h : ∀ u ∈ inner, ∃ v, s.value u = .ok v ∧ looksLikeGraph v = false) :
    s.firstGraph (inner ++ outer) = s.firstGraph outer := by
  induction inner with
  | nil => rfl
  | cons u inner ih =>
    obtain ⟨v, hv, hlooks⟩ := h u List.mem_cons_self
    rw [List.cons_append, firstGraph, hv]
    simp only [Bind.bind, Except.bind, hlooks, Bool.false_eq_true, if_false]
    exact ih fun w hw => h w (List.mem_cons_of_mem _ hw)

/-- Of the literals in front of which no graph stands, those that are no graphs are passed. -/
theorem IsFaultless.passes (h : s.IsFaultless p) {inner outer : List Tree}
    (hcut : s.objectsAround p = inner ++ outer) (hinner : ∀ u ∈ inner, ¬ s.IsGraph u) :
    ∀ u ∈ inner, ∃ v, s.value u = .ok v ∧ looksLikeGraph v = false := by
  intro u hu
  obtain ⟨front, behind, rfl⟩ := List.append_of_mem hu
  obtain ⟨v, hv⟩ := h.converts front u (behind ++ outer) (by simp [hcut])
    fun w hw => hinner w (by simp [hw])
  have hmem : u ∈ s.objectsAround p := by simp [hcut]
  refine ⟨v, hv, ?_⟩
  rw [← Bool.not_eq_true, ← isGraph_iff_looksLikeGraph (kind_of_mem_objectsAround hmem) hv]
  exact hinner u hu

theorem IsFaultless.graphAt?_of_innermost (h : s.IsFaultless p) (ht : s.IsInnermostGraph p t) :
    ∃ v text, s.value t = .ok v ∧ Json.write? (.indented 2) v = some text ∧
      s.graphAt? p = some text := by
  obtain ⟨inner, outer, hcut, hgraph, hinner⟩ := id ht
  obtain ⟨v, hv⟩ := h.converts inner t outer hcut hinner
  obtain ⟨text, htext⟩ := h.writes t v ht hv
  have hmem : t ∈ s.objectsAround p := by simp [hcut]
  have hlooks := (isGraph_iff_looksLikeGraph (kind_of_mem_objectsAround hmem) hv).1 hgraph
  have hfirst : s.firstGraph (s.objectsAround p) = .ok (some v) := by
    rw [hcut, firstGraph_append (h.passes hcut hinner), firstGraph, hv]
    simp only [Bind.bind, Except.bind, hlooks, if_true]
  refine ⟨v, text, hv, htext, ?_⟩
  rw [graphAt?, hfirst]
  exact htext

theorem IsFaultless.graphAt?_of_not_isGraph (h : s.IsFaultless p)
    (hnone : ∀ t ∈ s.objectsAround p, ¬ s.IsGraph t) : s.graphAt? p = none := by
  have hcut : s.objectsAround p = s.objectsAround p ++ [] := (List.append_nil _).symm
  have hfirst : s.firstGraph (s.objectsAround p) = .ok none := by
    rw [hcut, firstGraph_append (h.passes hcut hnone)]
    rfl
  rw [graphAt?, hfirst]

/-- **The search widens to the innermost graph.** There is no text just if no literal around the
position is a graph, and else it is the text of the innermost one. A literal is a graph just if one
of its members, which may be a spread or a name, supplies a key of a graph. From all positions with
the same innermost graph the text is the same. -/
theorem graphAt?_innermost (h : s.IsFaultless p) :
    (s.graphAt? p = none ↔ ∀ t ∈ s.objectsAround p, ¬ s.IsGraph t) ∧
    (∀ text, s.graphAt? p = some text ↔ ∃ t v, s.IsInnermostGraph p t ∧ s.value t = .ok v ∧
      Json.write? (.indented 2) v = some text) ∧
    (∀ t ∈ s.objectsAround p, ∀ v, s.value t = .ok v →
      (s.IsGraph t ↔
        ∃ m ∈ t.labelled, ∃ k ∈ graphKeys, ∃ w, Supplies s.root [] t m k w)) ∧
    ∀ q t, s.IsFaultless q → s.IsInnermostGraph p t → s.IsInnermostGraph q t →
      s.graphAt? p = s.graphAt? q := by
  refine ⟨⟨fun hnone t ht hgraph => ?_, h.graphAt?_of_not_isGraph⟩,
    fun text => ⟨fun htext => ?_, ?_⟩,
    fun t ht v hv => isGraph_iff_supplies (kind_of_mem_objectsAround ht) hv,
    fun q t hq hp ht => ?_⟩
  · obtain ⟨u, hu⟩ := exists_isInnermostGraph ht hgraph
    obtain ⟨v, text, -, -, htext⟩ := h.graphAt?_of_innermost hu
    rw [hnone] at htext
    cases htext
  · by_contra hnot
    have hnone : ∀ t ∈ s.objectsAround p, ¬ s.IsGraph t := by
      intro t ht hgraph
      obtain ⟨u, hu⟩ := exists_isInnermostGraph ht hgraph
      obtain ⟨v, text', hv, hwrite, htext'⟩ := h.graphAt?_of_innermost hu
      obtain rfl := Option.some.inj (htext.symm.trans htext')
      exact hnot ⟨u, v, hu, hv, hwrite⟩
    rw [h.graphAt?_of_not_isGraph hnone] at htext
    cases htext
  · rintro ⟨t, v, ht, hv, hwrite⟩
    obtain ⟨v', text', hv', hwrite', htext'⟩ := h.graphAt?_of_innermost ht
    obtain rfl := Except.ok.inj (hv.symm.trans hv')
    rw [htext', ← hwrite', hwrite]
  · obtain ⟨v, text, hv, hwrite, htext⟩ := h.graphAt?_of_innermost hp
    obtain ⟨v', text', hv', hwrite', htext'⟩ := hq.graphAt?_of_innermost ht
    obtain rfl := Except.ok.inj (hv.symm.trans hv')
    rw [htext, htext', ← hwrite, hwrite']

theorem IsFaultless.of_written (h : ∀ t ∈ s.objectsAround p, ∃ v text, s.value t = .ok v ∧
    Json.write? (.indented 2) v = some text) : s.IsFaultless p where
  converts inner t outer hcut _ := by
    obtain ⟨v, -, hv, -⟩ := h t (by simp [hcut])
    exact ⟨v, hv⟩
  writes t v ht hv := by
    obtain ⟨inner, outer, hcut, -⟩ := ht
    obtain ⟨v', text, hv', htext⟩ := h t (by simp [hcut])
    obtain rfl := Except.ok.inj (hv.symm.trans hv')
    exact ⟨text, htext⟩

/-- A literal that is no graph, as the value of a member of `versionLiteral`. -/
def plainLiteral : Tree :=
  .node .object 20 29 "\x7ba: true\x7d".toList
    [(.plain, pairOf (leafAt .propertyName 21 ['a']) (leafAt .trueWord 24 "true".toList))]

def versionLiteral : Tree :=
  .node .object 10 30 "\x7bversion: \x7ba: true\x7d\x7d".toList
    [(.plain, pairOf (leafAt .propertyName 11 "version".toList) plainLiteral)]

def versionScript : Script where
  chars := "const g = \x7bversion: \x7ba: true\x7d\x7d;".toList
  root := .node .other 0 31 "const g = \x7bversion: \x7ba: true\x7d\x7d;".toList [
    (.plain, .node .other 0 30 "const g = \x7bversion: \x7ba: true\x7d\x7d".toList [
      (.plain, .node .declarator 6 30 "g = \x7bversion: \x7ba: true\x7d\x7d".toList [
        (.name, leafAt .identifier 6 ['g']), (.value, versionLiteral)])])]

theorem value_plainLiteral :
    versionScript.value plainLiteral = .ok (.map [(.str "a", .bool true)]) :=
  answer_of_run (n := 10) (c := ⟨[], .node plainLiteral⟩) rfl

theorem value_versionLiteral : versionScript.value versionLiteral =
    .ok (.map [(.str "version", .map [(.str "a", .bool true)])]) :=
  answer_of_run (n := 10) (c := ⟨[], .node versionLiteral⟩) rfl

/-- The text of a graph is the same inside of a literal that is none, and outside of it. -/
theorem graphAt?_versionScript :
    Script.ofChars versionScript.chars = versionScript ∧
    versionScript.IsFaultless ⟨0, 22⟩ ∧ versionScript.IsFaultless ⟨0, 12⟩ ∧
    versionScript.objectsAround ⟨0, 22⟩ = [plainLiteral, versionLiteral] ∧
    versionScript.graphAt? ⟨0, 22⟩ = versionScript.graphAt? ⟨0, 12⟩ ∧
    versionScript.graphAt? ⟨0, 22⟩ =
      some "\x7b\n  \"version\": \x7b\n    \"a\": true\n  \x7d\n\x7d" := by
  have hinner : versionScript.objectsAround ⟨0, 22⟩ = [plainLiteral, versionLiteral] := rfl
  have houter : versionScript.objectsAround ⟨0, 12⟩ = [versionLiteral] := rfl
  have hplain : ∃ v text, versionScript.value plainLiteral = .ok v ∧
      Json.write? (.indented 2) v = some text := ⟨_, _, value_plainLiteral, rfl⟩
  have hversion : ∃ v text, versionScript.value versionLiteral = .ok v ∧
      Json.write? (.indented 2) v = some text := ⟨_, _, value_versionLiteral, rfl⟩
  have hp : versionScript.IsFaultless ⟨0, 22⟩ := .of_written <| by
    rw [hinner]
    exact List.forall_mem_cons.2 ⟨hplain, List.forall_mem_singleton.2 hversion⟩
  have hq : versionScript.IsFaultless ⟨0, 12⟩ := .of_written <| by
    rw [houter]
    exact List.forall_mem_singleton.2 hversion
  have hgraph : versionScript.IsGraph versionLiteral :=
    ⟨_, value_versionLiteral, "version", .tail _ (.head _), _, rfl⟩
  have hnot : ¬ versionScript.IsGraph plainLiteral := by
    rw [isGraph_iff_looksLikeGraph rfl value_plainLiteral]
    decide
  obtain ⟨-, htext, -, hsame⟩ := graphAt?_innermost hp
  have hpinner : versionScript.IsInnermostGraph ⟨0, 22⟩ versionLiteral :=
    ⟨[plainLiteral], [], hinner, hgraph, by simp [hnot]⟩
  have hqinner : versionScript.IsInnermostGraph ⟨0, 12⟩ versionLiteral :=
    ⟨[], [], houter, hgraph, by simp⟩
  exact ⟨rfl, hp, hq, hinner, hsame ⟨0, 12⟩ versionLiteral hq hpinner hqinner,
    (htext _).2 ⟨versionLiteral, _, hpinner, value_versionLiteral, rfl⟩⟩

end AgentFlow.Script
