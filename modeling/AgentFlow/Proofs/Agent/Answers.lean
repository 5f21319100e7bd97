import AgentFlow.Proofs.Agent.Lookup

/-!
# Which lookups are answered

A mention names an agent of the index, so the index knows it. There is one way for a lookup to fail:
an agent whose name is empty. Its mentions are found like others, but a mention without a name is
not looked up. The links of a text fail where any of its lines has such a mention, a hover where one
is met before a mention that the column touches.

* `AgentIndex.exists_first_of_mem`: the first agent of the name of a mention.
* `AgentIndex.fails_links_iff`, `AgentIndex.fails_hover_iff`: which lookups fail.
* `lookups_fail_on_empty_names`: no others do, and links are on the first agent of their name.
-/

namespace AgentFlow.AgentIndex

variable {index : AgentIndex} {style : MentionStyle} {action : LinkAction} {line t : Text}
  {number column : Nat} {m : Mention} {ms : List Mention}

/-- The agent of a name is the first one that has it. -/
theorem find?_eq_some_iff {name : Text} {a : Agent} :
    index.find? name = some a ↔ a.name = name ∧
      ∃ before after, index.agents = before ++ a :: after ∧ ∀ b ∈ before, b.name ≠ name := by
  simp [find?, List.find?_eq_some_iff_append]

/-- A reference names an agent that the index knows. -/
theorem exists_find?_of_mem (h : m ∈ index.references style line) :
    ∃ a, index.find? m.name = some a :=
  Option.isSome_iff_exists.1 ((index.find?_isSome_iff m.name).2 (name_mem_of_mem h))

/-! ## Links -/

/-- There is a link on every reference. -/
theorem exists_link?_of_mem (h : m ∈ index.references style line) (action : LinkAction)
    (number : Nat) :
    ∃ l, index.link? action number line m = some l := by
  obtain ⟨a, ha⟩ := exists_find?_of_mem h
  exact ⟨_, by rw [link?, ha]; rfl⟩

theorem fails_mentioned_iff : Fails (index.mentioned m) ↔ m.name = [] := by
  rw [mentioned]
  split
  case isTrue h => exact iff_of_true ⟨_, rfl⟩ (List.isEmpty_iff.1 h)
  case isFalse h => exact iff_of_false ((fails_ok _).1) fun hnil => h (List.isEmpty_iff.2 hnil)

/-- A mention with a name adds its link to those of the mentions behind it. -/
theorem linksOfMentions_cons (h : m.name ≠ []) :
    index.linksOfMentions action number line (m :: ms)
      = (index.linksOfMentions action number line ms).map
        ((index.link? action number line m).toList ++ ·) := by
  rw [linksOfMentions, mentioned_of_ne_nil h, link?]
  cases index.linksOfMentions action number line ms with
  | error e => rfl
  | ok links => cases index.find? m.name <;> rfl

theorem fails_linksOfMentions_iff :
    Fails (index.linksOfMentions action number line ms) ↔ ∃ m ∈ ms, m.name = [] := by
  induction ms with
  | nil => simp [linksOfMentions]
  | cons m ms ih =>
    rw [List.exists_mem_cons_iff, ← ih]
    by_cases hname : m.name = []
    · rw [linksOfMentions, fails_bind_iff, fails_mentioned_iff]
      exact iff_of_true (.inl hname) (.inl hname)
    · rw [linksOfMentions_cons hname, fails_map_iff]
      exact (or_iff_right hname).symm

theorem fails_linksOfLines_iff {lines : List Text} :
    Fails (index.linksOfLines style action number lines) ↔
      ∃ line ∈ lines, ∃ m ∈ style.mentions index.names line, m.name = [] := by
  induction lines generalizing number with
  | nil => simp [linksOfLines]
  | cons line lines ih =>
    rw [linksOfLines, fails_bind_iff, fails_linksOfMentions_iff, List.exists_mem_cons_iff]
    simp only [fails_bind_iff, ih, fails_ok, and_false, exists_false, or_false]
    by_cases hline : ∃ m ∈ style.mentions index.names line, m.name = []
    · simp [hline]
    · have hhere : ¬ Fails (index.linksOfMentions action number line
          (style.mentions index.names line)) := mt fails_linksOfMentions_iff.1 hline
      cases hlinks : index.linksOfMentions action number line (style.mentions index.names line) with
      | error e => exact absurd ⟨e, hlinks⟩ hhere
      | ok links => simp [hline]

/-- The links of a text fail just if a reference of some line has an empty name. -/
theorem fails_links_iff : Fails (index.links style action t) ↔
    ∃ line ∈ Text.editorLines t, ∃ m ∈ index.references style line, m.name = [] := by
  unfold links
  split
  case isTrue hempty => simp [references_of_isEmpty hempty]
  case isFalse hagents =>
    simp only [references_eq hagents]
    exact fails_linksOfLines_iff

/-! ## Hovers -/

/-- What is met in a list behind nothing but what is passed is its head, or it is met behind a head
that is passed. -/
theorem exists_met_cons_iff {met passed : Mention → Prop} :
    (∃ before m' after, m :: ms = before ++ m' :: after ∧ met m' ∧ ∀ b ∈ before, passed b) ↔
      met m ∨ passed m ∧
        ∃ before m' after, ms = before ++ m' :: after ∧ met m' ∧ ∀ b ∈ before, passed b := by
  constructor
  · rintro ⟨before, m', after, heq, hmet, hbefore⟩
    cases before with
    | nil => exact .inl ((List.cons.inj heq).1 ▸ hmet)
    | cons b before =>
      obtain ⟨hb, hbefore⟩ := List.forall_mem_cons.1 hbefore
      exact .inr ⟨(List.cons.inj heq).1 ▸ hb, before, m', after, (List.cons.inj heq).2, hmet,
        hbefore⟩
  · rintro (hmet | ⟨hpassed, before, m', after, rfl, hmet, hbefore⟩)
    · exact ⟨[], m, ms, rfl, hmet, List.forall_mem_nil _⟩
    · exact ⟨m :: before, m', after, rfl, hmet, List.forall_mem_cons.2 ⟨hpassed, hbefore⟩⟩

/-- A hover fails just if a mention with an empty name is met before one that the column touches. -/
theorem fails_hoverOfMentions_iff : Fails (index.hoverOfMentions column ms) ↔
    ∃ before m after, ms = before ++ m :: after ∧ m.name = [] ∧
      ∀ m' ∈ before, m'.touches column = false := by
  induction ms with
  | nil => simp [hoverOfMentions]
  | cons m ms ih =>
    rw [exists_met_cons_iff, ← ih]
    by_cases hname : m.name = []
    · rw [hoverOfMentions, fails_bind_iff, fails_mentioned_iff]
      exact iff_of_true (.inl hname) (.inl hname)
    · rw [hoverOfMentions_cons hname]
      cases m.touches column <;> simp [hname]

theorem fails_hover_iff {p : Position} : Fails (index.hover style p t) ↔
    ∃ line, (Text.editorLines t)[p.line]? = some line ∧
      ∃ before m after, index.references style line = before ++ m :: after ∧ m.name = [] ∧
        ∀ m' ∈ before, m'.touches p.character = false := by
  unfold hover
  split
  case isTrue hempty => simp [references_of_isEmpty hempty]
  case isFalse hagents =>
    simp only [references_eq hagents]
    split
    case h_1 hline => simp [hline]
    case h_2 line hline =>
      simp only [hline, Option.some.injEq, exists_eq_left']
      exact fails_hoverOfMentions_iff

end AgentIndex

/-- **Lookups fail only on empty names.** Every reference names an agent that the index knows. The
links of a text fail just if one of its references has an empty name, and a hover just if such a
reference stands on its line in front of all that the column touches; so none fails if no agent has
an empty name. Links that are given stand for all references, and each leads to the first agent of
its name. -/
theorem lookups_fail_on_empty_names (index : AgentIndex) (style : MentionStyle) (t : Text) :
    (∀ line, ∀ m ∈ index.references style line, ∃ a, index.find? m.name = some a) ∧
      (∀ action, Fails (index.links style action t) ↔
        ∃ line ∈ Text.editorLines t, ∃ m ∈ index.references style line, m.name = []) ∧
      (∀ p, Fails (index.hover style p t) ↔ ∃ line, (Text.editorLines t)[p.line]? = some line ∧
        ∃ before m after, index.references style line = before ++ m :: after ∧ m.name = [] ∧
          ∀ m' ∈ before, m'.touches p.character = false) ∧
      ((∀ a ∈ index.agents, a.name ≠ []) →
        (∀ action, ¬ Fails (index.links style action t)) ∧ ∀ p, ¬ Fails (index.hover style p t)) ∧
      ∀ action links, index.links style action t = .ok links →
        (∀ number line, (Text.editorLines t)[number]? = some line →
          ∀ m ∈ index.references style line, ∃ l ∈ links, l.line = number ∧ l.agent = m.name) ∧
        ∀ l ∈ links, ∃ before a after, index.agents = before ++ a :: after ∧ a.name = l.agent ∧
          (∀ b ∈ before, b.name ≠ l.agent) ∧ l.target = action.target a := by
  refine ⟨fun _ _ => AgentIndex.exists_find?_of_mem, fun _ => AgentIndex.fails_links_iff,
    fun _ => AgentIndex.fails_hover_iff, fun hnames => ⟨fun action hfails => ?_,
      fun p hfails => ?_⟩, fun action links hlinks => ⟨fun number line hline m hm => ?_,
      fun l hl => ?_⟩⟩
  · obtain ⟨line, -, m, hm, hname⟩ := AgentIndex.fails_links_iff.1 hfails
    exact AgentIndex.name_ne_nil_of_mem hnames hm hname
  · obtain ⟨line, -, before, m, after, hrefs, hname, -⟩ := AgentIndex.fails_hover_iff.1 hfails
    have hm : m ∈ index.references style line := by
      rw [hrefs]
      exact List.mem_append_right _ List.mem_cons_self
    exact AgentIndex.name_ne_nil_of_mem hnames hm hname
  · obtain ⟨l, hlink⟩ := AgentIndex.exists_link?_of_mem hm action number
    obtain ⟨hagent, rfl, -⟩ := AgentIndex.link?_eq_some hlink
    exact ⟨l, (AgentIndex.mem_links hlinks).2 ⟨line, hline, m, hm, hlink⟩, rfl, hagent⟩
  · obtain ⟨line, -, m, -, hlink⟩ := (AgentIndex.mem_links hlinks).1 hl
    obtain ⟨a, ha, hl⟩ := Option.map_eq_some_iff.1 hlink
    obtain ⟨hname, before, after, hagents, hbefore⟩ := AgentIndex.find?_eq_some_iff.1 ha
    rw [← hl]
    exact ⟨before, a, after, hagents, hname, hbefore, rfl⟩

/-- An index that lists one name twice. -/
def twiceIndex : AgentIndex := ⟨[⟨"x", "d", "s"⟩, ⟨"x", "e", "t"⟩]⟩

theorem lookups_of_twiceIndex :
    (∀ a ∈ twiceIndex.agents, a.name ≠ []) ∧
      ∃ l, twiceIndex.links .json .source "\"agent\": \"x\"" = .ok [l] ∧
        l.target = Text.ofString "s" ∧
        ¬ Fails (twiceIndex.hover .json ⟨0, 3⟩ "\"agent\": \"x\"") := by
  have hnames : ∀ a ∈ twiceIndex.agents, a.name ≠ [] := by decide
  have hlinks : twiceIndex.links .json .source "\"agent\": \"x\"" = .ok
      [⟨"x", 0, 10, 11, "s", "Click to open source code for x"⟩] := by decide
  obtain ⟨-, -, -, hnone, hgiven⟩ :=
    lookups_fail_on_empty_names twiceIndex .json "\"agent\": \"x\""
  obtain ⟨before, a, after, hagents, -, hbefore, htarget⟩ :=
    (hgiven .source _ hlinks).2 _ List.mem_cons_self
  refine ⟨hnames, _, hlinks, ?_, (hnone hnames).2 ⟨0, 3⟩⟩
  cases before with
  | nil => rw [htarget, ← (List.cons.inj hagents).1]; rfl
  | cons b before => exact absurd ((List.cons.inj hagents).1 ▸ rfl) (hbefore b List.mem_cons_self)

/-- A document of an index whose agent has an empty name. -/
def namelessDocument : Value :=
  .map [(.str "agents", .list [.map [(.str "name", .str ""), (.str "docs", .str "d"),
    (.str "source", .str "s")]])]

/-- Such an index is accepted, and the lookups of a text that mentions the agent fail. -/
theorem namelessIndex_fails :
    ∃ index, AgentIndex.check namelessDocument = .ok index ∧
      (index.find? []).isSome = true ∧
      Fails (index.links .script .docs "agent: ''") ∧
      Fails (index.hover .script ⟨0, 3⟩ "agent: ''") :=
  ⟨⟨[⟨"", "d", "s"⟩]⟩, rfl, rfl, ⟨.emptyName, by decide⟩, ⟨.emptyName, by decide⟩⟩

end AgentFlow
