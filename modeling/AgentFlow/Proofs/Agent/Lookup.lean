import AgentFlow.Agent.Link
import AgentFlow.Proofs.Agent.Reading
import AgentFlow.Proofs.Outcome

/-!
# Links and hovers, mention by mention

Where the lookup in a text gives an answer, it treats every mention for itself: a link stands for a
mention of its line, and a hover is that of the first mention which the column touches.

* `AgentIndex.link?`, `AgentIndex.hover?`: what one mention contributes.
* `AgentIndex.references`: the mentions of a line that count; an empty index has none.
* `AgentIndex.links_eq_ok`, `AgentIndex.mem_links`: the links of a text.
  `exists_reading_of_mem_links`: each is on the name of a reference.
* `AgentIndex.hover_eq_of_references`: the hover at a position, where no name is empty.
-/

namespace AgentFlow

/-- Whether a column lies inside a mention or at one of its ends. -/
def Mention.touches (column : Nat) (m : Mention) : Bool := m.start ≤ column && column ≤ m.stop

namespace AgentIndex

variable {index : AgentIndex} {style : MentionStyle} {action : LinkAction} {line t : Text}
  {number column : Nat} {m : Mention}

/-- The link on a mention, if the index knows the agent. -/
def link? (index : AgentIndex) (action : LinkAction) (number : Nat) (line : Text) (m : Mention) :
    Option AgentLink :=
  (index.find? m.name).map fun a =>
    ⟨m.name, number, m.nameStart line, m.nameStart line + m.name.length, action.target a,
      action.tooltip m.name⟩

theorem link?_eq_some {l : AgentLink} (h : index.link? action number line m = some l) :
    l.agent = m.name ∧ l.line = number ∧ l.start = m.nameStart line ∧
      l.stop = l.start + l.agent.length := by
  obtain ⟨a, -, rfl⟩ := Option.map_eq_some_iff.1 h
  exact ⟨rfl, rfl, rfl, rfl⟩

/-- The hover of a mention, if the index knows the agent. -/
def hover? (index : AgentIndex) (m : Mention) : Option Text :=
  (index.find? m.name).map fun a => a.hoverText m.name

/-- The mentions of a line that are looked up. -/
def references (index : AgentIndex) (style : MentionStyle) (line : Text) : List Mention :=
  if index.agents.isEmpty then [] else style.mentions index.names line

theorem references_of_isEmpty (h : index.agents.isEmpty = true) (line : Text) :
    index.references style line = [] := if_pos h

theorem references_eq (h : ¬ index.agents.isEmpty = true) (line : Text) :
    index.references style line = style.mentions index.names line := if_neg h

theorem names_ne_nil (h : ¬ index.agents.isEmpty = true) : index.names ≠ [] := by
  intro hnames
  rw [names, List.map_eq_nil_iff] at hnames
  exact h (List.isEmpty_iff.2 hnames)

/-- Each reference is read at its place. -/
theorem exists_reading_of_mem (h : m ∈ index.references style line) :
    ∃ r : Reading style index.names (line.drop m.start), m.IsReadAs r := by
  by_cases hagents : index.agents.isEmpty = true
  · rw [references_of_isEmpty hagents] at h
    cases h
  · rw [references_eq hagents] at h
    exact MentionStyle.mem_mentions (names_ne_nil hagents) h

/-- Each reference names an agent of the index. -/
theorem name_mem_of_mem (h : m ∈ index.references style line) : m.name ∈ index.names := by
  obtain ⟨r, hr⟩ := exists_reading_of_mem h
  exact hr.name_eq ▸ r.name_mem

/-- Each reference lies inside its line. -/
theorem stop_le_of_mem (h : m ∈ index.references style line) :
    m.start ≤ m.stop ∧ m.stop ≤ line.length := by
  obtain ⟨r, hr⟩ := exists_reading_of_mem h
  exact hr.stop_le

theorem mentioned_of_ne_nil (h : m.name ≠ []) :
    index.mentioned m = .ok (index.find? m.name) := by
  rw [mentioned, if_neg (by simpa using h)]

/-! ## Links -/

theorem linksOfMentions_eq_ok {ms : List Mention} {links : List AgentLink}
    (h : index.linksOfMentions action number line ms = .ok links) :
    links = ms.filterMap (index.link? action number line) := by
  induction ms generalizing links with
  | nil => exact (Except.ok.inj h).symm
  | cons m ms ih =>
    rw [linksOfMentions] at h
    obtain ⟨agent, hagent, h⟩ := exists_of_bind_eq_ok h
    obtain ⟨rest, hrest, h⟩ := exists_of_bind_eq_ok h
    have hfound : index.find? m.name = agent := by
      unfold mentioned at hagent
      split at hagent
      · cases hagent
      · exact Except.ok.inj hagent
    rw [List.filterMap_cons, link?, hfound, ← ih hrest]
    cases agent with
    | none => exact (Except.ok.inj h).symm
    | some a => exact (Except.ok.inj h).symm

/-- The links of lines that are numbered from a number on. -/
theorem linksOfLines_eq_ok {lines : List Text} {links : List AgentLink}
    (h : index.linksOfLines style action number lines = .ok links) :
    links = (lines.zipIdx number).flatMap fun l =>
      (style.mentions index.names l.1).filterMap (index.link? action l.2 l.1) := by
  induction lines generalizing number links with
  | nil => exact (Except.ok.inj h).symm
  | cons line lines ih =>
    rw [linksOfLines] at h
    obtain ⟨here, hhere, h⟩ := exists_of_bind_eq_ok h
    obtain ⟨more, hmore, h⟩ := exists_of_bind_eq_ok h
    rw [← Except.ok.inj h, List.zipIdx_cons, List.flatMap_cons, linksOfMentions_eq_ok hhere,
      ih hmore]

/-- The links of a text: those on the references of its lines, in order. -/
theorem links_eq_ok {links : List AgentLink} (h : index.links style action t = .ok links) :
    links = (Text.editorLines t).zipIdx.flatMap fun l =>
      (index.references style l.1).filterMap (index.link? action l.2 l.1) := by
  unfold AgentIndex.links at h
  split at h
  case isTrue hempty =>
    rw [← Except.ok.inj h]
    simp [references_of_isEmpty hempty]
  case isFalse hagents =>
    simp only [references_eq hagents]
    exact linksOfLines_eq_ok h

theorem mem_links {links : List AgentLink} {l : AgentLink}
    (h : index.links style action t = .ok links) :
    l ∈ links ↔ ∃ line, (Text.editorLines t)[l.line]? = some line ∧
      ∃ m ∈ index.references style line, index.link? action l.line line m = some l := by
  rw [links_eq_ok h, List.mem_flatMap]
  simp only [List.mem_filterMap]
  constructor
  · rintro ⟨⟨line, i⟩, hline, m, hm, hlink⟩
    obtain ⟨-, rfl, -⟩ := link?_eq_some hlink
    exact ⟨line, List.mem_zipIdx_iff_getElem?.1 hline, m, hm, hlink⟩
  · rintro ⟨line, hline, m, hm, hlink⟩
    exact ⟨(line, l.line), List.mem_zipIdx_iff_getElem?.2 hline, m, hm, hlink⟩

/-- Each link is on the name of a reference that is read at its place. -/
theorem exists_reading_of_mem_links {links : List AgentLink} {l : AgentLink}
    (h : index.links style action t = .ok links) (hl : l ∈ links) :
    ∃ (line : Text) (m : Mention) (r : Reading style index.names (line.drop m.start)),
      (Text.editorLines t)[l.line]? = some line ∧ m ∈ index.references style line ∧
        m.IsReadAs r ∧ l.agent = m.name ∧ l.start = m.nameStart line ∧
        l.stop = l.start + l.agent.length := by
  obtain ⟨line, hline, m, hm, hlink⟩ := (mem_links h).1 hl
  obtain ⟨r, hr⟩ := exists_reading_of_mem hm
  obtain ⟨hagent, -, hstart, hstop⟩ := link?_eq_some hlink
  exact ⟨line, m, r, hline, hm, hr, hagent, hstart, hstop⟩

/-! ## Hovers -/

/-- A mention with a name has the hover if the column touches it, else those behind it do. -/
theorem hoverOfMentions_cons {ms : List Mention} (h : m.name ≠ []) :
    index.hoverOfMentions column (m :: ms)
      = if m.touches column then .ok (index.hover? m) else index.hoverOfMentions column ms := by
  rw [hoverOfMentions, mentioned_of_ne_nil h]
  simp only [Mention.touches, Bool.and_eq_true, decide_eq_true_eq]
  rfl

theorem hoverOfMentions_eq {ms : List Mention} (h : ∀ m ∈ ms, m.name ≠ []) :
    index.hoverOfMentions column ms
      = .ok ((ms.find? (Mention.touches column)).bind index.hover?) := by
  induction ms with
  | nil => rfl
  | cons m ms ih =>
    rw [hoverOfMentions_cons (h m List.mem_cons_self), List.find?_cons]
    cases m.touches column with
    | true => rfl
    | false => exact ih fun m' hm' => h m' (List.mem_cons_of_mem _ hm')

/-- The hover at a position is that of the first reference of the line that the column touches, if
no reference of the line has an empty name. -/
theorem hover_eq_of_references {p : Position}
    (hne : ∀ line, (Text.editorLines t)[p.line]? = some line →
      ∀ m ∈ index.references style line, m.name ≠ []) :
    index.hover style p t = .ok ((Text.editorLines t)[p.line]?.bind fun line =>
      ((index.references style line).find? (Mention.touches p.character)).bind index.hover?) := by
  unfold hover
  split
  case isTrue hempty => simp [references_of_isEmpty hempty]
  case isFalse hagents =>
    split
    case h_1 hline => rw [hline]; rfl
    case h_2 line hline =>
      have hnames := hne line hline
      rw [references_eq hagents] at hnames
      rw [hline, Option.bind_some, references_eq hagents]
      exact hoverOfMentions_eq hnames

/-- No reference has an empty name if no agent has one. -/
theorem name_ne_nil_of_mem (hnames : ∀ a ∈ index.agents, a.name ≠ [])
    (h : m ∈ index.references style line) : m.name ≠ [] := by
  obtain ⟨a, ha, hname⟩ := List.mem_map.1 (name_mem_of_mem h)
  exact hname ▸ hnames a ha

/-- The hover at a position is that of the first reference of the line that the column touches. -/
theorem hover_eq (hnames : ∀ a ∈ index.agents, a.name ≠ []) (p : Position) :
    index.hover style p t = .ok ((Text.editorLines t)[p.line]?.bind fun line =>
      ((index.references style line).find? (Mention.touches p.character)).bind index.hover?) :=
  hover_eq_of_references fun _ _ _ => name_ne_nil_of_mem hnames

end AgentIndex

end AgentFlow
