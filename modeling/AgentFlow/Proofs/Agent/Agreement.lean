import AgentFlow.Proofs.Agent.Answers
import AgentFlow.Proofs.Agent.Coverage
import AgentFlow.Proofs.Agent.Underline
import Mathlib.Data.List.Forall2

/-!
# Hovers and links agree

A link stands on a part of its mention, a hover is shown on all of it and at both of its ends. Where
two mentions meet, the hover at the place between them is that of the first one; but a column behind
the start of a link is behind every mention before it. So on a link the hover is that of its agent.

* `AgentLink.IsTwin`: links on one name that may lead to different places. `AgentLink.hoverText`:
  the hover that shows both places.
* `Mention.find?_touches_eq`: a column inside a mention, or at its end, touches none before it.
* `AgentIndex.forall₂_links`: both kinds of links stand on the same references.
* `hover_agrees_with_links`: hovers on links, and links behind hovers.
-/

namespace AgentFlow

/-! ## Links on one name -/

/-- Whether two links stand on the name of one agent at one place. -/
structure AgentLink.IsTwin (l l' : AgentLink) : Prop where
  agent_eq : l'.agent = l.agent
  line_eq : l'.line = l.line
  start_eq : l'.start = l.start
  stop_eq : l'.stop = l.stop

/-- The hover that names the agent of a link to its documentation and shows where that leads to, and
where a link to its source code does. -/
def AgentLink.hoverText (docs source : AgentLink) : Text :=
  "**" ++ docs.agent ++ "**\n\n[Docs](" ++ docs.target ++ ") | [Source](" ++ source.target ++
    ")\n\n"

/-! ## Columns of links -/

/-- The place where the name of a mention is found lies inside the mention. -/
theorem Mention.IsReadAs.nameStart_inside {style : MentionStyle} {names : List Text} {t : Text}
    {m : Mention} {r : Reading style names (t.drop m.start)} (h : m.IsReadAs r) :
    m.start ≤ m.nameStart t ∧ m.nameStart t + m.name.length ≤ m.stop := by
  obtain ⟨k, hk, hstart, -⟩ := h.exists_nameStart
  have hstop := h.stop_eq
  rw [h.name_eq]
  omega

/-- A column inside a mention, or at its end, touches no mention before it. -/
theorem Mention.find?_touches_eq {ms : List Mention} {m : Mention} {column : Nat}
    (hms : ms.Pairwise fun m m' => m.stop ≤ m'.start) (hm : m ∈ ms) (hstart : m.start < column)
    (hstop : column ≤ m.stop) : ms.find? (Mention.touches column) = some m := by
  obtain ⟨before, after, rfl⟩ := List.append_of_mem hm
  refine List.find?_eq_some_iff_append.2 ⟨?_, before, after, rfl, fun m' hm' => ?_⟩
  · simp only [touches, Bool.and_eq_true, decide_eq_true_eq]
    omega
  · have hle : m'.stop ≤ m.start :=
      (List.pairwise_append.1 hms).2.2 m' hm' m List.mem_cons_self
    simp only [touches, Bool.not_eq_true', Bool.and_eq_false_iff, decide_eq_false_iff_not]
    omega

namespace AgentIndex

variable {index : AgentIndex} {style : MentionStyle} {action : LinkAction} {line t text : Text}
  {m : Mention} {d s : AgentLink} {number column : Nat} {found : List AgentLink}

theorem pairwise_references (index : AgentIndex) (style : MentionStyle) (line : Text) :
    (index.references style line).Pairwise fun m m' => m.stop ≤ m'.start := by
  by_cases hagents : index.agents.isEmpty = true
  · rw [references_of_isEmpty hagents]
    exact List.Pairwise.nil
  · rw [references_eq hagents]
    exact style.pairwise_mentions index.names line

/-- On the columns of a link the first mention that is touched is the one that the link is on. -/
theorem find?_touches_of_link? (hm : m ∈ index.references style line)
    (hlink : index.link? action number line m = some d) (hstart : d.start < column)
    (hstop : column ≤ d.stop) :
    (index.references style line).find? (Mention.touches column) = some m := by
  obtain ⟨r, hr⟩ := exists_reading_of_mem hm
  obtain ⟨hagent, -, hd, hd'⟩ := link?_eq_some hlink
  have hinside := hr.nameStart_inside
  rw [← hagent] at hinside
  apply Mention.find?_touches_eq (pairwise_references index style line) hm <;> omega

/-! ## Both kinds of links -/

/-- Whether links to the documentation and to the source code are on one reference of a text. -/
def AreOnOne (index : AgentIndex) (style : MentionStyle) (t : Text) (d s : AgentLink) : Prop :=
  ∃ line m, (Text.editorLines t)[d.line]? = some line ∧ m ∈ index.references style line ∧
    index.link? .docs d.line line m = some d ∧ index.link? .source d.line line m = some s

theorem AreOnOne.isTwin (h : index.AreOnOne style t d s) : d.IsTwin s := by
  obtain ⟨line, m, -, -, hd, hs⟩ := h
  obtain ⟨hagent, -, hstart, hstop⟩ := link?_eq_some hd
  obtain ⟨hagent', hline', hstart', hstop'⟩ := link?_eq_some hs
  have hagents : s.agent = d.agent := hagent'.trans hagent.symm
  have hstarts : s.start = d.start := hstart'.trans hstart.symm
  exact ⟨hagents, hline', hstarts, by rw [hstop', hstop, hagents, hstarts]⟩

/-- The hover of a reference shows where its links lead to. -/
theorem hover?_eq_hoverText (hd : index.link? .docs number line m = some d)
    (hs : index.link? .source number line m = some s) :
    index.hover? m = some (d.hoverText s) := by
  obtain ⟨a, ha, rfl⟩ := Option.map_eq_some_iff.1 hd
  rw [link?, ha] at hs
  rw [hover?, ha, ← Option.some.inj hs]
  rfl

/-- The links to the documentation and those to the source code are on the same references, one by
one. -/
theorem forall₂_links {docs sources : List AgentLink}
    (hdocs : index.links style .docs t = .ok docs)
    (hsources : index.links style .source t = .ok sources) :
    List.Forall₂ (index.AreOnOne style t) docs sources := by
  rw [links_eq_ok hdocs, links_eq_ok hsources]
  have hlines : List.Forall₂ (fun l l' => l = l' ∧ (Text.editorLines t)[l.2]? = some l.1)
      (Text.editorLines t).zipIdx (Text.editorLines t).zipIdx :=
    List.forall₂_same.2 fun l hl => ⟨rfl, List.mem_zipIdx_iff_getElem?.1 hl⟩
  refine List.rel_flatMap hlines ?_
  rintro ⟨line, number⟩ _ ⟨rfl, hline⟩
  have hrefs : List.Forall₂ (fun m m' => m = m' ∧ m ∈ index.references style line)
      (index.references style line) (index.references style line) :=
    List.forall₂_same.2 fun m hm => ⟨rfl, hm⟩
  refine List.rel_filterMap ?_ hrefs
  rintro m _ ⟨rfl, hm⟩
  obtain ⟨d, hd⟩ := exists_link?_of_mem hm .docs number
  obtain ⟨s, hs⟩ := exists_link?_of_mem hm .source number
  obtain ⟨-, rfl, -⟩ := link?_eq_some hd
  rw [hd, hs]
  exact .some ⟨line, m, hline, hm, hd, hs⟩

/-! ## Texts whose links are given -/

/-- No reference of a text whose links are given has an empty name. -/
theorem name_ne_nil_of_links (h : index.links style action t = .ok found)
    (hline : (Text.editorLines t)[number]? = some line) (hm : m ∈ index.references style line) :
    m.name ≠ [] := by
  intro hname
  have hfails : Fails (index.links style action t) :=
    fails_links_iff.2 ⟨line, List.mem_of_getElem? hline, m, hm, hname⟩
  rw [h] at hfails
  exact (fails_ok _).1 hfails

/-- A text whose links of one kind are given has links of every kind. -/
theorem exists_links (h : index.links style action t = .ok found) (action' : LinkAction) :
    ∃ links, index.links style action' t = .ok links := by
  have hboth : Fails (index.links style action' t) ↔ Fails (index.links style action t) :=
    fails_links_iff.trans fails_links_iff.symm
  apply exists_ok_of_not_fails
  rw [hboth, h]
  exact (fails_ok _).1

/-- The hover at a position of a text whose links are given. -/
theorem hover_of_links (h : index.links style action t = .ok found) (p : Position) :
    index.hover style p t = .ok ((Text.editorLines t)[p.line]?.bind fun line =>
      ((index.references style line).find? (Mention.touches p.character)).bind index.hover?) :=
  hover_eq_of_references fun _ hline _ => name_ne_nil_of_links h hline

/-- The hover on a link shows where it and its twin lead to. -/
theorem hover_of_areOnOne (h : index.links style action t = .ok found)
    (hone : index.AreOnOne style t d s) (hstart : d.start < column) (hstop : column ≤ d.stop) :
    index.hover style ⟨d.line, column⟩ t = .ok (some (d.hoverText s)) := by
  obtain ⟨line, m, hline, hm, hd, hs⟩ := hone
  rw [hover_of_links h, hline, Option.bind_some, find?_touches_of_link? hm hd hstart hstop,
    Option.bind_some, hover?_eq_hoverText hd hs]

/-- Behind every hover there is a reference with links on it. -/
theorem exists_areOnOne_of_hover (h : index.links style action t = .ok found) {p : Position}
    (hover : index.hover style p t = .ok (some text)) :
    ∃ d s, index.AreOnOne style t d s ∧ d.line = p.line ∧ text = d.hoverText s := by
  rw [hover_of_links h] at hover
  obtain ⟨line, hline, hover⟩ := Option.bind_eq_some_iff.1 (Except.ok.inj hover)
  obtain ⟨m, hfound, hover⟩ := Option.bind_eq_some_iff.1 hover
  have hm := List.mem_of_find?_eq_some hfound
  obtain ⟨d, hd⟩ := exists_link?_of_mem hm .docs p.line
  obtain ⟨s, hs⟩ := exists_link?_of_mem hm .source p.line
  obtain ⟨-, hnumber, -⟩ := link?_eq_some hd
  rw [hover?_eq_hoverText hd hs] at hover
  rw [← hnumber] at hline hd hs
  exact ⟨d, s, ⟨line, m, hline, hm, hd, hs⟩, hnumber, (Option.some.inj hover).symm⟩

end AgentIndex

/-- **Hovers and links agree.** A text that has links of one kind has links of both, on the same
names one by one. Behind the start of a link and up to its end the hover names the agent of the link
and shows where both links on this name lead to. Every hover is that of links on its line, with the
name and both places in its text. -/
theorem hover_agrees_with_links {index : AgentIndex} {style : MentionStyle} {action : LinkAction}
    {t : Text} {found : List AgentLink} (h : index.links style action t = .ok found) :
    ∃ docs sources, index.links style .docs t = .ok docs ∧
      index.links style .source t = .ok sources ∧
      List.Forall₂ (fun d s => d.IsTwin s ∧ ∀ column, d.start < column → column ≤ d.stop →
        index.hover style ⟨d.line, column⟩ t = .ok (some
          ("**" ++ d.agent ++ "**\n\n[Docs](" ++ d.target ++ ") | [Source](" ++ s.target ++
            ")\n\n"))) docs sources ∧
      ∀ p text, index.hover style p t = .ok (some text) →
        ∃ d ∈ docs, ∃ s ∈ sources, d.IsTwin s ∧ d.line = p.line ∧
          text = "**" ++ d.agent ++ "**\n\n[Docs](" ++ d.target ++ ") | [Source](" ++ s.target ++
            ")\n\n" := by
  obtain ⟨docs, hdocs⟩ := AgentIndex.exists_links h .docs
  obtain ⟨sources, hsources⟩ := AgentIndex.exists_links h .source
  refine ⟨docs, sources, hdocs, hsources, ?_, fun p text hover => ?_⟩
  · refine (AgentIndex.forall₂_links hdocs hsources).imp fun d s hone => ⟨hone.isTwin, ?_⟩
    exact fun column => AgentIndex.hover_of_areOnOne h hone
  · obtain ⟨d, s, hone, hnumber, htext⟩ := AgentIndex.exists_areOnOne_of_hover h hover
    have htwin := hone.isTwin
    obtain ⟨line, m, hline, hm, hd, hs⟩ := hone
    refine ⟨d, (AgentIndex.mem_links hdocs).2 ⟨line, hline, m, hm, hd⟩, s,
      (AgentIndex.mem_links hsources).2 ?_, htwin, hnumber, htext⟩
    rw [htwin.line_eq]
    exact ⟨line, hline, m, hm, hs⟩

/-- An index of two agents with short names. -/
def lettersIndex : AgentIndex := ⟨[⟨"x", "d", "s"⟩, ⟨"y", "e", "t"⟩]⟩

/-- Two mentions that meet at column nine: behind the start of its link the second one has the
hover. -/
theorem hover_agrees_on_neighbours :
    ∃ d s, lettersIndex.links .yaml .docs "agent: x,agent: y" = .ok
        [⟨"x", 0, 7, 8, "d", "Click to open documentation for x"⟩, d] ∧
      lettersIndex.links .yaml .source "agent: x,agent: y" = .ok
        [⟨"x", 0, 7, 8, "s", "Click to open source code for x"⟩, s] ∧
      d.start = 16 ∧ d.stop = 17 ∧ d.agent = Text.ofString "y" ∧ d.target = Text.ofString "e" ∧
      s.target = Text.ofString "t" ∧
      lettersIndex.hover .yaml ⟨0, 17⟩ "agent: x,agent: y" = .ok (some
        (Text.ofString "**y**\n\n[Docs](e) | [Source](t)\n\n")) := by
  have hdocs : lettersIndex.links .yaml .docs "agent: x,agent: y" = .ok
      [⟨"x", 0, 7, 8, "d", "Click to open documentation for x"⟩,
        ⟨"y", 0, 16, 17, "e", "Click to open documentation for y"⟩] := by decide +kernel
  have hsources : lettersIndex.links .yaml .source "agent: x,agent: y" = .ok
      [⟨"x", 0, 7, 8, "s", "Click to open source code for x"⟩,
        ⟨"y", 0, 16, 17, "t", "Click to open source code for y"⟩] := by decide +kernel
  obtain ⟨docs, sources, hd, hs, hall, -⟩ := hover_agrees_with_links hdocs
  obtain rfl := Except.ok.inj (hdocs.symm.trans hd)
  obtain rfl := Except.ok.inj (hsources.symm.trans hs)
  obtain ⟨-, hover⟩ := (List.forall₂_cons.1 (List.forall₂_cons.1 hall).2).1
  exact ⟨_, _, hdocs, hsources, rfl, rfl, rfl, rfl, rfl, hover 17 (by decide) (by decide)⟩

end AgentFlow
