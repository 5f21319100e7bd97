import AgentFlow.Agent.Bundled
import AgentFlow.Proofs.Agent.Lookup

/-!
# Where links stand

A link is meant to stand on the name of a mention. The place of the name is looked for in the text
of the mention, from its start on, so the link stands where the name occurs first. That is on the
name itself, unless the name occurs earlier as well: in what stands in front of it, or going on from
there into the name. Such a name has no code point that is not in front of it too.

* `Text.find?_eq_some_iff`: the first place of a text in another one.
* `forall_mem_lead_of_isPrefix`: all of a name that occurs too early is in front of it.
* `Mention.IsReadAs.nameStart_eq_iff`: when the name of a mention is found at its own place.
* `links_on_first_occurrence`: where the links of a text stand, and when they stand on the names.
-/

namespace AgentFlow

/-- A text that another one starts with has its first place there. -/
theorem eq_zero_of_first {part t : Text} {k : Nat} (h : part <+: t)
    (hfirst : ∀ j < k, ¬ part <+: t.drop j) : k = 0 := by
  by_contra hk
  exact hfirst 0 (Nat.pos_of_ne_zero hk) h

/-- The first place of a text in another one. -/
theorem Text.find?_eq_some_iff {part t : Text} {k : Nat} :
    Text.find? part t = some k ↔ part <+: t.drop k ∧ ∀ j < k, ¬ part <+: t.drop j := by
  induction t generalizing k with
  | nil =>
    unfold Text.find?
    rw [List.drop_nil, List.prefix_nil]
    by_cases hpart : part = []
    · rw [if_pos hpart]
      constructor
      · intro h
        cases h
        exact ⟨hpart, fun j hj => absurd hj (Nat.not_lt_zero j)⟩
      · rintro ⟨-, hfirst⟩
        rw [eq_zero_of_first (hpart ▸ List.nil_prefix) hfirst]
    · rw [if_neg hpart]
      exact iff_of_false (fun h => nomatch h) fun h => hpart h.1
  | cons p t ih =>
    unfold Text.find?
    by_cases hstart : part <+: p :: t
    · rw [if_pos (List.isPrefixOf_iff_prefix.2 hstart)]
      constructor
      · intro h
        cases h
        exact ⟨hstart, fun j hj => absurd hj (Nat.not_lt_zero j)⟩
      · rintro ⟨-, hfirst⟩
        rw [eq_zero_of_first hstart hfirst]
    · rw [if_neg (fun h => hstart (List.isPrefixOf_iff_prefix.1 h)), Option.map_eq_some_iff]
      constructor
      · rintro ⟨k, hk, rfl⟩
        obtain ⟨hfound, hfirst⟩ := ih.1 hk
        refine ⟨hfound, fun j hj => ?_⟩
        cases j with
        | zero => exact hstart
        | succ j => exact hfirst j (by omega)
      · rintro ⟨hfound, hfirst⟩
        cases k with
        | zero => exact absurd hfound hstart
        | succ k =>
          exact ⟨k, ih.2 ⟨hfound, fun j hj => hfirst (j + 1) (by omega)⟩, rfl⟩

/-- A text that occurs somewhere has a first place there or earlier. -/
theorem Text.exists_find? {part t : Text} {n : Nat} (h : part <+: t.drop n) :
    ∃ k ≤ n, Text.find? part t = some k := by
  induction n using Nat.strong_induction_on with
  | _ n ih =>
    by_cases hearlier : ∃ j < n, part <+: t.drop j
    · obtain ⟨j, hj, hstart⟩ := hearlier
      obtain ⟨k, hk, hfound⟩ := ih j hj hstart
      exact ⟨k, by omega, hfound⟩
    · refine ⟨n, Nat.le_refl n, Text.find?_eq_some_iff.2 ⟨h, fun j hj hstart => ?_⟩⟩
      exact hearlier ⟨j, hj, hstart⟩

/-- A name that occurs in front of its own place has only code points that stand there: what goes
beyond repeats its own beginning. -/
theorem forall_mem_lead_of_isPrefix {lead name behind : Text} {j : Nat} (hj : j < lead.length)
    (h : name <+: (lead ++ (name ++ behind)).drop j) : ∀ p ∈ name, p ∈ lead := by
  have hget : ∀ i (hi : i < name.length), name[i] ∈ lead := by
    intro i
    induction i using Nat.strong_induction_on with
    | _ i ih =>
      intro hi
      have hlength := h.length_le
      have hi' : j + i < (lead ++ (name ++ behind)).length := by
        rw [List.length_drop] at hlength
        omega
      have heq : name[i] = (lead ++ (name ++ behind))[j + i] := by
        rw [h.getElem hi, List.getElem_drop]
      by_cases hlead : j + i < lead.length
      · rw [heq, List.getElem_append_left hlead]
        exact List.getElem_mem hlead
      · rw [heq, List.getElem_append_right (by omega), List.getElem_append_left (by omega)]
        exact ih (j + i - lead.length) (by omega) (by omega)
  intro p hp
  obtain ⟨i, hi, rfl⟩ := List.mem_iff_getElem.1 hp
  exact hget i hi

/-! ## The name of a mention -/

namespace Mention.IsReadAs

variable {style : MentionStyle} {names : List Text} {t : Text} {m : Mention}
  {r : Reading style names (t.drop m.start)}

/-- The name is found where it occurs first in the text of the mention. -/
theorem exists_nameStart (h : m.IsReadAs r) :
    ∃ k ≤ r.lead.length, m.nameStart t = m.start + k ∧
      m.name <+: (r.lead ++ (r.name ++ r.closing)).drop k ∧
      ∀ j < k, ¬ m.name <+: (r.lead ++ (r.name ++ r.closing)).drop j := by
  have hown : m.name <+: (r.lead ++ (r.name ++ r.closing)).drop r.lead.length := by
    rw [List.drop_left, h.name_eq]
    exact List.prefix_append _ _
  obtain ⟨k, hk, hfound⟩ := Text.exists_find? hown
  refine ⟨k, hk, ?_, Text.find?_eq_some_iff.1 hfound⟩
  rw [Mention.nameStart, h.slice_eq, hfound]
  rfl

/-- The name is found at its own place just if it does not occur earlier. -/
theorem nameStart_eq_iff (h : m.IsReadAs r) :
    m.nameStart t = m.start + r.lead.length ↔
      ∀ j < r.lead.length, ¬ m.name <+: (r.lead ++ (r.name ++ r.closing)).drop j := by
  obtain ⟨k, hk, hstart, hfound, hfirst⟩ := h.exists_nameStart
  constructor
  · intro heq j hj
    exact hfirst j (by omega)
  · intro hnone
    have hge : r.lead.length ≤ k := Nat.le_of_not_lt fun hlt => hnone k hlt hfound
    omega

/-- A name is found at its own place if something in it does not stand in front of it. -/
theorem nameStart_eq_of_not_mem (h : m.IsReadAs r) {p : CodePoint} (hp : p ∈ m.name)
    (hlead : p ∉ r.lead) : m.nameStart t = m.start + r.lead.length := by
  apply h.nameStart_eq_iff.2
  intro j hj hstart
  rw [h.name_eq] at hp hstart
  exact hlead (forall_mem_lead_of_isPrefix hj hstart p hp)

/-- The text where the name is found is the name. -/
theorem take_nameStart (h : m.IsReadAs r) :
    (t.drop (m.nameStart t)).take m.name.length = m.name := by
  obtain ⟨k, hk, hstart, hfound, -⟩ := h.exists_nameStart
  have hspelled : m.name <+: t.drop (m.nameStart t) := by
    rw [hstart, ← List.drop_drop]
    refine hfound.trans ⟨r.rest, ?_⟩
    rw [← List.drop_append_of_le_length (by rw [List.length_append]; omega)]
    exact congrArg (List.drop k) r.eq_lead.symm
  exact (List.prefix_iff_eq_take.1 hspelled).symm

end Mention.IsReadAs

/-! ## Links -/

/-- **Links stand where a name occurs first.** Each link belongs to a mention of its line. The
columns of the link spell the name; they begin in the text of the mention, and not behind the place
of the name that the mention was found with. They begin at that place just if the name does not
occur earlier in the mention, and so they do if something in the name is not in front of it. -/
theorem links_on_first_occurrence {index : AgentIndex} {style : MentionStyle} {action : LinkAction}
    {t : Text} {links : List AgentLink} (h : index.links style action t = .ok links) :
    ∀ l ∈ links, ∃ (line : Text) (m : Mention) (r : Reading style index.names (line.drop m.start)),
      (Text.editorLines t)[l.line]? = some line ∧ m ∈ index.references style line ∧
        m.IsReadAs r ∧ l.agent = r.name ∧ l.stop = l.start + l.agent.length ∧
        (line.drop l.start).take (l.stop - l.start) = l.agent ∧
        m.start ≤ l.start ∧ l.start ≤ m.start + r.lead.length ∧
        (l.start = m.start + r.lead.length ↔
          ∀ j < r.lead.length, ¬ l.agent <+: (r.lead ++ (r.name ++ r.closing)).drop j) ∧
        ((∃ p ∈ l.agent, p ∉ r.lead) → l.start = m.start + r.lead.length) := by
  intro l hl
  obtain ⟨line, m, r, hline, hm, hr, hagent, hstart, hstop⟩ :=
    AgentIndex.exists_reading_of_mem_links h hl
  obtain ⟨k, hk, hfound, -⟩ := hr.exists_nameStart
  refine ⟨line, m, r, hline, hm, hr, hagent.trans hr.name_eq, hstop, ?_, by omega, by omega, ?_, ?_⟩
  · rw [hstop, Nat.add_sub_cancel_left, hagent, hstart]
    exact hr.take_nameStart
  · rw [hagent, hstart]
    exact hr.nameStart_eq_iff
  · rintro ⟨p, hp, hlead⟩
    rw [hagent] at hp
    rw [hstart]
    exact hr.nameStart_eq_of_not_mem hp hlead

/-- An index with one agent, whose name goes beyond what may stand in front of it. -/
def echoIndex : AgentIndex := ⟨[⟨"echoAgent", "d", "s"⟩]⟩

theorem links_on_echoAgent :
    ∃ l, echoIndex.links .yaml .docs "agent: echoAgent" = .ok [l] ∧ l.start = 7 ∧
      ∃ (line : Text) (m : Mention) (r : Reading .yaml echoIndex.names (line.drop m.start)),
        m ∈ echoIndex.references .yaml line ∧ m.IsReadAs r ∧
          l.start = m.start + r.lead.length := by
  have hlinks : echoIndex.links .yaml .docs "agent: echoAgent" = .ok
      [⟨"echoAgent", 0, 7, 16, "d", "Click to open documentation for echoAgent"⟩] := by decide
  obtain ⟨line, m, r, -, hm, hr, -, -, -, -, -, -, hown⟩ :=
    links_on_first_occurrence hlinks _ List.mem_cons_self
  refine ⟨_, hlinks, rfl, line, m, r, hm, hr, hown ⟨.char 'A', by decide, fun hlead => ?_⟩⟩
  rcases Reading.mem_lead hlead with h | h
  · cases h
  · exact absurd h (by decide)

/-- An index with an agent that is named like the key. -/
def keyIndex : AgentIndex := ⟨[⟨"agent", "d", "s"⟩]⟩

/-- Its link stands on the key, although the name is eight columns farther. -/
theorem link_on_key_misses_name :
    ∃ l, keyIndex.links .script .docs "agent: 'agent'" = .ok [l] ∧ l.start = 0 ∧
      ∃ m, keyIndex.references .script "agent: 'agent'" = [m] ∧
        (∃ r : Reading .script keyIndex.names (("agent: 'agent'" : Text).drop m.start),
          m.IsReadAs r) ∧
        ∀ r : Reading .script keyIndex.names (("agent: 'agent'" : Text).drop m.start),
          m.IsReadAs r → m.start + r.lead.length = 8 := by
  have hlinks : keyIndex.links .script .docs "agent: 'agent'" = .ok
      [⟨"agent", 0, 0, 5, "d", "Click to open documentation for agent"⟩] := by decide
  have hmentions : keyIndex.references .script "agent: 'agent'" = [⟨0, 14, "agent", false⟩] := by
    decide
  refine ⟨_, hlinks, rfl, _, hmentions, ?_, fun r hr => ?_⟩
  · exact AgentIndex.exists_reading_of_mem (hmentions ▸ List.mem_cons_self)
  · have hstop : 14 = 0 + (r.lead.length + r.name.length + r.closing.length) := hr.stop_eq
    have hname : r.name.length = 5 := congrArg List.length hr.name_eq.symm
    obtain ⟨q, -, hclosing⟩ : ∃ q, IsQuote q ∧ r.closing = [q] := r.isClosing
    rw [hclosing, List.length_singleton, hname] at hstop
    show 0 + r.lead.length = 8
    omega

end AgentFlow
