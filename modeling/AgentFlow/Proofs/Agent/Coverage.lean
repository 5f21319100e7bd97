import AgentFlow.Proofs.Agent.Reading

/-!
# Mentions of a line, from left to right

A line is searched from left to right. Where a mention is found the search goes on behind it, so
mentions follow one another and none begins inside another. Nothing is passed over: a place where a
mention could be read lies inside one that is found.

* `MentionStyle.pairwise_mentions`: each mention ends before the next one begins.
* `MentionStyle.exists_mention_over`: where a text can be read there is a mention.
* `mentions_are_readings`: mentions are readings, and every reading begins inside a mention.
-/

namespace AgentFlow

/-- Something stands in front of every name. -/
theorem Reading.length_lead_pos {style : MentionStyle} {names : List Text} {t : Text}
    (r : Reading style names t) : 0 < r.lead.length := by
  have hkey := List.length_pos_iff.2 r.key_ne_nil
  rw [Reading.lead, List.length_append]
  omega

namespace MentionStyle

variable {style : MentionStyle} {names : List Text} {t : Text}

/-! ## The order of mentions -/

/-- No mention begins where the text belongs to a mention before it. -/
theorem le_start_of_mem_mentionsFrom {index covered : Nat} {m : Mention}
    (h : m ∈ style.mentionsFrom names index covered t) : index + covered ≤ m.start := by
  induction t generalizing index covered with
  | nil => cases h
  | cons p t ih =>
    cases covered with
    | succ covered =>
      have hle := ih h
      omega
    | zero =>
      rw [mentionsFrom] at h
      split at h
      case h_1 =>
        have hle := ih h
        omega
      case h_2 head hhead =>
        rcases List.mem_cons.1 h with rfl | h
        · exact Nat.le_refl _
        · have hle := ih h
          omega

/-- Each mention ends before the next one begins. -/
theorem pairwise_mentionsFrom (index covered : Nat) :
    (style.mentionsFrom names index covered t).Pairwise fun m m' => m.stop ≤ m'.start := by
  induction t generalizing index covered with
  | nil => exact List.Pairwise.nil
  | cons p t ih =>
    cases covered with
    | succ covered => exact ih (index + 1) covered
    | zero =>
      rw [mentionsFrom]
      split
      case h_1 => exact ih (index + 1) 0
      case h_2 head hhead =>
        refine List.pairwise_cons.2 ⟨fun m hm => ?_, ih (index + 1) (head.length - 1)⟩
        have hle := le_start_of_mem_mentionsFrom hm
        show index + head.length ≤ m.start
        omega

theorem pairwise_mentions (style : MentionStyle) (names : List Text) (t : Text) :
    (style.mentions names t).Pairwise fun m m' => m.stop ≤ m'.start :=
  pairwise_mentionsFrom 0 0

/-! ## No reading is passed over -/

/-- A place that can be read lies inside a mention, if none before the text reaches it. -/
theorem exists_mentionFrom_over (hnames : names ≠ []) (index : Nat) {covered s : Nat}
    (hs : covered ≤ s) (h : Nonempty (Reading style names (t.drop s))) :
    ∃ m ∈ style.mentionsFrom names index covered t, m.start ≤ index + s ∧ index + s < m.stop := by
  induction t generalizing index covered s with
  | nil =>
    obtain ⟨r⟩ := h
    have hlength := congrArg List.length r.eq_lead
    have hlead := r.length_lead_pos
    simp only [List.drop_nil, List.length_nil, List.length_append] at hlength
    omega
  | cons p t ih =>
    -- behind its first code point the text is searched from the next number on
    have hnext (covered' : Nat) (hpos : 0 < s) (hs' : covered' ≤ s - 1) :
        ∃ m ∈ style.mentionsFrom names (index + 1) covered' t,
          m.start ≤ index + s ∧ index + s < m.stop := by
      obtain ⟨s, rfl⟩ : ∃ s', s = s' + 1 := ⟨s - 1, by omega⟩
      obtain ⟨m, hm, hstart, hstop⟩ := ih (index + 1) hs' h
      exact ⟨m, hm, by omega, by omega⟩
    cases covered with
    | succ covered => exact hnext covered (by omega) (by omega)
    | zero =>
      rw [mentionsFrom]
      split
      case h_1 hnone =>
        apply hnext 0 _ (Nat.zero_le _)
        apply Nat.pos_of_ne_zero
        rintro rfl
        have hsome := (mentionAt?_isSome_iff hnames).2 h
        rw [List.drop_zero, hnone] at hsome
        cases hsome
      case h_2 head hhead =>
        by_cases hinside : s < head.length
        · exact ⟨_, List.mem_cons_self, Nat.le_add_right _ _, Nat.add_lt_add_left hinside _⟩
        · have hpos : 0 < head.length := by
            obtain ⟨r, rfl, -⟩ := exists_reading hnames hhead
            have hlead := r.length_lead_pos
            show 0 < r.lead.length + r.name.length + r.closing.length
            omega
          obtain ⟨m, hm, hover⟩ := hnext (head.length - 1) (by omega) (by omega)
          exact ⟨m, List.mem_cons_of_mem _ hm, hover⟩

/-- Where a text can be read as a mention there is one. -/
theorem exists_mention_over (hnames : names ≠ []) {s : Nat}
    (h : Nonempty (Reading style names (t.drop s))) :
    ∃ m ∈ style.mentions names t, m.start ≤ s ∧ s < m.stop := by
  obtain ⟨m, hm, hover⟩ := exists_mentionFrom_over hnames 0 (Nat.zero_le s) h
  rw [Nat.zero_add] at hover
  exact ⟨m, hm, hover⟩

end MentionStyle

/-- **Mentions are exactly the references of a line.** Each mention is a key with its colon, blanks,
the opening of a name, one of the names and what closes it, and tells that name and whether it is
bare. Whatever can be read in this way begins inside a mention, and mentions follow one another. -/
theorem mentions_are_readings (style : MentionStyle) {names : List Text} (hnames : names ≠ [])
    (line : Text) :
    (∀ m ∈ style.mentions names line, ∃ r : Reading style names (line.drop m.start),
        m.IsReadAs r ∧ (line.drop m.start).take (m.stop - m.start)
          = r.key ++ (r.blanks ++ (r.opening ++ (r.name ++ r.closing)))) ∧
      (∀ s, Nonempty (Reading style names (line.drop s)) →
        ∃ m ∈ style.mentions names line, m.start ≤ s ∧ s < m.stop) ∧
      (style.mentions names line).Pairwise fun m m' => m.stop ≤ m'.start := by
  refine ⟨fun m hm => ?_, fun s => MentionStyle.exists_mention_over hnames,
    style.pairwise_mentions names line⟩
  obtain ⟨r, hr⟩ := MentionStyle.mem_mentions hnames hm
  refine ⟨r, hr, ?_⟩
  rw [hr.slice_eq, Reading.lead]
  simp only [List.append_assoc]

/-- A name that goes on where a shorter one would end. -/
def longerNames : List Text := ["a", "a b"]

/-- A reading of a line whose name is the longer one. -/
def longerReading : Reading .yaml longerNames "agent: 'a b', x" where
  key := "agent:"
  blanks := " "
  opening := "'"
  name := "a b"
  bare := false
  closing := "',"
  rest := " x"
  eq_append := rfl
  isKey := rfl
  areBlanks := List.forall_mem_singleton.2 rfl
  isOpening := ⟨_, .inr rfl, rfl⟩
  name_mem := by decide
  isClosing := ⟨"'", ",", ⟨_, .inr rfl, rfl⟩, .inl ⟨_, .inr (.inl rfl), rfl⟩, rfl⟩

theorem mentions_of_longerReading :
    longerNames ≠ [] ∧
      ∃ m ∈ MentionStyle.yaml.mentions longerNames "agent: 'a b', x",
        ∃ r : Reading .yaml longerNames (("agent: 'a b', x" : Text).drop m.start),
          m.start = 0 ∧ m.IsReadAs r ∧ r.bare = false ∧ r.name = Text.ofString "a b" := by
  have hnames : longerNames ≠ [] := by decide
  obtain ⟨hread, hfound, -⟩ := mentions_are_readings .yaml hnames "agent: 'a b', x"
  obtain ⟨m, hm, hstart, -⟩ := hfound 0 ⟨longerReading⟩
  obtain ⟨r, hr, -⟩ := hread m hm
  have honly : MentionStyle.yaml.mentions longerNames "agent: 'a b', x"
      = [⟨0, 13, "a b", false⟩] := by decide
  rw [honly, List.mem_singleton] at hm
  refine ⟨hnames, m, honly ▸ hm ▸ List.mem_cons_self, r, Nat.le_zero.1 hstart, hr, ?_, ?_⟩
  · rw [← hr.bare_eq, hm]
  · rw [← hr.name_eq, hm]

end AgentFlow
