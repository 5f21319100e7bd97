import AgentFlow.Proofs.Agent.Lookup
import AgentFlow.Proofs.Script.Place
import Mathlib.Data.List.Find

/-!
# Hovers and places

A position says how many sixteen-bit units of its line stand in front of a place. The offset of the
position reads it so; the hover compares the same number with columns, which count code points. The
two part where a character of two units stands in front of the place.

* `columnOffset`: the offset of a column of a line. `Mention.meets`: whether an offset lies inside a
  mention or at one of its ends.
* `AgentIndex.hoverAt`: the hover of the place that a position stands for. `hoverAt_isSome_iff`:
  there is one where the place meets a reference.
* `meets_offset_eq`: behind whole characters, places meet the mentions that their columns touch.
* `hover_counts_code_points`: which place the hover at a position belongs to.
-/

namespace AgentFlow

/-! ## Columns -/

/-- The offset of a column of a line. -/
def columnOffset (cs : List Char) (number column : Nat) : Nat :=
  Position.linesLength ((Text.splitOn '\n' cs).take number)
    + byteLength (((Text.splitOn '\n' cs).getD number []).take column)

theorem columnOffset_eq {cs front line back : List Char} {number : Nat}
    (h : LineCut cs number front line back) (column : Nat) :
    columnOffset cs number column = byteLength (front ++ line.take column) := by
  obtain ⟨before, behind, hsplit, rfl, hbytes⟩ := h.splitOn_eq
  have hline : (before ++ line :: behind).getD before.length [] = line := by simp
  rw [columnOffset, hsplit, List.take_left, hline, hbytes, byteLength_append]

/-- Of two starts of a list the longer one has more bytes. -/
theorem byteLength_take_le_iff {cs : List Char} {i j : Nat} (hi : i ≤ cs.length) :
    byteLength (cs.take i) ≤ byteLength (cs.take j) ↔ i ≤ j := by
  constructor
  · intro h
    apply Nat.le_of_not_lt
    intro hlt
    have hless : byteLength (cs.take j) < byteLength (cs.take i) := by
      apply byteLength_lt_of_isPrefix (List.take_prefix_take_left (Nat.le_of_lt hlt))
      rw [List.length_take, List.length_take]
      omega
    omega
  · intro h
    exact byteLength_le_of_isPrefix (List.take_prefix_take_left h)

/-! ## Lines as they are shown -/

theorem exists_dropReturn (cs : List Char) :
    ∃ shown hidden, cs = shown ++ hidden ∧
      Text.dropReturn (Text.ofChars cs) = Text.ofChars shown := by
  unfold Text.dropReturn
  by_cases hreturn : (Text.ofChars cs).getLast? = some (.char '\r')
  · obtain ⟨hidden, hcs⟩ := List.dropLast_prefix cs
    exact ⟨cs.dropLast, hidden, hcs.symm, (if_pos hreturn).trans List.map_dropLast.symm⟩
  · exact ⟨cs, [], (List.append_nil cs).symm, if_neg hreturn⟩

/-- A line that is shown is a start of a line of the text. -/
theorem exists_lineCut_of_editorLines {cs : List Char} {number : Nat} {line : Text}
    (h : (Text.editorLines (Text.ofChars cs))[number]? = some line) :
    ∃ front shown hidden back, LineCut cs number front (shown ++ hidden) back ∧
      line = Text.ofChars shown := by
  rw [Text.editorLines, Text.lines_ofChars, List.map_map, List.getElem?_map] at h
  obtain ⟨whole, hwhole, rfl⟩ := Option.map_eq_some_iff.1 h
  obtain ⟨hnumber, -⟩ := List.getElem?_eq_some_iff.1 hwhole
  rw [Text.length_splitOn] at hnumber
  obtain ⟨front, line, back, hcut⟩ := exists_lineCut (Nat.le_of_lt_succ hnumber)
  obtain ⟨before, behind, hsplit, rfl, -⟩ := hcut.splitOn_eq
  obtain rfl : line = whole := by simpa [hsplit] using hwhole
  obtain ⟨shown, hidden, rfl, hshown⟩ := exists_dropReturn line
  exact ⟨front, shown, hidden, back, hcut, hshown⟩

/-! ## Mentions and places -/

/-- Whether an offset lies inside a mention of a line or at one of its ends. -/
def Mention.meets (cs : List Char) (number offset : Nat) (m : Mention) : Bool :=
  columnOffset cs number m.start ≤ offset && offset ≤ columnOffset cs number m.stop

/-- A place behind whole characters of a line meets the mentions that its column touches. -/
theorem meets_offset_eq {cs front shown hidden back : List Char} {number column : Nat} {m : Mention}
    (h : LineCut cs number front (shown ++ hidden) back) (hcolumn : column ≤ shown.length)
    (hm : m.start ≤ m.stop ∧ m.stop ≤ shown.length) :
    m.meets cs number (Position.offset cs ⟨number, unitLength (shown.take column)⟩)
      = m.touches column := by
  have hreach : unitPrefix (unitLength (shown.take column)) (shown ++ hidden)
      = (shown ++ hidden).take column := by
    have hsplit : shown ++ hidden = shown.take column ++ (shown.drop column ++ hidden) := by
      rw [← List.append_assoc, List.take_append_drop]
    rw [List.take_append_of_le_length hcolumn, hsplit, unitPrefix_unitLength]
  have hoffset : Position.offset cs ⟨number, unitLength (shown.take column)⟩
      = byteLength (front ++ (shown ++ hidden).take column) :=
    (Position.offset_of_lineCut h).trans (by rw [hreach])
  have hlength : shown.length ≤ (shown ++ hidden).length := by
    rw [List.length_append]
    omega
  rw [Bool.eq_iff_iff]
  simp only [Mention.meets, Mention.touches, columnOffset_eq h, hoffset, byteLength_append,
    Bool.and_eq_true, decide_eq_true_eq, Nat.add_le_add_iff_left]
  rw [byteLength_take_le_iff (by omega), byteLength_take_le_iff (by omega)]

namespace AgentIndex

/-- The hover of the place that a position stands for: that of the first reference of the line that
the offset of the position meets. -/
def hoverAt (index : AgentIndex) (style : MentionStyle) (cs : List Char) (p : Position) :
    Option Text :=
  (Text.editorLines (Text.ofChars cs))[p.line]?.bind fun line =>
    ((index.references style line).find? (Mention.meets cs p.line (p.offset cs))).bind index.hover?

variable {index : AgentIndex} {style : MentionStyle} {cs : List Char} {line : Text}
  {number column : Nat}

/-- A place has a hover just if it meets a reference of its line. -/
theorem hoverAt_isSome_iff {p : Position}
    (hline : (Text.editorLines (Text.ofChars cs))[p.line]? = some line) :
    (index.hoverAt style cs p).isSome = true ↔
      ∃ m ∈ index.references style line, m.meets cs p.line (p.offset cs) = true := by
  rw [hoverAt, hline, Option.bind_some, ← List.find?_isSome]
  cases hfound : (index.references style line).find? (Mention.meets cs p.line (p.offset cs)) with
  | none => exact iff_of_false Bool.false_ne_true Bool.false_ne_true
  | some m =>
    have hname := name_mem_of_mem (List.mem_of_find?_eq_some hfound)
    have hknown := (index.find?_isSome_iff m.name).2 hname
    exact iff_of_true (by rw [Option.bind_some, hover?, Option.isSome_map, hknown]) rfl

/-- Where a column touches the references that the place of a position meets, the hover is that of
the place. -/
theorem hover_eq_hoverAt {units : Nat} (hnames : ∀ a ∈ index.agents, a.name ≠ [])
    (hline : (Text.editorLines (Text.ofChars cs))[number]? = some line)
    (hsame : ∀ m ∈ index.references style line,
      m.meets cs number (Position.offset cs ⟨number, units⟩) = m.touches column) :
    index.hover style ⟨number, column⟩ (Text.ofChars cs)
      = .ok (index.hoverAt style cs ⟨number, units⟩) := by
  have hfirst := List.find?_congr hsame
  rw [hover_eq hnames, hoverAt, hline, Option.bind_some, Option.bind_some, hfirst]

/-- The hover at a column of a line is that of the place behind as many code points. -/
theorem hover_of_column (hnames : ∀ a ∈ index.agents, a.name ≠ [])
    (hline : (Text.editorLines (Text.ofChars cs))[number]? = some line)
    (hcolumn : column ≤ line.length) :
    index.hover style ⟨number, column⟩ (Text.ofChars cs)
      = .ok (index.hoverAt style cs ⟨number, (Text.units (line.take column)).length⟩) := by
  obtain ⟨front, shown, hidden, back, hcut, rfl⟩ := exists_lineCut_of_editorLines hline
  have htake : (Text.ofChars shown).take column = Text.ofChars (shown.take column) :=
    List.map_take.symm
  rw [Text.ofChars, List.length_map] at hcolumn
  apply hover_eq_hoverAt hnames hline
  intro m hm
  have hinside := stop_le_of_mem hm
  rw [Text.ofChars, List.length_map] at hinside
  rw [htake, length_units_ofChars]
  exact meets_offset_eq hcut hcolumn hinside

/-- Behind the end of a line there is no hover. -/
theorem hover_of_length_lt (hnames : ∀ a ∈ index.agents, a.name ≠ []) {t : Text}
    (hline : (Text.editorLines t)[number]? = some line) (hcolumn : line.length < column) :
    index.hover style ⟨number, column⟩ t = .ok none := by
  have hnone : (index.references style line).find? (Mention.touches column) = none := by
    rw [List.find?_eq_none]
    intro m hm
    have hinside := stop_le_of_mem hm
    simp only [Mention.touches, Bool.and_eq_true, decide_eq_true_eq]
    omega
  rw [hover_eq hnames, hline, Option.bind_some, hnone, Option.bind_none]

end AgentIndex

/-- **Hovers count code points where offsets count units.** The place that a position stands for has
a hover just if it meets a reference of its line. But the hover at a position is that of the place
behind as many code points of the line as the position has units, and past the number of code points
there is none. So it is the hover of the place that the position stands for if no character in front
of that place on the line has two units. -/
theorem hover_counts_code_points {index : AgentIndex} (hnames : ∀ a ∈ index.agents, a.name ≠ [])
    (style : MentionStyle) {cs : List Char} {number : Nat} {line : Text}
    (hline : (Text.editorLines (Text.ofChars cs))[number]? = some line) :
    (∀ units, (index.hoverAt style cs ⟨number, units⟩).isSome = true ↔
        ∃ m ∈ index.references style line,
          m.meets cs number (Position.offset cs ⟨number, units⟩) = true) ∧
      (∀ column ≤ line.length, index.hover style ⟨number, column⟩ (Text.ofChars cs)
        = .ok (index.hoverAt style cs ⟨number, (Text.units (line.take column)).length⟩)) ∧
      (∀ column, line.length < column →
        index.hover style ⟨number, column⟩ (Text.ofChars cs) = .ok none) ∧
      ∀ character ≤ (Text.units line).length, (∀ p ∈ line.take character, p.toNat ≤ 0xFFFF) →
        index.hover style ⟨number, character⟩ (Text.ofChars cs)
          = .ok (index.hoverAt style cs ⟨number, character⟩) := by
  refine ⟨fun units => AgentIndex.hoverAt_isSome_iff hline,
    fun column hcolumn => AgentIndex.hover_of_column hnames hline hcolumn,
    fun column hcolumn => AgentIndex.hover_of_length_lt hnames hline hcolumn,
    fun character hunits hplain => ?_⟩
  have hcount := length_units_of_forall_le hplain
  have hcolumn : character ≤ line.length := by
    by_contra hbehind
    rw [List.take_of_length_le (by omega)] at hcount
    omega
  rw [List.length_take, Nat.min_eq_left hcolumn] at hcount
  rw [AgentIndex.hover_of_column hnames hline hcolumn, hcount]

/-- An index whose agent has a name of one letter. -/
def letterIndex : AgentIndex := ⟨[⟨"a", "d", "s"⟩]⟩

/-- A line with a character of two units between two mentions. -/
theorem hover_counts_aroundPair :
    (∀ a ∈ letterIndex.agents, a.name ≠ []) ∧
      letterIndex.hover .script ⟨0, 9⟩ "agent:'a' 😀 agent:'a'"
        = .ok (letterIndex.hoverAt .script "agent:'a' 😀 agent:'a'".toList ⟨0, 9⟩) ∧
      letterIndex.hover .script ⟨0, 12⟩ "agent:'a' 😀 agent:'a'"
        = .ok (letterIndex.hoverAt .script "agent:'a' 😀 agent:'a'".toList ⟨0, 13⟩) ∧
      letterIndex.hover .script ⟨0, 22⟩ "agent:'a' 😀 agent:'a'" = .ok none ∧
      (letterIndex.hoverAt .script "agent:'a' 😀 agent:'a'".toList ⟨0, 13⟩).isSome = true := by
  have hnames : ∀ a ∈ letterIndex.agents, a.name ≠ [] := by decide
  have hline : (Text.editorLines (Text.ofChars "agent:'a' 😀 agent:'a'".toList))[0]?
      = some (Text.ofString "agent:'a' 😀 agent:'a'") := rfl
  obtain ⟨hsome, hcolumn, hbehind, hplain⟩ := hover_counts_code_points hnames .script hline
  exact ⟨hnames, hplain 9 (by decide) (by decide), hcolumn 12 (by decide), hbehind 22 (by decide),
    (hsome 13).2 ⟨⟨12, 21, "a", false⟩, by decide, by decide⟩⟩

/-- Behind such a character a mention has no hover at its end, and one in front of its start. -/
theorem hover_misses_place :
    (∀ a ∈ letterIndex.agents, a.name ≠ []) ∧
      (Text.units "😀 agent:'a'").length = 12 ∧
      (letterIndex.hover .script ⟨0, 2⟩ "😀 agent:'a'").map Option.isSome = .ok true ∧
      letterIndex.hoverAt .script "😀 agent:'a'".toList ⟨0, 2⟩ = none ∧
      letterIndex.hover .script ⟨0, 12⟩ "😀 agent:'a'" = .ok none ∧
      (letterIndex.hoverAt .script "😀 agent:'a'".toList ⟨0, 12⟩).isSome = true := by decide

end AgentFlow
