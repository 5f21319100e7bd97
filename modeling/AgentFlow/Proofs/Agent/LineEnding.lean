import AgentFlow.Proofs.Agent.Underline
import Mathlib.Data.List.Infix

/-!
# Line endings

A line ends with a line feed, and one carriage return that may stand right in front of it is not
shown. So lookups find the same in a text whose lines end in one way and in the other, as long as no
line feed has a return in front of it already: that one would be shown once another one is put
behind it. A return that stands alone, a form feed or a line separator ends no line.

* `Text.line_induction`: induction along the lines of a text.
* `Text.withReturns`: a text with a return in front of every line feed.
  `Text.editorLines_withReturns_iff`: which texts have the same lines with and without.
* `Text.editorLines_append_cons_iff`: lines begin behind line feeds only.
* `lookups_ignore_returns`: links and hovers of a text without returns stay as they are.
-/

namespace AgentFlow

namespace Text

variable {line rest : Text}

/-! ## Lines, one by one -/

/-- What holds of a single line, and of a text that begins with a line if it holds of what is behind
the line feed, holds of every text. -/
theorem line_induction {motive : Text → Prop}
    (last : ∀ line : Text, .char '\n' ∉ line → motive line)
    (next : ∀ line rest : Text, .char '\n' ∉ line → motive rest →
      motive (line ++ .char '\n' :: rest)) (t : Text) : motive t := by
  induction hlength : t.length using Nat.strong_induction_on generalizing t with
  | _ n ih =>
    by_cases hfeed : .char '\n' ∈ t
    · obtain ⟨line, rest, rfl, hline⟩ := List.eq_append_cons_of_mem hfeed
      rw [List.length_append, List.length_cons] at hlength
      exact next line rest hline (ih rest.length (by omega) rest rfl)
    · exact last t hfeed

theorem editorLines_of_not_mem (h : .char '\n' ∉ line) : editorLines line = [dropReturn line] := by
  rw [editorLines, lines, splitOn_of_not_mem h]
  rfl

/-- The lines on both sides of a line feed are those of the two parts. -/
theorem editorLines_append_lineFeed (before after : Text) :
    editorLines (before ++ .char '\n' :: after) = editorLines before ++ editorLines after := by
  simp only [editorLines, lines, splitOn_append_cons, List.map_append]

/-- **Lines begin behind line feeds only.** The lines of two parts are those of a text with one
more code point between the parts just if this is a line feed. -/
theorem editorLines_append_cons_iff {before after : Text} {p : CodePoint} :
    editorLines (before ++ p :: after) = editorLines before ++ editorLines after
      ↔ p = .char '\n' := by
  constructor
  · intro h
    by_contra hp
    -- with any other code point there is one line less
    have hlength := congrArg List.length h
    simp only [List.length_append, length_editorLines, List.count_append,
      List.count_cons_of_ne hp] at hlength
    omega
  · rintro rfl
    exact editorLines_append_lineFeed before after

/-! ## Returns -/

theorem dropReturn_append_return (line : Text) : dropReturn (line ++ [.char '\r']) = line := by
  rw [dropReturn, if_pos List.getLast?_concat, List.dropLast_concat]

/-- A line is shown as it is just if no return stands at its end. -/
theorem dropReturn_eq_self_iff : dropReturn line = line ↔ line.getLast? ≠ some (.char '\r') := by
  constructor
  · intro h hreturn
    obtain ⟨shown, rfl⟩ := List.getLast?_eq_some_iff.1 hreturn
    rw [dropReturn_append_return] at h
    simpa using congrArg List.length h
  · exact fun h => if_neg h

/-- A text with a carriage return in front of every line feed. -/
def withReturns (t : Text) : Text :=
  t.flatMap fun p => if p = .char '\n' then [.char '\r', .char '\n'] else [p]

theorem withReturns_of_not_mem (h : .char '\n' ∉ line) : line.withReturns = line := by
  induction line with
  | nil => rfl
  | cons p line ih =>
    obtain ⟨hp, hline⟩ := not_or.1 (mt List.mem_cons.2 h)
    rw [withReturns, List.flatMap_cons, if_neg (Ne.symm hp)]
    exact congrArg (p :: ·) (ih hline)

theorem withReturns_append_lineFeed (h : .char '\n' ∉ line) (rest : Text) :
    (line ++ .char '\n' :: rest).withReturns
      = (line ++ [.char '\r']) ++ .char '\n' :: rest.withReturns := by
  have hline := withReturns_of_not_mem h
  rw [withReturns] at hline
  rw [withReturns, List.flatMap_append, hline, List.flatMap_cons, if_pos rfl, List.append_assoc]
  rfl

/-- A return stands in front of a line feed where a line ends with one or in what is behind it. -/
theorem isInfix_append_lineFeed_iff (h : .char '\n' ∉ line) :
    [.char '\r', .char '\n'] <:+: line ++ .char '\n' :: rest ↔
      line.getLast? = some (.char '\r') ∨ [.char '\r', .char '\n'] <:+: rest := by
  induction line with
  | nil => simp [List.infix_cons_iff]
  | cons p line ih =>
    obtain ⟨-, hline⟩ := not_or.1 (mt List.mem_cons.2 h)
    rw [List.cons_append, List.infix_cons_iff, ih hline, ← or_assoc]
    refine or_congr_left ?_
    cases line with
    | nil => simp [eq_comm]
    | cons q line =>
      have hq : CodePoint.char '\n' ≠ q := (not_or.1 (mt List.mem_cons.2 hline)).1
      simp [hq]

/-- Returns in front of all line feeds leave the lines of a text as they are just if none of them
had one before. -/
theorem editorLines_withReturns_iff (t : Text) :
    editorLines t.withReturns = editorLines t ↔ ¬ [.char '\r', .char '\n'] <:+: t := by
  induction t using line_induction with
  | last line hline =>
    rw [withReturns_of_not_mem hline]
    exact iff_of_true rfl fun hfound => hline (hfound.subset (by simp))
  | next line rest hline ih =>
    have hwith : CodePoint.char '\n' ∉ line ++ [.char '\r'] := by simpa using hline
    rw [withReturns_append_lineFeed hline, editorLines_append_lineFeed, editorLines_append_lineFeed,
      editorLines_of_not_mem hwith, editorLines_of_not_mem hline, dropReturn_append_return,
      isInfix_append_lineFeed_iff hline, not_or, ← ih, ← ne_eq, ← dropReturn_eq_self_iff]
    simp [eq_comm]

end Text

/-! ## Lookups -/

namespace AgentIndex

variable {index : AgentIndex} {style : MentionStyle} {t u : Text}

/-- Links depend on a text by its lines. -/
theorem links_of_editorLines_eq (h : Text.editorLines t = Text.editorLines u)
    (action : LinkAction) : index.links style action t = index.links style action u := by
  rw [links, links, h]

/-- Hovers depend on a text by its lines. -/
theorem hover_of_editorLines_eq (h : Text.editorLines t = Text.editorLines u) (p : Position) :
    index.hover style p t = index.hover style p u := by
  rw [hover, hover, h]

end AgentIndex

/-- **Lookups ignore the returns of line endings.** A text without returns has the same links and
hovers, or the same failures, once a return is put in front of every line feed. Lines begin behind
line feeds only, so a text has one line more than it has line feeds. -/
theorem lookups_ignore_returns (index : AgentIndex) (style : MentionStyle) (t : Text) :
    (.char '\r' ∉ t →
        (∀ action, index.links style action t.withReturns = index.links style action t) ∧
          ∀ p, index.hover style p t.withReturns = index.hover style p t) ∧
      (∀ before p after, t = before ++ p :: after →
        (Text.editorLines t = Text.editorLines before ++ Text.editorLines after
          ↔ p = .char '\n')) ∧
      (Text.editorLines t).length = t.count (.char '\n') + 1 := by
  refine ⟨fun hreturn => ?_, ?_, Text.length_editorLines t⟩
  · have hlines : Text.editorLines t.withReturns = Text.editorLines t :=
      (Text.editorLines_withReturns_iff t).2 fun hfound => hreturn (hfound.subset (by simp))
    exact ⟨AgentIndex.links_of_editorLines_eq hlines, AgentIndex.hover_of_editorLines_eq hlines⟩
  · rintro before p after rfl
    exact Text.editorLines_append_cons_iff

/-- A text with a form feed and a line separator in front of its only mention. -/
def separatedText : Text := "a:\x0c\n  b: \u2028x\n    agent: echoAgent\n"

/-- The form feed begins no line: the mention stands on the third of four lines. It ends in front of
the return that its line ends with. -/
theorem lookups_of_separatedText :
    .char '\r' ∉ separatedText ∧
      separatedText.withReturns
        = Text.ofString "a:\x0c\r\n  b: \u2028x\r\n    agent: echoAgent\r\n" ∧
      echoIndex.links .yaml .docs separatedText.withReturns = .ok
        [⟨"echoAgent", 2, 11, 20, "d", "Click to open documentation for echoAgent"⟩] ∧
      (echoIndex.hover .yaml ⟨2, 20⟩ separatedText.withReturns).map Option.isSome = .ok true ∧
      echoIndex.hover .yaml ⟨2, 21⟩ separatedText.withReturns = .ok none ∧
      Text.editorLines separatedText
        ≠ Text.editorLines "a:" ++ Text.editorLines (separatedText.drop 3) ∧
      (Text.editorLines separatedText).length = 4 := by
  have hreturn : .char '\r' ∉ separatedText := by decide
  have hcut : separatedText = "a:" ++ .char '\x0c' :: separatedText.drop 3 := by decide +kernel
  obtain ⟨hsame, hbegins, hcount⟩ := lookups_ignore_returns echoIndex .yaml separatedText
  obtain ⟨hlinks, hover⟩ := hsame hreturn
  rw [hlinks, hover, hover, hcount]
  refine ⟨hreturn, ?_, ?_, ?_, ?_, mt (hbegins _ _ _ hcut).1 (by decide), ?_⟩
  all_goals decide +kernel

end AgentFlow
