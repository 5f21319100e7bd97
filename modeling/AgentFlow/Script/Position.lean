import AgentFlow.Text.Basic
import AgentFlow.Text.Units

/-!
# Cursor positions

An editor names a place by its line and by the sixteen-bit units in front of it on that line, both
counted from zero; a syntax tree names it by the bytes in front of it. Only line feeds end lines.
Units past the end of a line stand for that end, and a line past the last one stands for the last
one.

* `Position.offset_le_byteLength`: an offset never lies behind the text.
-/

namespace AgentFlow

/-- A place in a text, as editors report it. -/
structure Position where
  line : Nat
  character : Nat
  deriving DecidableEq, Inhabited

namespace Position

/-- The number of bytes of some lines, each with the line feed behind it. -/
def linesLength : List (List Char) → Nat
  | [] => 0
  | l :: ls => byteLength l + 1 + linesLength ls

/-- The number of bytes in front of a position. -/
def offset (cs : List Char) (p : Position) : Nat :=
  let lines := Text.splitOn '\n' cs
  let line := min p.line (lines.length - 1)
  linesLength (lines.take line) + byteLength (unitPrefix p.character (lines.getD line []))

theorem linesLength_splitOn (cs : List Char) :
    linesLength (Text.splitOn '\n' cs) = byteLength cs + 1 := by
  induction cs with
  | nil => rfl
  | cons c cs ih =>
    simp only [Text.splitOn]
    split
    case isTrue h =>
      have hc : c.utf8Size = 1 := by rw [h]; rfl
      simp only [linesLength, byteLength_nil] at ih ⊢
      simp only [ih, byteLength_cons, hc]
      omega
    case isFalse h =>
      obtain ⟨l, ls, hl⟩ := List.exists_cons_of_ne_nil (Text.splitOn_ne_nil '\n' cs)
      rw [hl] at ih ⊢
      simp only [linesLength, byteLength_cons] at ih ⊢
      omega

theorem byteLength_unitPrefix_le (units : Nat) (cs : List Char) :
    byteLength (unitPrefix units cs) ≤ byteLength cs := by
  obtain ⟨ds, hd⟩ := unitPrefix_isPrefix units cs
  have := congrArg byteLength hd
  simp only [byteLength_append] at this
  omega

private theorem linesLength_take_add_le (lines : List (List Char)) (n : Nat)
    (h : n < lines.length) :
    linesLength (lines.take n) + (byteLength (lines.getD n []) + 1) ≤ linesLength lines := by
  induction lines generalizing n with
  | nil => simp at h
  | cons l ls ih =>
    cases n with
    | zero => simp [linesLength]
    | succ n =>
      have := ih n (by simpa using h)
      simp only [linesLength, List.take_succ_cons, List.getD_cons_succ] at this ⊢
      omega

/-- An offset never lies behind the text. -/
theorem offset_le_byteLength (cs : List Char) (p : Position) : p.offset cs ≤ byteLength cs := by
  have hne := Text.splitOn_ne_nil '\n' cs
  have hpos : 0 < (Text.splitOn '\n' cs).length := List.length_pos_iff.2 hne
  have h1 := linesLength_take_add_le (Text.splitOn '\n' cs)
    (min p.line ((Text.splitOn '\n' cs).length - 1)) (by omega)
  have h2 := byteLength_unitPrefix_le p.character
    ((Text.splitOn '\n' cs).getD (min p.line ((Text.splitOn '\n' cs).length - 1)) [])
  have h3 := linesLength_splitOn cs
  simp only [offset]
  omega

end Position

end AgentFlow
