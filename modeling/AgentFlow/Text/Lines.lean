import AgentFlow.Text.Basic

/-!
# Lines of an editor

Editors number the lines between line feeds; a carriage return at the end of a line is not shown.

* `Text.length_editorLines`: a text has one line more than line feeds.
-/

namespace AgentFlow.Text

/-- A line without the carriage return at its end. -/
def dropReturn (line : Text) : Text :=
  if line.getLast? = some (.char '\r') then line.dropLast else line

/-- The lines of a text as an editor shows them. -/
def editorLines (t : Text) : List Text := (lines t).map dropReturn

theorem length_splitOn {α : Type} [DecidableEq α] (sep : α) (xs : List α) :
    (splitOn sep xs).length = xs.count sep + 1 := by
  induction xs with
  | nil => rfl
  | cons a rest ih =>
    simp only [splitOn]
    split
    case isTrue h => simp [h, ih]
    case isFalse h =>
      obtain ⟨p, ps, hp⟩ := List.exists_cons_of_ne_nil (splitOn_ne_nil sep rest)
      rw [hp] at ih ⊢
      simpa [List.count_cons_of_ne h] using ih

theorem length_editorLines (t : Text) : (editorLines t).length = t.count (.char '\n') + 1 := by
  simp [editorLines, lines, length_splitOn]

end AgentFlow.Text
