import AgentFlow.Text.Lines

/-!
# Texts that are joined and cut again

Parts that are joined with a separator are read back by cutting at it, as long as no part holds it.
One that does is cut itself, and so adds a part for each time that it holds the separator.

* `Text.all_join`, `Text.not_mem_join_iff`: what all points of a join are like.
* `Text.splitOn_join`, `Text.join_injective`: parts without the separator are read back.
* `Text.not_mem_of_mem_splitOn`: parts that are read hold no separator. `Text.head?_splitOn`: the
  first of them.
* `Text.length_lines_join`, `Text.count_flatten_eq_zero_iff`: how many lines the join of some lines
  has, and when it has no others.
-/

namespace AgentFlow.Text

theorem join_singleton (sep part : Text) : join sep [part] = part := by
  simp [join, List.intercalate]

theorem join_cons_cons (sep part next : Text) (parts : List Text) :
    join sep (part :: next :: parts) = part ++ sep ++ join sep (next :: parts) := by
  simp [join, List.intercalate, List.intersperse_cons_cons]

variable {sep : CodePoint} {part : Text} {parts parts' : List Text}

theorem join_cons (h : parts ≠ []) :
    join [sep] (part :: parts) = part ++ sep :: join [sep] parts := by
  obtain ⟨next, rest, rfl⟩ := List.exists_cons_of_ne_nil h
  rw [join_cons_cons, List.append_assoc, List.singleton_append]

/-- What the points of a separator are like is each point of a join just if each point of the parts
is. -/
theorem all_join {f : CodePoint → Bool} {sep : Text} (h : sep.all f = true) (parts : List Text) :
    (join sep parts).all f = parts.all fun part => part.all f := by
  induction parts with
  | nil => rfl
  | cons part parts ih =>
    cases parts with
    | nil => rw [join_singleton, List.all_cons, List.all_nil, Bool.and_true]
    | cons next rest =>
      rw [join_cons_cons, List.all_append, List.all_append, h, Bool.and_true, ih]
      rfl

theorem all_ne_iff {c : CodePoint} {t : Text} : t.all (· ≠ c) = true ↔ c ∉ t := by
  rw [List.all_eq_true]
  exact ⟨fun h hmem => absurd rfl (of_decide_eq_true (h c hmem)),
    fun h p hp => decide_eq_true fun heq => h (heq ▸ hp)⟩

theorem not_mem_join_iff {c : CodePoint} {sep : Text} (h : c ∉ sep) :
    c ∉ join sep parts ↔ ∀ part ∈ parts, c ∉ part := by
  rw [← all_ne_iff, all_join (all_ne_iff.2 h), List.all_eq_true]
  exact forall₂_congr fun _ _ => all_ne_iff

/-- Parts without the separator are read back from their join. -/
theorem splitOn_join (hne : parts ≠ []) (h : ∀ part ∈ parts, sep ∉ part) :
    splitOn sep (join [sep] parts) = parts := by
  induction parts with
  | nil => exact absurd rfl hne
  | cons part parts ih =>
    have hpart := splitOn_of_not_mem (h part List.mem_cons_self)
    rcases parts with _ | ⟨next, rest⟩
    · rw [join_singleton, hpart]
    · have hrest := ih (List.cons_ne_nil _ _) fun q hq => h q (List.mem_cons_of_mem _ hq)
      rw [join_cons (List.cons_ne_nil _ _), splitOn_append_cons, hpart, hrest]
      rfl

/-- Different rows of parts without the separator have different joins. -/
theorem join_injective (hne : parts ≠ []) (hne' : parts' ≠ []) (h : ∀ part ∈ parts, sep ∉ part)
    (h' : ∀ part ∈ parts', sep ∉ part) (heq : join [sep] parts = join [sep] parts') :
    parts = parts' := by
  rw [← splitOn_join hne h, heq, splitOn_join hne' h']

/-- No part of a list between separators holds one. -/
theorem not_mem_of_mem_splitOn {α : Type} [DecidableEq α] {sep : α} {xs part : List α}
    (h : part ∈ splitOn sep xs) : sep ∉ part := by
  induction xs generalizing part with
  | nil =>
    rw [List.mem_singleton.1 h]
    exact List.not_mem_nil
  | cons x xs ih =>
    obtain ⟨first, rest, hparts⟩ := List.exists_cons_of_ne_nil (splitOn_ne_nil sep xs)
    rw [splitOn] at h
    split at h
    · rcases List.mem_cons.1 h with rfl | h
      · exact List.not_mem_nil
      · exact ih h
    case isFalse hx =>
      rw [hparts] at h ih
      rcases List.mem_cons.1 h with rfl | h
      · have hfirst := ih List.mem_cons_self
        rw [List.mem_cons]
        exact fun hsep => hsep.elim (fun heq => hx heq.symm) hfirst
      · exact ih (List.mem_cons_of_mem _ h)

/-- A part of a list between separators holds nothing that the list does not. -/
theorem mem_of_mem_splitOn {α : Type} [DecidableEq α] {sep a : α} {xs part : List α}
    (h : part ∈ splitOn sep xs) (ha : a ∈ part) : a ∈ xs := by
  induction xs generalizing part with
  | nil =>
    rw [List.mem_singleton.1 h] at ha
    exact ha
  | cons x xs ih =>
    obtain ⟨first, rest, hparts⟩ := List.exists_cons_of_ne_nil (splitOn_ne_nil sep xs)
    rw [splitOn] at h
    split at h
    · rcases List.mem_cons.1 h with rfl | h
      · cases ha
      · exact List.mem_cons_of_mem _ (ih h ha)
    · rw [hparts] at h ih
      rcases List.mem_cons.1 h with rfl | h
      · rcases List.mem_cons.1 ha with rfl | ha
        · exact List.mem_cons_self
        · exact List.mem_cons_of_mem _ (ih List.mem_cons_self ha)
      · exact List.mem_cons_of_mem _ (ih (List.mem_cons_of_mem _ h) ha)

/-- The first part of a list is what stands in front of the first separator. -/
theorem head?_splitOn {α : Type} [DecidableEq α] (sep : α) (xs : List α) :
    (splitOn sep xs).head? = some (xs.takeWhile (· ≠ sep)) := by
  induction xs with
  | nil => rfl
  | cons x xs ih =>
    obtain ⟨first, rest, hparts⟩ := List.exists_cons_of_ne_nil (splitOn_ne_nil sep xs)
    rw [hparts, List.head?_cons, Option.some_inj] at ih
    rw [splitOn, List.takeWhile_cons, hparts, ih]
    by_cases hx : x = sep <;> simp [hx]

/-! ## Lines -/

theorem count_join (hne : parts ≠ []) :
    (join [sep] parts).count sep + 1 = parts.length + parts.flatten.count sep := by
  induction parts with
  | nil => exact absurd rfl hne
  | cons part parts ih =>
    rcases parts with _ | ⟨next, rest⟩
    · rw [join_singleton, List.flatten_singleton, List.length_singleton, Nat.add_comm]
    · have hrest := ih (List.cons_ne_nil _ _)
      rw [join_cons (List.cons_ne_nil _ _), List.count_append, List.count_cons_self,
        List.flatten_cons, List.count_append, List.length_cons]
      omega

/-- The join of some lines has a line for each of them, and one more for each line feed in one of
them. -/
theorem length_lines_join (hne : parts ≠ []) : (lines (join "\n" parts)).length
    = parts.length + parts.flatten.count (.char '\n') := by
  rw [lines, length_splitOn]
  exact count_join hne

theorem count_flatten_eq_zero_iff :
    parts.flatten.count sep = 0 ↔ ∀ part ∈ parts, sep ∉ part := by
  rw [List.count_eq_zero, List.mem_flatten]
  simp only [not_exists, not_and]

end AgentFlow.Text
