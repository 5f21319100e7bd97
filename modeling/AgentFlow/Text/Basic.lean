/-!
# Code points and text

Documents arrive as JSON or YAML, and both let an escape name half of a surrogate pair. A
`Text` is therefore a list of code points, each a character or a lone surrogate; a text
without surrogates is a `String` (`Text.toString?`), and only such a text has bytes.

* `CodePoint.ofNat?_toNat`: a code point is found again by its number.
* `Text.splitOn_ne_nil`: a text is cut at a separator into one or more parts.
-/

namespace AgentFlow

/-- A Unicode code point: a character, or the surrogate `U+D800 + unit`. -/
inductive CodePoint where
  | char (c : Char)
  | surrogate (unit : Fin 2048)
  deriving DecidableEq, Inhabited

namespace CodePoint

/-- The number of a code point. -/
def toNat : CodePoint → Nat
  | .char c => c.toNat
  | .surrogate u => 0xD800 + u.val

/-- The code point of a number, none above `U+10FFFF`. -/
def ofNat? (n : Nat) : Option CodePoint :=
  if h : 0xD800 ≤ n ∧ n < 0xE000 then some (.surrogate ⟨n - 0xD800, by omega⟩)
  else if h : n.isValidChar then some (.char (Char.ofNatAux n h))
  else none

theorem ofNat?_toNat (p : CodePoint) : ofNat? p.toNat = some p := by
  cases p with
  | char c =>
    have hvalid : c.toNat.isValidChar := c.valid
    have hc : ¬(0xD800 ≤ c.toNat ∧ c.toNat < 0xE000) := by
      unfold Nat.isValidChar at hvalid
      omega
    rw [toNat, ofNat?, dif_neg hc, dif_pos hvalid]
    rfl
  | surrogate u =>
    have hu : 0xD800 ≤ 0xD800 + u.val ∧ 0xD800 + u.val < 0xE000 := by omega
    rw [toNat, ofNat?, dif_pos hu]
    simp only [Nat.add_sub_cancel_left]

/-- Whether the code point is a character that satisfies `p`. -/
def isChar (p : Char → Bool) : CodePoint → Bool
  | .char c => p c
  | .surrogate _ => false

instance : Coe Char CodePoint := ⟨.char⟩

end CodePoint

/-- A text is a list of code points. -/
abbrev Text := List CodePoint

namespace Text

/-- The text of a list of characters. -/
def ofChars (cs : List Char) : Text := cs.map .char

/-- The text of a string. -/
def ofString (s : String) : Text := ofChars s.toList

instance : Coe String Text := ⟨ofString⟩

/-- The characters of a text that holds no surrogate. -/
def chars? : Text → Option (List Char)
  | [] => some []
  | .char c :: rest => (chars? rest).map (c :: ·)
  | .surrogate _ :: _ => none

/-- The string of a text that holds no surrogate. -/
def toString? (t : Text) : Option String := t.chars?.map String.ofList

theorem chars?_ofChars (cs : List Char) : chars? (ofChars cs) = some cs := by
  induction cs with
  | nil => rfl
  | cons c cs ih => simpa [ofChars, chars?] using ih

/-- The parts of a list between the elements equal to `sep`; there is always at least one. -/
def splitOn {α : Type} [DecidableEq α] (sep : α) : List α → List (List α)
  | [] => [[]]
  | a :: rest =>
    if a = sep then [] :: splitOn sep rest
    else match splitOn sep rest with
      | [] => [[a]]
      | part :: parts => (a :: part) :: parts

theorem splitOn_ne_nil {α : Type} [DecidableEq α] (sep : α) (xs : List α) :
    splitOn sep xs ≠ [] := by
  cases xs with
  | nil => simp [splitOn]
  | cons a rest =>
    simp only [splitOn]
    split
    · simp
    · split <;> simp

/-- A list without the separator is a single part. -/
theorem splitOn_of_not_mem {α : Type} [DecidableEq α] {sep : α} {xs : List α} (h : sep ∉ xs) :
    splitOn sep xs = [xs] := by
  induction xs with
  | nil => rfl
  | cons a xs ih =>
    simp only [List.mem_cons, not_or] at h
    rw [splitOn, if_neg (Ne.symm h.1), ih h.2]

/-- The parts of a list are those on either side of any separator in it. -/
theorem splitOn_append_cons {α : Type} [DecidableEq α] (sep : α) (xs ys : List α) :
    splitOn sep (xs ++ sep :: ys) = splitOn sep xs ++ splitOn sep ys := by
  induction xs with
  | nil => simp [splitOn]
  | cons a xs ih =>
    simp only [List.cons_append, splitOn]
    split
    · simp [ih]
    · obtain ⟨p, ps, hp⟩ := List.exists_cons_of_ne_nil (splitOn_ne_nil sep xs)
      simp [ih, hp]

/-- Distinct names for the elements do not change where a list is cut. -/
theorem splitOn_map {α β : Type} [DecidableEq α] [DecidableEq β] {f : α → β}
    (hf : ∀ a b, f a = f b → a = b) (sep : α) (xs : List α) :
    splitOn (f sep) (xs.map f) = (splitOn sep xs).map (List.map f) := by
  induction xs with
  | nil => rfl
  | cons a xs ih =>
    simp only [List.map_cons, splitOn, ih]
    by_cases h : a = sep
    · rw [if_pos h, if_pos (congrArg f h), List.map_cons, List.map_nil]
    · obtain ⟨p, ps, hp⟩ := List.exists_cons_of_ne_nil (splitOn_ne_nil sep xs)
      rw [if_neg h, if_neg fun hsep => h (hf a sep hsep), hp, List.map_cons, List.map_cons,
        List.map_cons]

/-- The lines of a text: the parts between line feeds. -/
def lines (t : Text) : List Text := splitOn (.char '\n') t

theorem lines_ofChars (cs : List Char) : lines (ofChars cs) = (splitOn '\n' cs).map ofChars :=
  splitOn_map (fun _ _ h => CodePoint.char.inj h) '\n' cs

/-- The texts joined with a separator between neighbours. -/
def join (sep : Text) (parts : List Text) : Text := sep.intercalate parts

/-- The decimal digits of a natural number. -/
def ofNat (n : Nat) : Text := ofChars (Nat.toDigits 10 n)

/-- The decimal digits of an integer, after a minus sign if it is negative. -/
def ofInt (n : Int) : Text :=
  if n < 0 then .char '-' :: ofNat n.natAbs else ofNat n.natAbs

/-- ASCII capital letters become small letters. -/
def asciiLower (t : Text) : Text :=
  t.map fun
    | .char c => .char c.toLower
    | p => p

/-- The number of code points before the first occurrence of `part`, if there is one. -/
def find? (part : Text) : Text → Option Nat
  | [] => if part = [] then some 0 else none
  | p :: rest =>
    if part.isPrefixOf (p :: rest) then some 0 else (find? part rest).map (· + 1)

end Text

end AgentFlow
