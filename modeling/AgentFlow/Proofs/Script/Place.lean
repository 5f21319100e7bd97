import AgentFlow.Script.Position
import AgentFlow.Text.Lines
import Mathlib.Data.List.DropRight
import Mathlib.Data.List.Infix

/-!
# Positions and the bytes in front of them

A position names a place of a text by its line and by the sixteen-bit units in front of it on that
line. Three lengths are at work: characters, units and bytes. They meet where a text is cut around a
line, into what stands in front of the line, the line itself, and what stands behind it: the offset
of a position on that line is the byte length of the front and of the part of the line that the
units reach into.

* `unitPrefix_append`, `unitPrefix_of_le`, `unitPrefix_mono`: how far units reach.
* `LineCut`: a text cut around a line. `lineCut_around`, `exists_lineCut`: every line has a cut.
* `Position.offset_eq`: the offset of a position, by the cut around its line.
* `offset_of_characters`: the position behind some characters has their length as its offset.
* `offset_mono_up_to_last_line`: later positions have no smaller offsets, except on lines past the
  last one.
-/

namespace AgentFlow

/-- The number of bytes of characters is that of their string. -/
theorem utf8ByteSize_ofList (cs : List Char) :
    (String.ofList cs).utf8ByteSize = byteLength cs := by
  induction cs with
  | nil => rfl
  | cons c cs ih =>
    rw [← List.singleton_append, String.ofList_append, String.utf8ByteSize_append, ih,
      ← String.singleton_eq_ofList, String.utf8ByteSize_singleton, List.singleton_append,
      byteLength_cons]

/-! ## Units -/

/-- The number of sixteen-bit units of a list of characters. -/
def unitLength : List Char → Nat
  | [] => 0
  | c :: cs => unitCount c + unitLength cs

@[simp] theorem unitLength_nil : unitLength [] = 0 := rfl

@[simp] theorem unitLength_cons (c : Char) (cs : List Char) :
    unitLength (c :: cs) = unitCount c + unitLength cs := rfl

theorem length_units_ofChars (cs : List Char) :
    (Text.units (Text.ofChars cs)).length = unitLength cs := by
  induction cs with
  | nil => rfl
  | cons c cs ih =>
    simp only [Text.ofChars, List.map_cons, Text.units, unitLength, unitCount] at ih ⊢
    split <;> simp only [List.length_cons, ih] <;> omega

/-- Where no code point has two units, there are as many units as code points. -/
theorem length_units_of_forall_le {t : Text} (h : ∀ p ∈ t, p.toNat ≤ 0xFFFF) :
    (Text.units t).length = t.length := by
  induction t with
  | nil => rfl
  | cons p t ih =>
    rw [List.forall_mem_cons] at h
    cases p with
    | surrogate u => rw [Text.units, List.length_cons, List.length_cons, ih h.2]
    | char c =>
      have hone : ¬ c.toNat > 0xFFFF := Nat.not_lt.2 h.1
      rw [Text.units, if_neg hone, List.length_cons, List.length_cons, ih h.2]

/-- Units that go beyond some characters reach into what follows them. -/
theorem unitPrefix_append (cs ds : List Char) (units : Nat) :
    unitPrefix (unitLength cs + units) (cs ++ ds) = cs ++ unitPrefix units ds := by
  induction cs with
  | nil => simp
  | cons c cs ih =>
    have hpos := unitCount_pos c
    have hrest : unitLength (c :: cs) + units - unitCount c = unitLength cs + units := by
      rw [unitLength_cons]; omega
    rw [List.cons_append, unitPrefix, if_neg (by rw [unitLength_cons]; omega), hrest, ih,
      List.cons_append]

/-- Units that do not end inside a character reach as far as they count. -/
theorem unitPrefix_unitLength (cs ds : List Char) :
    unitPrefix (unitLength cs) (cs ++ ds) = cs := by
  have h := unitPrefix_append cs ds 0
  rwa [unitPrefix_zero, Nat.add_zero, List.append_nil] at h

/-- Units past the end of a list of characters reach its end. -/
theorem unitPrefix_of_le {cs : List Char} {units : Nat} (h : unitLength cs ≤ units) :
    unitPrefix units cs = cs := by
  obtain ⟨more, rfl⟩ := Nat.exists_eq_add_of_le h
  have h := unitPrefix_append cs [] more
  rwa [List.append_nil, unitPrefix, List.append_nil] at h

/-- More units reach at least as far. -/
theorem unitPrefix_mono {units units' : Nat} (h : units ≤ units') (cs : List Char) :
    unitPrefix units cs <+: unitPrefix units' cs := by
  induction cs generalizing units units' with
  | nil => exact List.prefix_rfl
  | cons c cs ih =>
    unfold unitPrefix
    by_cases h0 : units = 0
    · rw [if_pos h0]
      exact List.nil_prefix
    · rw [if_neg h0, if_neg (by omega)]
      exact List.cons_prefix_cons.2 ⟨rfl, ih (by omega)⟩

/-- Units reach the end of a list of characters just if they reach into its last character. -/
theorem unitPrefix_eq_self_iff {cs : List Char} {units : Nat} :
    unitPrefix units cs = cs ↔ cs = [] ∨ unitLength cs.dropLast < units := by
  rcases List.eq_nil_or_concat cs with rfl | ⟨init, c, rfl⟩
  · simp [unitPrefix]
  rw [List.concat_eq_append, List.dropLast_concat]
  constructor
  · intro h
    refine .inr (Nat.lt_of_not_le fun hle => ?_)
    have hstart := unitPrefix_mono hle (init ++ [c])
    rw [h, unitPrefix_unitLength] at hstart
    have hlength := hstart.length_le
    rw [List.length_append, List.length_singleton] at hlength
    omega
  · rintro (h | h)
    · simp at h
    · obtain ⟨more, rfl⟩ := Nat.exists_eq_add_of_lt h
      rw [Nat.add_assoc, unitPrefix_append, unitPrefix, if_neg (by omega), unitPrefix]

theorem byteLength_le_of_isPrefix {cs ds : List Char} (h : cs <+: ds) :
    byteLength cs ≤ byteLength ds := by
  obtain ⟨rest, rfl⟩ := h
  rw [byteLength_append]
  omega

theorem byteLength_lt_of_isPrefix {cs ds : List Char} (h : cs <+: ds)
    (hlt : cs.length < ds.length) : byteLength cs < byteLength ds := by
  obtain ⟨rest, rfl⟩ := h
  cases rest with
  | nil => simp at hlt
  | cons c rest =>
    have := Char.utf8Size_pos c
    rw [byteLength_append, byteLength_cons]
    omega

/-! ## Lines -/

/-- A text cut around the line of a number: what stands in front of the line, the line, and what
stands behind it. -/
structure LineCut (cs : List Char) (number : Nat) (front line back : List Char) : Prop where
  eq_append : cs = front ++ (line ++ back)
  count_front : front.count '\n' = number
  front_ends : front = [] ∨ ∃ before, front = before ++ ['\n']
  not_mem_line : '\n' ∉ line
  back_starts : back = [] ∨ ∃ behind, back = '\n' :: behind

/-- The cut around the line on which a text is split into two. -/
theorem lineCut_around (xs ys : List Char) :
    LineCut (xs ++ ys) (xs.count '\n') (xs.rdropWhile (· ≠ '\n'))
      (xs.rtakeWhile (· ≠ '\n') ++ ys.takeWhile (· ≠ '\n')) (ys.dropWhile (· ≠ '\n')) := by
  have hlast : '\n' ∉ xs.rtakeWhile (· ≠ '\n') := fun h => by
    simpa using List.mem_rtakeWhile_imp h
  have hnext : '\n' ∉ ys.takeWhile (· ≠ '\n') := fun h => by
    simpa using List.mem_takeWhile_imp h
  refine ⟨?_, ?_, ?_, ?_, ?_⟩
  · rw [List.append_assoc, List.takeWhile_append_dropWhile, ← List.append_assoc,
      List.rdropWhile_append_rtakeWhile]
  · have hsplit := congrArg (List.count '\n')
      (List.rdropWhile_append_rtakeWhile (p := fun c => decide (c ≠ '\n')) (l := xs))
    rwa [List.count_append, List.count_eq_zero.2 hlast, Nat.add_zero] at hsplit
  · by_cases hnil : xs.rdropWhile (· ≠ '\n') = []
    · exact .inl hnil
    · have hend : (xs.rdropWhile (· ≠ '\n')).getLast hnil = '\n' := by
        simpa using List.rdropWhile_last_not _ xs hnil
      have hsplit := List.dropLast_append_getLast hnil
      rw [hend] at hsplit
      exact .inr ⟨_, hsplit.symm⟩
  · rw [List.mem_append, not_or]
    exact ⟨hlast, hnext⟩
  · by_cases hnil : ys.dropWhile (· ≠ '\n') = []
    · exact .inl hnil
    · have hhead : (ys.dropWhile (· ≠ '\n')).head hnil = '\n' := by
        simpa using List.head_dropWhile_not (fun c => decide (c ≠ '\n')) hnil
      have hsplit := List.cons_head_tail hnil
      rw [hhead] at hsplit
      exact .inr ⟨_, hsplit.symm⟩

/-- Going through a list, a count takes all values up to that of the list. -/
theorem exists_count_take {cs : List Char} {c : Char} {n : Nat} (h : n ≤ cs.count c) :
    ∃ i, (cs.take i).count c = n := by
  induction cs generalizing n with
  | nil => exact ⟨0, (Nat.eq_zero_of_le_zero h).symm⟩
  | cons d cs ih =>
    by_cases h0 : n = 0
    · exact ⟨0, by simp [h0]⟩
    by_cases hd : d = c
    · rw [hd, List.count_cons_self] at h
      obtain ⟨i, hi⟩ := ih (n := n - 1) (by omega)
      refine ⟨i + 1, ?_⟩
      rw [List.take_succ_cons, hd, List.count_cons_self, hi]
      omega
    · rw [List.count_cons_of_ne hd] at h
      obtain ⟨i, hi⟩ := ih h
      exact ⟨i + 1, by rw [List.take_succ_cons, List.count_cons_of_ne hd, hi]⟩

/-- Every line of a text has a cut around it. -/
theorem exists_lineCut {cs : List Char} {number : Nat} (h : number ≤ cs.count '\n') :
    ∃ front line back, LineCut cs number front line back := by
  obtain ⟨i, hi⟩ := exists_count_take h
  have hcut := lineCut_around (cs.take i) (cs.drop i)
  rw [List.take_append_drop, hi] at hcut
  exact ⟨_, _, _, hcut⟩

namespace LineCut

variable {cs front line back front' line' back' : List Char} {number number' : Nat}

/-- The lines of a text, from the cut around one of them. -/
theorem splitOn_eq (h : LineCut cs number front line back) :
    ∃ before behind, Text.splitOn '\n' cs = before ++ line :: behind ∧
      before.length = number ∧ Position.linesLength before = byteLength front := by
  obtain ⟨behind, hbehind⟩ : ∃ behind, Text.splitOn '\n' (line ++ back) = line :: behind := by
    rcases h.back_starts with hnil | ⟨next, hnext⟩
    · rw [hnil, List.append_nil]
      exact ⟨[], Text.splitOn_of_not_mem h.not_mem_line⟩
    · rw [hnext, Text.splitOn_append_cons, Text.splitOn_of_not_mem h.not_mem_line]
      exact ⟨Text.splitOn '\n' next, rfl⟩
  rcases h.front_ends with hnil | ⟨before, hbefore⟩
  · refine ⟨[], behind, ?_, ?_, ?_⟩
    · rw [h.eq_append, hnil, List.nil_append, hbehind, List.nil_append]
    · rw [← h.count_front, hnil]; rfl
    · rw [hnil]; rfl
  · refine ⟨Text.splitOn '\n' before, behind, ?_, ?_, ?_⟩
    · rw [h.eq_append, hbefore, List.append_assoc, List.singleton_append,
        Text.splitOn_append_cons, hbehind]
    · rw [Text.length_splitOn, ← h.count_front, hbefore, List.count_append]
      rfl
    · rw [Position.linesLength_splitOn, hbefore, byteLength_append]
      rfl

/-- What reaches no further than into a line ends in front of all later lines. -/
theorem prefix_front (h : LineCut cs number front line back)
    (h' : LineCut cs number' front' line' back') (hlt : number < number') :
    front ++ line <+: front' := by
  have hfront : front ++ line <+: cs := ⟨back, by rw [h.eq_append, List.append_assoc]⟩
  have hfront' : front' <+: cs := ⟨line' ++ back', h'.eq_append.symm⟩
  rcases List.prefix_or_prefix_of_prefix hfront hfront' with hstart | ⟨rest, hrest⟩
  · exact hstart
  · -- the other way round there would be as many line feeds in front of the earlier line
    have hcount := congrArg (List.count '\n') hrest
    rw [List.count_append, List.count_append, h.count_front, h'.count_front,
      List.count_eq_zero.2 h.not_mem_line] at hcount
    omega

/-- Nothing stands behind the last line. -/
theorem back_eq_nil (h : LineCut cs (cs.count '\n') front line back) : back = [] := by
  rcases h.back_starts with hnil | ⟨behind, hbehind⟩
  · exact hnil
  · have hcount := congrArg (List.count '\n') h.eq_append
    rw [hbehind, List.count_append, List.count_append, List.count_cons_self,
      h.count_front] at hcount
    omega

end LineCut

/-! ## Offsets -/

namespace Position

variable {cs front line back : List Char}

/-- The position behind some characters that stand at the start of a text. -/
def behind (cs : List Char) : Position :=
  ⟨cs.count '\n', unitLength (cs.rtakeWhile (· ≠ '\n'))⟩

/-- Whether a position comes before another, or is the same: first by lines, then by characters. -/
def IsBefore (p q : Position) : Prop :=
  p.line < q.line ∨ p.line = q.line ∧ p.character ≤ q.character

instance (p q : Position) : Decidable (p.IsBefore q) := inferInstanceAs (Decidable (_ ∨ _))

/-- The offset of a position, by the cut around its line, or around the last line if it lies on a
later one. -/
theorem offset_eq {p : Position} (h : LineCut cs (min p.line (cs.count '\n')) front line back) :
    p.offset cs = byteLength (front ++ unitPrefix p.character line) := by
  obtain ⟨before, behind, hsplit, hlength, hbytes⟩ := h.splitOn_eq
  have hnumber : min p.line ((Text.splitOn '\n' cs).length - 1) = before.length := by
    rw [Text.length_splitOn, Nat.add_sub_cancel, hlength]
  have hline : (before ++ line :: behind).getD before.length [] = line := by simp
  unfold offset
  simp only [hnumber]
  rw [hsplit, List.take_left, hline, hbytes, byteLength_append]

/-- The offset of a position on a line that exists. -/
theorem offset_of_lineCut {p : Position} (h : LineCut cs p.line front line back) :
    p.offset cs = byteLength (front ++ unitPrefix p.character line) := by
  have hle : p.line ≤ cs.count '\n' := by
    rw [h.eq_append, List.count_append, h.count_front]
    omega
  exact offset_eq (by rwa [Nat.min_eq_left hle])

/-- What stands in front of a place is the start of the text. -/
theorem prefix_of_lineCut {number : Nat} (h : LineCut cs number front line back) (units : Nat) :
    front ++ unitPrefix units line <+: cs := by
  obtain ⟨rest, hrest⟩ := unitPrefix_isPrefix units line
  refine ⟨rest ++ back, ?_⟩
  rw [h.eq_append, List.append_assoc, ← List.append_assoc _ rest back, hrest]

/-- An offset is the length of a start of the text. -/
theorem exists_take_of_offset (cs : List Char) (p : Position) :
    ∃ i, p.offset cs = byteLength (cs.take i) := by
  obtain ⟨front, line, back, hcut⟩ := exists_lineCut (Nat.min_le_right p.line (cs.count '\n'))
  have htake := List.prefix_iff_eq_take.1 (prefix_of_lineCut hcut p.character)
  exact ⟨_, by rw [offset_eq hcut, ← htake]⟩

/-- Units that go beyond the position behind some characters reach into what follows on its line. -/
theorem offset_behind_add (xs ys : List Char) (units : Nat) :
    offset (xs ++ ys) ⟨(behind xs).line, (behind xs).character + units⟩
      = byteLength (xs ++ unitPrefix units (ys.takeWhile (· ≠ '\n'))) := by
  rw [offset_of_lineCut (lineCut_around xs ys)]
  unfold behind
  rw [unitPrefix_append, ← List.append_assoc, List.rdropWhile_append_rtakeWhile]

/-- One unit behind the place of a character that ends no line is behind that character. -/
theorem offset_behind_succ {i : Nat} (hi : i < cs.length) (hfeed : cs[i] ≠ '\n') :
    offset cs ⟨(behind (cs.take i)).line, (behind (cs.take i)).character + 1⟩
      = byteLength (cs.take (i + 1)) := by
  have hreach : unitPrefix 1 ((cs.drop i).takeWhile (· ≠ '\n')) = [cs[i]] := by
    have hcount : 1 - unitCount cs[i] = 0 := by
      have := unitCount_pos cs[i]
      omega
    rw [List.drop_eq_getElem_cons hi, List.takeWhile_cons, if_pos (by simpa using hfeed),
      unitPrefix, if_neg (by omega), hcount, unitPrefix_zero]
  have h := offset_behind_add (cs.take i) (cs.drop i) 1
  rwa [List.take_append_drop, hreach, List.take_concat_get' _ _ hi] at h

/-- On one line, and on the lines past the last one, more units reach at least as far. -/
theorem offset_le_of_character_le {p q : Position}
    (hline : min p.line (cs.count '\n') = min q.line (cs.count '\n'))
    (h : p.character ≤ q.character) : p.offset cs ≤ q.offset cs := by
  obtain ⟨front, line, back, hcut⟩ := exists_lineCut (Nat.min_le_right p.line (cs.count '\n'))
  rw [offset_eq hcut, offset_eq (hline ▸ hcut)]
  apply byteLength_le_of_isPrefix
  rw [List.prefix_append_right_inj]
  exact unitPrefix_mono h line

/-- A position on a line that is not the last one comes before all positions on later lines. -/
theorem offset_le_of_line_lt {p q : Position} (hlast : p.line < cs.count '\n')
    (h : p.line < q.line) : p.offset cs ≤ q.offset cs := by
  obtain ⟨front, line, back, hcut⟩ := exists_lineCut (Nat.le_of_lt hlast)
  obtain ⟨front', line', back', hcut'⟩ :=
    exists_lineCut (Nat.min_le_right q.line (cs.count '\n'))
  have hline : front ++ unitPrefix p.character line <+: front ++ line :=
    (List.prefix_append_right_inj front).2 (unitPrefix_isPrefix p.character line)
  have hfront : front ++ line <+: front' := hcut.prefix_front hcut' (by omega)
  rw [offset_of_lineCut hcut, offset_eq hcut']
  exact byteLength_le_of_isPrefix ((hline.trans hfront).trans (List.prefix_append _ _))

/-- On the last line, and past it, a position is at the end of the text just if its units reach into
the last character. -/
theorem offset_eq_byteLength_iff {p : Position} (h : LineCut cs (cs.count '\n') front line back)
    (hp : cs.count '\n' ≤ p.line) :
    p.offset cs = byteLength cs ↔ line = [] ∨ unitLength line.dropLast < p.character := by
  have hwhole : cs = front ++ line := by
    have hcut := h.eq_append
    rwa [h.back_eq_nil, List.append_nil] at hcut
  rw [offset_eq (by rwa [Nat.min_eq_right hp]), ← unitPrefix_eq_self_iff]
  constructor
  · intro hbytes
    apply (unitPrefix_isPrefix p.character line).eq_of_length_le
    apply Nat.le_of_not_lt
    intro hlt
    have hless := byteLength_lt_of_isPrefix (unitPrefix_isPrefix p.character line) hlt
    rw [hwhole, byteLength_append, byteLength_append] at hbytes
    omega
  · intro hreach
    rw [hreach, ← hwhole]

end Position

open Position in
/-- **Positions and bytes correspond.** The position behind any characters at the start of a text
has the length of these characters in UTF-8 as its offset. Whatever a position, its offset is a
boundary of a character of the text. Units that end inside a pair of surrogates reach to the end of
the character that the pair stands for. -/
theorem offset_of_characters (cs : List Char) :
    (∀ i, (behind (cs.take i)).offset cs = (String.ofList (cs.take i)).utf8ByteSize) ∧
      (∀ p : Position, String.Pos.Raw.IsValid (String.ofList cs) ⟨p.offset cs⟩ ∧
        p.offset cs ≤ (String.ofList cs).utf8ByteSize) ∧
      ∀ i (hi : i < cs.length), 0xFFFF < cs[i].toNat →
        Position.offset cs ⟨(behind (cs.take i)).line, (behind (cs.take i)).character + 1⟩
          = (String.ofList (cs.take (i + 1))).utf8ByteSize := by
  refine ⟨fun i => ?_, fun p => ⟨?_, ?_⟩, fun i hi hpair => ?_⟩
  · have h := offset_behind_add (cs.take i) (cs.drop i) 0
    rw [List.take_append_drop, unitPrefix_zero, List.append_nil] at h
    rw [utf8ByteSize_ofList]
    exact h
  · obtain ⟨i, hi⟩ := exists_take_of_offset cs p
    exact String.Pos.Raw.isValid_ofList.2 ⟨i, by rw [utf8ByteSize_ofList]; exact hi⟩
  · rw [utf8ByteSize_ofList]
    exact offset_le_byteLength cs p
  · have hfeed : cs[i] ≠ '\n' := by
      intro h
      rw [h] at hpair
      exact absurd hpair (by decide)
    rw [utf8ByteSize_ofList]
    exact offset_behind_succ hi hfeed

/-- A character of two units, and a line behind it. -/
theorem offset_of_halfPair :
    1 < "a😀\nb".toList.length ∧ 0xFFFF < '😀'.toNat ∧
      Position.offset "a😀\nb".toList ⟨0, 2⟩ = (String.ofList ['a', '😀']).utf8ByteSize := by
  obtain ⟨-, -, hpair⟩ := offset_of_characters "a😀\nb".toList
  exact ⟨by decide, by decide, hpair 1 (by decide) (by decide)⟩

open Position in
/-- **Later positions have no smaller offsets, up to the last line.** Of two positions the later one
has no smaller offset, unless it lies past the last line while the earlier one lies on the last line
or past it and has more units. Units past the end of a line stand for its end. A line past the last
one stands for the last one, with the same units, so a position there stands for the end of the text
just if its units reach into the last character of the last line. -/
theorem offset_mono_up_to_last_line (cs : List Char) :
    (∀ p q : Position, p.IsBefore q →
      q.line ≤ cs.count '\n' ∨ p.line < cs.count '\n' ∨ p.character ≤ q.character →
        p.offset cs ≤ q.offset cs) ∧
      (∀ (p : Position) (front line back : List Char), LineCut cs p.line front line back →
        unitLength line ≤ p.character → p.offset cs = byteLength (front ++ line)) ∧
      (∀ p : Position, cs.count '\n' ≤ p.line →
        p.offset cs = offset cs ⟨cs.count '\n', p.character⟩) ∧
      ∀ (p : Position) (front line back : List Char),
        LineCut cs (cs.count '\n') front line back → cs.count '\n' ≤ p.line →
          (p.offset cs = byteLength cs ↔ line = [] ∨ unitLength line.dropLast < p.character) := by
  refine ⟨fun p q hbefore hcases => ?_, fun p front line back hcut hunits => ?_, fun p hp => ?_,
    fun p front line back hcut hp => ?_⟩
  · rcases hbefore with hlt | ⟨heq, hle⟩
    · by_cases hlast : p.line < cs.count '\n'
      · exact offset_le_of_line_lt hlast hlt
      · exact offset_le_of_character_le (by omega) (by omega)
    · exact offset_le_of_character_le (by rw [heq]) hle
  · rw [offset_of_lineCut hcut, unitPrefix_of_le hunits]
  · have hline : min p.line (cs.count '\n') = min (cs.count '\n') (cs.count '\n') := by omega
    apply Nat.le_antisymm
    · exact offset_le_of_character_le hline (Nat.le_refl _)
    · exact offset_le_of_character_le hline.symm (Nat.le_refl _)
  · exact offset_eq_byteLength_iff hcut hp

/-- On lines that exist, and at the ends of the last line. -/
theorem offset_mono_twoLines :
    (⟨0, 1⟩ : Position).IsBefore ⟨1, 0⟩ ∧ LineCut "ab\ncd".toList 1 "ab\n".toList "cd".toList [] ∧
      Position.offset "ab\ncd".toList ⟨0, 1⟩ ≤ Position.offset "ab\ncd".toList ⟨1, 0⟩ ∧
      Position.offset "ab\ncd".toList ⟨1, 7⟩ = 5 ∧
      Position.offset "ab\ncd".toList ⟨3, 1⟩ = Position.offset "ab\ncd".toList ⟨1, 1⟩ ∧
      Position.offset "ab\ncd".toList ⟨3, 2⟩ = 5 := by
  obtain ⟨hmono, hunits, hline, hend⟩ := offset_mono_up_to_last_line "ab\ncd".toList
  have hbefore : (⟨0, 1⟩ : Position).IsBefore ⟨1, 0⟩ := by decide
  have hcut : LineCut "ab\ncd".toList 1 "ab\n".toList "cd".toList [] :=
    ⟨by decide, by decide, .inr ⟨['a', 'b'], by decide⟩, by decide, .inl rfl⟩
  refine ⟨hbefore, hcut, hmono _ _ hbefore (.inl (by decide)), ?_, hline ⟨3, 1⟩ (by decide), ?_⟩
  · exact hunits ⟨1, 7⟩ _ _ _ hcut (by decide)
  · exact (hend ⟨3, 2⟩ _ _ _ hcut (by decide)).2 (.inr (by decide))

/-- Past the last line an offset may be smaller than that of an earlier position, and not be the end
of the text. -/
theorem linePastEnd_steps_back :
    (⟨1, 2⟩ : Position).IsBefore ⟨2, 0⟩ ∧ "ab\ncd".toList.count '\n' < 2 ∧
      Position.offset "ab\ncd".toList ⟨2, 0⟩ < Position.offset "ab\ncd".toList ⟨1, 2⟩ ∧
      Position.offset "ab\ncd".toList ⟨2, 0⟩ ≠ byteLength "ab\ncd".toList := by decide

end AgentFlow
