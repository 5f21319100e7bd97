import AgentFlow.Script.Grammar.Goal

/-!
# Trees in order

The nodes that the grammar makes span what is read between two cursors, and their children lie one
after the other in that span. A node also has the parts that its kind calls for. Both are said of
the cursors first: `Cursor.Reads` holds of two cursors and the nodes that are read between them, and
readings one after the other make up one reading.

* `Tree.HasParts`, `Tree.IsLaidOut`: what is to hold of the nodes of a tree.
* `Cursor.Reads`: nodes that are read on the way from one cursor to another.
* `Cursor.Reads.append`, `Cursor.Reads.node`: readings in a row, and as the children of a node.
-/

namespace AgentFlow.Script

/-- Whether a text is an escape sequence of a string literal. -/
def IsEscape (text : List Char) : Prop :=
  ∃ cs : List Char, text = '\\' :: cs.take (escapeLength cs)

namespace Tree

/-- Whether a node has the parts that its kind calls for. -/
def HasParts (t : Tree) : Prop :=
  match t.kind with
  | .pair => (t.child? .key).isSome ∧ (t.child? .value).isSome
  | .method => (t.child? .name).isSome
  | .spread => t.namedChildren.head?.isSome
  | .escape => IsEscape t.text
  | _ => True

mutual

/-- Whether all nodes of a tree have their parts and lie one after the other in their parents. -/
def IsLaidOut : Tree → Prop
  | .node k a b s cs => a ≤ b ∧ (node k a b s cs).HasParts ∧ AreLaidOut a b cs

/-- Whether trees lie one after the other between two offsets. -/
def AreLaidOut (start stop : Nat) : List (Label × Tree) → Prop
  | [] => start ≤ stop
  | (_, t) :: ts => start ≤ t.start ∧ t.IsLaidOut ∧ AreLaidOut t.stop stop ts

end

theorem IsLaidOut.start_le_stop {t : Tree} (h : t.IsLaidOut) : t.start ≤ t.stop := by
  obtain ⟨k, a, b, s, cs⟩ := t
  rw [IsLaidOut] at h
  exact h.1

section

variable {lo mid hi : Nat} {ts us : List (Label × Tree)}

theorem AreLaidOut.le (h : AreLaidOut lo hi ts) : lo ≤ hi := by
  induction ts generalizing lo with
  | nil => exact h
  | cons t ts ih =>
    obtain ⟨hstart, ht, hrest⟩ := h
    exact Nat.le_trans hstart (Nat.le_trans ht.start_le_stop (ih hrest))

theorem AreLaidOut.append (h : AreLaidOut lo mid ts) (h' : AreLaidOut mid hi us) :
    AreLaidOut lo hi (ts ++ us) := by
  induction ts generalizing lo with
  | nil =>
    cases us with
    | nil => exact Nat.le_trans h h'
    | cons u us => exact ⟨Nat.le_trans h h'.1, h'.2⟩
  | cons t ts ih => exact ⟨h.1, h.2.1, ih h.2.2⟩

/-- The labels of the nodes make no difference. -/
theorem AreLaidOut.congr (h : AreLaidOut lo hi ts) (hus : us.map (·.2) = ts.map (·.2)) :
    AreLaidOut lo hi us := by
  induction ts generalizing lo us with
  | nil =>
    obtain rfl : us = [] := by simpa using hus
    exact h
  | cons t ts ih =>
    obtain ⟨u, us, rfl, hu, hrest⟩ := List.map_eq_cons_iff.1 hus
    obtain ⟨hstart, ht, hlaid⟩ := h
    refine ⟨hu ▸ hstart, hu ▸ ht, hu ▸ ih hlaid hrest⟩

end

end Tree

namespace Cursor

/-! ## Readings -/

/-- Whether a node is a comment that ends before an offset. -/
structure IsRemark (stop : Nat) (t : Tree) : Prop where
  kind_eq : t.kind = .comment ∨ t.kind = .other
  labelled_eq : t.labelled = []
  start_le : t.start ≤ t.stop
  stop_le : t.stop ≤ stop

/-- Whether all that is kept of the comments in front of a cursor are such. -/
def IsTidy (c : Cursor) : Prop := ∀ k ∈ c.comments, IsRemark c.offset k

/-- Whether some nodes lie one after the other between two cursors. -/
structure Reads (c : Cursor) (ts : List (Label × Tree)) (d : Cursor) : Prop where
  laidOut : Tree.AreLaidOut c.offset d.offset ts
  tidy : c.IsTidy → d.IsTidy

section

variable {b c d e : Cursor} {ts us : List (Label × Tree)} {l : Label} {t : Tree} {kind : Kind}

theorem IsRemark.mono {m n : Nat} (h : IsRemark m t) (hmn : m ≤ n) : IsRemark n t :=
  { h with stop_le := Nat.le_trans h.stop_le hmn }

theorem Reads.le (h : c.Reads ts d) : c.offset ≤ d.offset := h.laidOut.le

@[simp] theorem Reads.refl (c : Cursor) : c.Reads [] c := ⟨Nat.le_refl _, id⟩

theorem Reads.append (h : c.Reads ts d) (h' : d.Reads us e) : c.Reads (ts ++ us) e :=
  ⟨h.laidOut.append h'.laidOut, h'.tidy ∘ h.tidy⟩

/-- A reading with something passed in front of it. -/
theorem Reads.after (h : c.Reads ts d) (hb : b.Reads [] c) : b.Reads ts d := hb.append h

/-- A reading with something passed behind it. -/
theorem Reads.upTo (h : c.Reads ts d) (h' : d.Reads [] e) : c.Reads ts e := by
  simpa using h.append h'

/-- A node in front of a reading. -/
theorem Reads.cons (h : c.Reads [(l, t)] d) (h' : d.Reads ts e) : c.Reads ((l, t) :: ts) e :=
  h.append h'

/-- The labels of the nodes make no difference to a reading. -/
theorem Reads.congr (h : c.Reads ts d) (hus : us.map (·.2) = ts.map (·.2)) : c.Reads us d :=
  ⟨h.laidOut.congr hus, h.tidy⟩

/-- Whether the cursors are inside brackets makes no difference to a reading. -/
theorem Reads.inside (h : c.Reads ts d) (i j : Bool) :
    { c with inner := i }.Reads ts { d with inner := j } := ⟨h.laidOut, h.tidy⟩

/-- A node of what is read between two cursors. -/
theorem Reads.node (h : c.Reads ts d) (hparts : (c.node d kind ts).HasParts) :
    c.Reads [(l, c.node d kind ts)] d :=
  ⟨⟨Nat.le_refl _, ⟨h.le, hparts, h.laidOut⟩, Nat.le_refl _⟩, h.tidy⟩

/-- A cursor with nothing but more characters in front of it. -/
theorem Reads.advance (h : c.offset ≤ d.offset) (hcomments : d.comments = c.comments) :
    c.Reads [] d :=
  ⟨h, fun hc k hk => (hc k (hcomments ▸ hk)).mono h⟩

/-- A cursor with more characters and a comment in front of it. -/
theorem Reads.remark {k : Tree} (h : c.offset ≤ d.offset) (hk : IsRemark d.offset k)
    (hcomments : d.comments = k :: c.comments) : c.Reads [] d := by
  refine ⟨h, fun hc j hj => ?_⟩
  rw [hcomments, List.mem_cons] at hj
  rcases hj with rfl | hj
  · exact hk
  · exact (hc j hj).mono h

/-- A part that may be missing, with what is passed in its place. -/
theorem Reads.either {found : Option Cursor} (hd : c.Reads [] d)
    (h : ∀ e, found = some e → c.Reads [] e) : c.Reads [] (found.getD d) := by
  cases found with
  | none => exact hd
  | some e => exact h e rfl

/-- A part that may be missing. -/
theorem Reads.getD {found : Option Cursor} (h : ∀ d, found = some d → c.Reads [] d) :
    c.Reads [] (found.getD c) := .either (.refl c) h

end

end Cursor

end AgentFlow.Script
