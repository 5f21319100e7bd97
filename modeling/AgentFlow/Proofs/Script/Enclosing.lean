import AgentFlow.Script.Binding
import AgentFlow.Script.Locate
import Mathlib.Data.List.Infix

/-!
# The object literals around a place

A node of a tree is told from others by its path: the numbers of the children that lead to it from
the root. The search for the innermost object literal goes only into nodes that contain the offset,
and where spans lie within those of their parents nothing is missed in that way.

* `Tree.at?`, `Tree.along`: the node at the end of a path, and the nodes on it from the root down.
* `objectPath_eq_nil_iff`: it fails only if no object literal contains the offset.
* `exists_path`: what it finds lies at the end of a path, and no object literal below contains the
  offset.
* `filter_preorder_eq_along`: nodes that all lie on one path, in document order.
* `enclosing_objects_of_nested`: what is found at an offset, and around it.
-/

namespace AgentFlow.Script

namespace Tree

/-! ## Paths -/

/-- The node at the end of a path. -/
def at? : Tree → List Nat → Option Tree
  | t, [] => some t
  | t, i :: p => t.children[i]?.bind fun c => c.at? p

/-- The nodes on a path, from the root down. -/
def along : Tree → List Nat → List Tree
  | t, [] => [t]
  | t, i :: p => t :: (t.children[i]?.elim [] fun c => c.along p)

/-- Whether the span of a node lies within that of another. -/
def LiesIn (t u : Tree) : Prop := u.start ≤ t.start ∧ t.stop ≤ u.stop

/-- Whether each span lies within the span of the parent. -/
def IsNested (root : Tree) : Prop := ∀ t ∈ root.preorder, ∀ c ∈ t.children, c.LiesIn t

instance (t u : Tree) : Decidable (t.LiesIn u) := inferInstanceAs (Decidable (_ ∧ _))

instance (root : Tree) : Decidable root.IsNested :=
  inferInstanceAs (Decidable (∀ t ∈ root.preorder, ∀ c ∈ t.children, c.LiesIn t))

/-- Whether a node is an object literal that contains an offset. -/
def holds (offset : Nat) (t : Tree) : Bool := t.kind == .object && t.contains offset

@[simp] theorem at?_nil (t : Tree) : t.at? [] = some t := by rw [at?]

theorem at?_cons (t : Tree) (i : Nat) (p : List Nat) :
    t.at? (i :: p) = t.children[i]?.bind fun c => c.at? p := by rw [at?]

theorem at?_cons_eq_some_iff {t u : Tree} {i : Nat} {p : List Nat} :
    t.at? (i :: p) = some u ↔ ∃ c, t.children[i]? = some c ∧ c.at? p = some u := by
  rw [at?_cons, Option.bind_eq_some_iff]

theorem at?_append (t : Tree) (p q : List Nat) :
    t.at? (p ++ q) = (t.at? p).bind fun u => u.at? q := by
  induction p generalizing t with
  | nil => simp
  | cons i p ih => simp only [List.cons_append, at?_cons, Option.bind_assoc, ih]

theorem along_nil (t : Tree) : t.along [] = [t] := by rw [along]

theorem along_cons {t c : Tree} {i : Nat} (hc : t.children[i]? = some c) (p : List Nat) :
    t.along (i :: p) = t :: c.along p := by
  rw [along, hc, Option.elim_some]

theorem mem_preorder_iff {t u : Tree} :
    u ∈ t.preorder ↔ u = t ∨ ∃ c ∈ t.children, u ∈ c.preorder := by
  rw [preorder_eq, List.mem_cons, List.mem_flatMap]

theorem mem_preorder_of_at? {t u : Tree} {p : List Nat} (h : t.at? p = some u) :
    u ∈ t.preorder := by
  induction p generalizing t with
  | nil =>
    obtain rfl := Option.some.inj ((at?_nil t).symm.trans h)
    exact mem_preorder_self t
  | cons i p ih =>
    obtain ⟨c, hc, hu⟩ := at?_cons_eq_some_iff.1 h
    exact mem_preorder_iff.2 (.inr ⟨c, List.mem_of_getElem? hc, ih hu⟩)

/-- Each node lies at the end of a path. -/
theorem exists_at? {t u : Tree} (h : u ∈ t.preorder) : ∃ p, t.at? p = some u := by
  rcases mem_preorder_iff.1 h with rfl | ⟨c, hc, hu⟩
  · exact ⟨[], at?_nil u⟩
  · obtain ⟨p, hp⟩ := exists_at? hu
    obtain ⟨i, hi⟩ := List.getElem?_of_mem hc
    exact ⟨i :: p, at?_cons_eq_some_iff.2 ⟨c, hi, hp⟩⟩
termination_by t.size
decreasing_by exact size_child_lt hc

theorem mem_preorder_of_along {t u : Tree} {p : List Nat} (h : u ∈ t.along p) :
    u ∈ t.preorder := by
  induction p generalizing t with
  | nil =>
    rw [along_nil, List.mem_singleton] at h
    exact h ▸ mem_preorder_self t
  | cons i p ih =>
    cases hc : t.children[i]? with
    | none =>
      rw [along, hc, Option.elim_none, List.mem_singleton] at h
      exact h ▸ mem_preorder_self t
    | some c =>
      rw [along_cons hc, List.mem_cons] at h
      exact mem_preorder_iff.2 (h.imp id fun h => ⟨c, List.mem_of_getElem? hc, ih h⟩)

theorem getLast?_along {t u : Tree} {p : List Nat} (h : t.at? p = some u) :
    (t.along p).getLast? = some u := by
  induction p generalizing t with
  | nil => rw [along_nil, ← h, at?_nil]; rfl
  | cons i p ih =>
    obtain ⟨c, hc, hu⟩ := at?_cons_eq_some_iff.1 h
    rw [along_cons hc, List.getLast?_cons, ih hu, Option.getD_some]

theorem mem_along_of_at? {t u : Tree} {p : List Nat} (h : t.at? p = some u) : u ∈ t.along p :=
  List.mem_of_getLast? (getLast?_along h)

/-- Nodes that all lie on one path are met on it in document order. -/
theorem filter_preorder_eq_along {t u : Tree} {p : List Nat} {q : Tree → Bool}
    (hp : t.at? p = some u) (h : ∀ r v, t.at? r = some v → q v = true → r <+: p) :
    t.preorder.filter q = (t.along p).filter q := by
  induction p generalizing t with
  | nil =>
    have hbelow : (t.children.flatMap preorder).filter q = [] := by
      refine List.filter_eq_nil_iff.2 fun v hv hq => ?_
      obtain ⟨c, hc, hv⟩ := List.mem_flatMap.1 hv
      obtain ⟨j, hj⟩ := List.getElem?_of_mem hc
      obtain ⟨r, hr⟩ := exists_at? hv
      have hprefix := h (j :: r) v (at?_cons_eq_some_iff.2 ⟨c, hj, hr⟩) hq
      exact absurd (List.prefix_nil.1 hprefix) (List.cons_ne_nil _ _)
    rw [preorder_eq, along_nil, List.filter_cons, List.filter_cons, hbelow, List.filter_nil]
  | cons i p ih =>
    obtain ⟨c, hc, hu⟩ := at?_cons_eq_some_iff.1 hp
    have hinside := ih hu fun r v hr hq =>
      (List.cons_prefix_cons.1 (h (i :: r) v (at?_cons_eq_some_iff.2 ⟨c, hc, hr⟩) hq)).2
    have hbeside (cs : List Tree) (hcs : ∀ d ∈ cs, ∃ j, j ≠ i ∧ t.children[j]? = some d) :
        (cs.flatMap preorder).filter q = [] := by
      refine List.filter_eq_nil_iff.2 fun v hv hq => ?_
      obtain ⟨d, hd, hv⟩ := List.mem_flatMap.1 hv
      obtain ⟨j, hne, hj⟩ := hcs d hd
      obtain ⟨r, hr⟩ := exists_at? hv
      have hprefix := h (j :: r) v (at?_cons_eq_some_iff.2 ⟨d, hj, hr⟩) hq
      exact hne (List.cons_prefix_cons.1 hprefix).1
    obtain ⟨hlt, hget⟩ := List.getElem?_eq_some_iff.1 hc
    have hsplit : t.children = t.children.take i ++ c :: t.children.drop (i + 1) := by
      rw [← hget, ← List.drop_eq_getElem_cons hlt, List.take_append_drop]
    have hbefore : ((t.children.take i).flatMap preorder).filter q = [] := by
      refine hbeside _ fun d hd => ?_
      obtain ⟨j, hj, rfl⟩ := List.mem_take_iff_getElem.1 hd
      exact ⟨j, by omega, List.getElem?_eq_getElem _⟩
    have hbehind : ((t.children.drop (i + 1)).flatMap preorder).filter q = [] := by
      refine hbeside _ fun d hd => ?_
      obtain ⟨j, hj, rfl⟩ := List.mem_drop_iff_getElem.1 hd
      exact ⟨i + 1 + j, by omega, List.getElem?_eq_getElem _⟩
    rw [preorder_eq, along_cons hc, List.filter_cons, List.filter_cons, hsplit, List.flatMap_append,
      List.flatMap_cons, List.filter_append, List.filter_append, hbefore, hbehind, List.nil_append,
      List.append_nil, hinside]

/-! ## Nested spans -/

theorem LiesIn.refl (t : Tree) : t.LiesIn t := ⟨Nat.le_refl _, Nat.le_refl _⟩

theorem LiesIn.trans {t u v : Tree} (h : t.LiesIn u) (h' : u.LiesIn v) : t.LiesIn v :=
  ⟨Nat.le_trans h'.1 h.1, Nat.le_trans h.2 h'.2⟩

theorem contains_iff {t : Tree} {offset : Nat} :
    t.contains offset = true ↔ t.start ≤ offset ∧ offset ≤ t.stop := by
  rw [contains, Bool.and_eq_true, decide_eq_true_eq, decide_eq_true_eq]

/-- A node contains what lies within it contains. -/
theorem LiesIn.contains {t u : Tree} {offset : Nat} (h : t.LiesIn u)
    (ho : t.contains offset = true) : u.contains offset = true := by
  rw [contains_iff] at ho ⊢
  exact ⟨Nat.le_trans h.1 ho.1, Nat.le_trans ho.2 h.2⟩

theorem IsNested.child {t c : Tree} (h : t.IsNested) (hc : c ∈ t.children) : c.IsNested :=
  fun v hv => h v (mem_preorder_iff.2 (.inr ⟨c, hc, hv⟩))

theorem IsNested.at? {t u : Tree} {p : List Nat} (h : t.IsNested) (hp : t.at? p = some u) :
    u.IsNested := by
  induction p generalizing t with
  | nil =>
    obtain rfl := Option.some.inj ((at?_nil t).symm.trans hp)
    exact h
  | cons i p ih =>
    obtain ⟨c, hc, hu⟩ := at?_cons_eq_some_iff.1 hp
    exact ih (h.child (List.mem_of_getElem? hc)) hu

/-- All nodes of a tree lie within its root. -/
theorem IsNested.liesIn {t u : Tree} (h : t.IsNested) (hu : u ∈ t.preorder) : u.LiesIn t := by
  rcases mem_preorder_iff.1 hu with rfl | ⟨c, hc, hu⟩
  · exact .refl u
  · exact (IsNested.liesIn (h.child hc) hu).trans (h t (mem_preorder_self t) c hc)
termination_by t.size
decreasing_by exact size_child_lt hc

/-- Along a path each span lies within all spans before it. -/
theorem IsNested.pairwise_along {t : Tree} (h : t.IsNested) (p : List Nat) :
    (t.along p).Pairwise fun v w => w.LiesIn v := by
  induction p generalizing t with
  | nil =>
    rw [along_nil]
    exact List.pairwise_singleton _ _
  | cons i p ih =>
    cases hc : t.children[i]? with
    | none =>
      rw [along, hc]
      exact List.pairwise_singleton _ _
    | some c =>
      have hmem := List.mem_of_getElem? hc
      rw [along_cons hc, List.pairwise_cons]
      exact ⟨fun v hv => ((h.child hmem).liesIn (mem_preorder_of_along hv)).trans
        (h t (mem_preorder_self t) c hmem), ih (h.child hmem)⟩

/-! ## The search -/

section

variable {offset : Nat}

/-- The first child that has a path to an object literal, if there is one. -/
theorem objectPathAmong_cases (offset : Nat) (cs : List (Label × Tree)) :
    (objectPathAmong offset cs = [] ∧ ∀ c ∈ cs.map (·.2), objectPath offset c = []) ∨
      ∃ (i : Nat) (c : Tree), (cs.map (·.2))[i]? = some c ∧ objectPath offset c ≠ [] ∧
        objectPathAmong offset cs = objectPath offset c := by
  induction cs with
  | nil => exact .inl ⟨rfl, fun _ hc => nomatch hc⟩
  | cons c cs ih =>
    obtain ⟨l, t⟩ := c
    cases ht : objectPath offset t with
    | cons u path =>
      exact .inr ⟨0, t, rfl, by simp [ht], by simp [objectPathAmong, ht]⟩
    | nil =>
      have hnext : objectPathAmong offset ((l, t) :: cs) = objectPathAmong offset cs := by
        simp [objectPathAmong, ht]
      rcases ih with ⟨hnil, hall⟩ | ⟨i, c, hc, hne, heq⟩
      · exact .inl ⟨hnext.trans hnil, List.forall_mem_cons.2 ⟨ht, hall⟩⟩
      · exact .inr ⟨i + 1, c, hc, hne, hnext.trans heq⟩

/-- The path of a node: it goes on in the first child that has one, and ends in the node itself if
no child has one and the node is an object literal. -/
theorem objectPath_cases (offset : Nat) (t : Tree) :
    (t.contains offset = false ∧ objectPath offset t = []) ∨
    t.contains offset = true ∧
      (((∀ c ∈ t.children, objectPath offset c = []) ∧
        objectPath offset t = if t.kind = .object then [t] else []) ∨
      ∃ (i : Nat) (c : Tree), t.children[i]? = some c ∧ objectPath offset c ≠ [] ∧
        objectPath offset t = objectPath offset c ++ [t]) := by
  obtain ⟨k, a, b, s, cs⟩ := t
  by_cases ho : a ≤ offset ∧ offset ≤ b
  · refine .inr ⟨contains_iff.2 ho, ?_⟩
    rw [objectPath, if_pos ho]
    rcases objectPathAmong_cases offset cs with ⟨hnil, hall⟩ | ⟨i, c, hc, hne, heq⟩
    · exact .inl ⟨hall, by rw [hnil]; rfl⟩
    · refine .inr ⟨i, c, hc, hne, ?_⟩
      rw [heq]
      cases hpath : objectPath offset c with
      | nil => exact absurd hpath hne
      | cons u path => rfl
  · refine .inl ⟨Bool.eq_false_iff.2 fun h => ho (contains_iff.1 h), ?_⟩
    rw [objectPath, if_neg ho]

/-- What the search finds lies at the end of a path. All nodes on it contain the offset, and in no
child of its end the search finds anything. -/
theorem exists_path {t : Tree} (h : objectPath offset t ≠ []) :
    ∃ p u, t.at? p = some u ∧ u.kind = .object ∧
      (∀ c ∈ u.children, objectPath offset c = []) ∧
      objectPath offset t = (t.along p).reverse ∧ ∀ v ∈ t.along p, v.contains offset = true := by
  rcases objectPath_cases offset t with ⟨-, hnil⟩ | ⟨ho, ⟨hall, hself⟩ | ⟨i, c, hc, hne, heq⟩⟩
  · exact absurd hnil h
  · split at hself
    case isTrue hk =>
      refine ⟨[], t, at?_nil t, hk, hall, hself, fun v hv => ?_⟩
      rw [along_nil, List.mem_singleton] at hv
      exact hv ▸ ho
    case isFalse => exact absurd hself h
  · obtain ⟨p, u, hp, hk, hall, hpath, hcontains⟩ := exists_path hne
    refine ⟨i :: p, u, at?_cons_eq_some_iff.2 ⟨c, hc, hp⟩, hk, hall, ?_, fun v hv => ?_⟩
    · rw [heq, hpath, along_cons hc, List.reverse_cons]
    · rw [along_cons hc, List.mem_cons] at hv
      rcases hv with rfl | hv
      · exact ho
      · exact hcontains v hv
termination_by t.size
decreasing_by exact size_child_lt (List.mem_of_getElem? hc)

/-- What the search finds is a node of the tree. -/
theorem mem_preorder_of_innermostObject? {t u : Tree} (h : t.innermostObject? offset = some u) :
    u ∈ t.preorder := by
  have hmem : u ∈ objectPath offset t := List.mem_of_head? h
  obtain ⟨p, -, -, -, -, hpath, -⟩ := exists_path (List.ne_nil_of_mem hmem)
  exact mem_preorder_of_along (List.mem_reverse.1 (hpath ▸ hmem))

/-- With nested spans the search fails only if no object literal contains the offset. -/
theorem objectPath_eq_nil_iff {t : Tree} (h : t.IsNested) :
    objectPath offset t = [] ↔ ∀ u ∈ t.preorder, u.holds offset = false := by
  constructor
  · intro hnil u hu
    by_contra hholds
    obtain ⟨hk, ho⟩ : u.kind = .object ∧ u.contains offset = true := by
      simpa [holds] using hholds
    rcases objectPath_cases offset t with ⟨hout, -⟩ | ⟨-, ⟨hall, hself⟩ | ⟨i, c, hc, hne, heq⟩⟩
    · exact absurd ((h.liesIn hu).contains ho) (by simp [hout])
    · rcases mem_preorder_iff.1 hu with rfl | ⟨c, hc, hu⟩
      · rw [hself, if_pos hk] at hnil
        cases hnil
      · have hbelow := (objectPath_eq_nil_iff (h.child hc)).1 (hall c hc) u hu
        exact hholds hbelow
    · rw [heq] at hnil
      exact List.append_ne_nil_of_right_ne_nil _ (List.cons_ne_nil _ _) hnil
  · intro hnone
    by_contra hne
    obtain ⟨p, u, hp, hk, -, -, hcontains⟩ := exists_path hne
    have hmem : u ∈ t.preorder := mem_preorder_of_at? hp
    have hu : u.contains offset = true := hcontains u (mem_along_of_at? hp)
    exact absurd (hnone u hmem) (by simp [holds, hk, hu])
termination_by t.size
decreasing_by exact size_child_lt hc

end

end Tree

open Script.Tree in
/-- **The innermost object literal at an offset, and those around it.** Where each span lies within
that of its parent, the search fails just if no object literal contains the offset. What it finds
is one that does, and none below it does. The literals around it are those on the path to it from
the root, innermost first; all of them contain the offset, and each lies within the next. They are
all literals that contain the offset, unless of two such literals neither lies on the path to the
other. -/
theorem enclosing_objects_of_nested {root : Tree} (h : root.IsNested) (offset : Nat) :
    (root.innermostObject? offset = none ↔ ∀ u ∈ root.preorder, u.holds offset = false) ∧
      (root.innermostObject? offset = none → root.enclosingObjects offset = []) ∧
      ∀ u, root.innermostObject? offset = some u → ∃ p, root.at? p = some u ∧
        u.holds offset = true ∧
        (∀ w ∈ u.children.flatMap preorder, w.holds offset = false) ∧
        root.enclosingObjects offset = ((root.along p).filter (·.kind == .object)).reverse ∧
        (∀ w ∈ root.enclosingObjects offset, w.contains offset = true) ∧
        (root.enclosingObjects offset).Pairwise LiesIn ∧
        ((∀ q r v w, root.at? q = some v → v.holds offset = true → root.at? r = some w →
            w.holds offset = true → q <+: r ∨ r <+: q) →
          root.enclosingObjects offset = (root.preorder.filter (holds offset)).reverse) := by
  refine ⟨?_, fun hnone => ?_, fun u hu => ?_⟩
  · rw [innermostObject?, List.head?_eq_none_iff, objectPath_eq_nil_iff h]
  · rw [innermostObject?, List.head?_eq_none_iff] at hnone
    rw [enclosingObjects, hnone, List.filter_nil]
  have hne : objectPath offset root ≠ [] := by
    intro hnil
    rw [innermostObject?, hnil] at hu
    cases hu
  obtain ⟨p, u', hp, hk, hall, hpath, hcontains⟩ := exists_path hne
  obtain rfl : u' = u := by
    rw [innermostObject?, hpath, List.head?_reverse, getLast?_along hp] at hu
    exact Option.some.inj hu
  have hholds : u'.holds offset = true := by
    simp [holds, hk, hcontains u' (mem_along_of_at? hp)]
  have hbelow : ∀ w ∈ u'.children.flatMap preorder, w.holds offset = false := by
    intro w hw
    obtain ⟨c, hc, hw⟩ := List.mem_flatMap.1 hw
    exact (objectPath_eq_nil_iff ((h.at? hp).child hc)).1 (hall c hc) w hw
  have henclosing : root.enclosingObjects offset
      = ((root.along p).filter (·.kind == .object)).reverse := by
    rw [enclosingObjects, hpath, List.filter_reverse]
  refine ⟨p, hp, hholds, hbelow, henclosing, fun w hw => ?_, ?_, fun hcomparable => ?_⟩
  · rw [henclosing, List.mem_reverse] at hw
    exact hcontains w (List.mem_of_mem_filter hw)
  · rw [henclosing, List.pairwise_reverse]
    exact (h.pairwise_along p).filter _
  · rw [henclosing, filter_preorder_eq_along hp]
    · congr 1
      refine List.filter_congr fun w hw => ?_
      simp [holds, hcontains w hw]
    · intro r v hr hv
      rcases hcomparable r p v u' hr hv hp hholds with hprefix | ⟨s, rfl⟩
      · exact hprefix
      · -- a literal further down the path would be one below the innermost
        rw [at?_append, hp, Option.bind_some] at hr
        cases s with
        | nil => rw [List.append_nil]
        | cons i s =>
          obtain ⟨c, hc, hv'⟩ := at?_cons_eq_some_iff.1 hr
          have hmem : v ∈ u'.children.flatMap preorder :=
            List.mem_flatMap.2 ⟨c, List.mem_of_getElem? hc, mem_preorder_of_at? hv'⟩
          rw [hbelow v hmem] at hv
          cases hv

/-- An object literal that is the value of a member of another one. -/
def literalInLiteral : Tree :=
  .node .object 0 11 "\x7ba: \x7bb: 1\x7d\x7d".toList [
    (.plain, .node .pair 1 10 "a: \x7bb: 1\x7d".toList [
      (.key, .node .propertyName 1 2 ['a'] []),
      (.value, .node .object 4 10 "\x7bb: 1\x7d".toList [
        (.plain, .node .pair 5 9 "b: 1".toList [
          (.key, .node .propertyName 5 6 ['b'] []), (.value, .node .number 8 9 ['1'] [])])])])]

theorem enclosing_objects_literalInLiteral :
    literalInLiteral.IsNested ∧ ∃ inner p, literalInLiteral.innermostObject? 8 = some inner ∧
      inner.start = 4 ∧ literalInLiteral.at? p = some inner ∧
      literalInLiteral.enclosingObjects 8
        = ((literalInLiteral.along p).filter (·.kind == .object)).reverse ∧
      (literalInLiteral.enclosingObjects 8).map Tree.start = [4, 0] := by
  have hnested : literalInLiteral.IsNested := by decide
  obtain ⟨-, -, hfound⟩ := enclosing_objects_of_nested hnested 8
  obtain ⟨inner, hinner, hstart⟩ :
      ∃ inner, literalInLiteral.innermostObject? 8 = some inner ∧ inner.start = 4 := ⟨_, rfl, rfl⟩
  obtain ⟨p, hp, -, -, henclosing, -⟩ := hfound inner hinner
  exact ⟨hnested, inner, p, hinner, hstart, hp, henclosing, rfl⟩

end AgentFlow.Script
