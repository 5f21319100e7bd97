import AgentFlow.Proofs.Script.Enclosing
import AgentFlow.Proofs.Script.Layout.Statement
import AgentFlow.Script.Parse

/-!
# The tree of a script in order

The rules of the grammar are tied together, so that what holds of each of them given the others
holds of all of them, and the statements of a script are laid out one after the other. Comments that
are put into the tree afterwards keep each span inside that of its parent, and the order of all
nodes that can define a name.

* `parse_areOrderly`, `statements_reads`: the grammar as a whole.
* `Tree.IsRegular`: what the tree of a script has in common with that of every other.
* `IsLaidOut.isRegular`, `isRegular_placeComment`: before and after comments are put in.
* `treeOf_isRegular`: every script has such a tree.
-/

namespace AgentFlow.Script

open Cursor

/-! ## The grammar -/

theorem parse_areOrderly (fuel : Nat) : (parse fuel).AreOrderly := by
  induction fuel with
  | zero => exact fun _ _ _ _ h => nomatch h
  | succ fuel ih =>
    intro goal c t d h
    cases goal with
    | assignment returnTypes => exact assignmentRule_isOrderly ih returnTypes h
    | expression => exact expressionRule_isOrderly ih h
    | object => exact object_isOrderly ih h
    | type => exact typeRule_isOrderly ih h
    | pattern => exact within_isOrderly (patternRule_isOrderly ih) h
    | parameters => exact within_isOrderly (parametersRule_isOrderly ih) h
    | statement => exact statementRule_isOrderly ih h
    | block => exact within_isOrderly (blockRule_isOrderly ih) h
    | classBody => exact within_isOrderly (classBody_isOrderly ih (chain_isOrderly ih c.fuel)) h

/-- The next token, of whatever kind. -/
theorem token_reads (c : Cursor) : c.Reads [] (match c.word? with
    | some (_, _, d) => d
    | none =>
      match either string? number? c with
      | some (_, d) => d
      | none => c.drop 1) := by
  split
  next hword => exact word?_reads hword
  next =>
    split
    next h => exact (either_isOrderly string_isOrderly number_isOrderly h).passes
    next => exact drop_reads c 1

theorem brokenToken_yields (c : Cursor) : c.Yields (brokenToken c).1 (brokenToken c).2 :=
  .node (token_reads c.skip) rfl trivial

theorem statements_reads {rules : Rules} (hr : rules.AreOrderly) (fuel : Nat) (c : Cursor) :
    c.Reads (plain (statements rules fuel c).1) (statements rules fuel c).2 := by
  induction fuel generalizing c with
  | zero => exact .refl c
  | succ fuel ih =>
    rw [statements]
    refine Reads.after ?_ c.skipMarkup_reads
    dsimp only
    split
    · exact c.skipMarkup.skip_reads
    · have hstatement : c.skipMarkup.Yields ((rules .statement c.skipMarkup).getD
          (brokenToken c.skipMarkup)).1 ((rules .statement c.skipMarkup).getD
          (brokenToken c.skipMarkup)).2 := by
        cases h : rules .statement c.skipMarkup with
        | none => exact brokenToken_yields _
        | some r => exact hr _ h
      exact hstatement.reads.cons (ih _)

theorem skipHashbang_reads (c : Cursor) : c.Reads [] (skipHashbang c) := by
  simp only [skipHashbang]
  split
  · exact (drop_reads _ _).after c.skip_reads
  · exact .refl c

/-! ## Regular trees -/

namespace Tree

theorem children_sublist_preorder (t : Tree) : t.children.Sublist t.preorder := by
  have hheads (ts : List Tree) : ts.Sublist (ts.flatMap preorder) := by
    induction ts with
    | nil => exact .slnil
    | cons t ts ih =>
      rw [List.flatMap_cons, preorder_eq t, List.cons_append]
      exact (ih.trans (List.sublist_append_right _ _)).cons_cons t
  rw [preorder_eq]
  exact (hheads t.children).cons t

theorem preorder_sublist {t u : Tree} (h : u ∈ t.preorder) : u.preorder.Sublist t.preorder := by
  rcases mem_preorder_iff.1 h with rfl | ⟨c, hc, hu⟩
  · exact .refl _
  · have hsize := size_child_lt hc
    have hchild : c.preorder.Sublist (t.children.flatMap preorder) := by
      rw [List.flatMap_def]
      exact List.sublist_flatten_of_mem (List.mem_map_of_mem hc)
    rw [preorder_eq t]
    exact ((preorder_sublist hu).trans hchild).cons t
termination_by t.size

theorem mem_preorder_of_mem_children {t u c : Tree} (hu : u ∈ t.preorder) (hc : c ∈ u.children) :
    c ∈ t.preorder :=
  (preorder_sublist hu).subset ((children_sublist_preorder u).subset hc)

/-- Whether names are defined in a node of this kind. -/
def isBinder (t : Tree) : Bool :=
  t.kind == .object || t.kind == .pair || t.kind == .declarator || t.kind == .exportStatement

/-- The nodes in which names are defined, in document order. -/
def binders (t : Tree) : List Tree := t.preorder.filter isBinder

/-- The offsets between which a node lies. -/
def span (t : Tree) : Nat × Nat := (t.start, t.stop)

/-- Whether one span stands in front of another: it starts first, and also ends first unless the
other one lies in it. -/
def Precedes (a b : Nat × Nat) : Prop := a.1 ≤ b.1 ∧ (a.2 ≤ b.1 ∨ b.2 ≤ a.2)

/-- Whether nodes come in the order of their spans. -/
def AreSorted (ts : List Tree) : Prop := ts.Pairwise fun t u => Precedes t.span u.span

/-- Whether all nodes have their parts and lie in their parents, and those that define names come
in the order of their spans. -/
structure IsRegular (root : Tree) : Prop where
  hasParts : ∀ t ∈ root.preorder, t.HasParts
  start_le_stop : ∀ t ∈ root.preorder, t.start ≤ t.stop
  isNested : root.IsNested
  sorted : AreSorted root.binders

section

variable {lo hi : Nat} {t : Tree} {cs : List (Label × Tree)}

theorem isLaidOut_iff : t.IsLaidOut ↔
    t.start ≤ t.stop ∧ t.HasParts ∧ AreLaidOut t.start t.stop t.labelled := by
  obtain ⟨k, a, b, s, cs⟩ := t
  rw [IsLaidOut]
  rfl

theorem AreLaidOut.of_mem {c : Label × Tree} (h : AreLaidOut lo hi cs) (hc : c ∈ cs) :
    c.2.IsLaidOut ∧ lo ≤ c.2.start ∧ c.2.stop ≤ hi := by
  induction cs generalizing lo with
  | nil => simp at hc
  | cons d cs ih =>
    obtain ⟨hstart, hd, hrest⟩ := h
    rcases List.mem_cons.1 hc with rfl | hc
    · exact ⟨hd, hstart, hrest.le⟩
    · obtain ⟨hlaid, hlo, hhi⟩ := ih hrest hc
      exact ⟨hlaid, by have := hd.start_le_stop; omega, hhi⟩

theorem IsLaidOut.of_mem_preorder {t u : Tree} (h : t.IsLaidOut) (hu : u ∈ t.preorder) :
    u.IsLaidOut ∧ u.LiesIn t := by
  rcases mem_preorder_iff.1 hu with rfl | ⟨c, hc, hu⟩
  · exact ⟨h, .refl u⟩
  · have hsize := size_child_lt hc
    obtain ⟨d, hd, rfl⟩ := List.mem_map.1 hc
    obtain ⟨hlaid, hlo, hhi⟩ := (isLaidOut_iff.1 h).2.2.of_mem hd
    obtain ⟨hu, hin⟩ := IsLaidOut.of_mem_preorder hlaid hu
    exact ⟨hu, hin.trans ⟨hlo, hhi⟩⟩
termination_by t.size

/-- Nodes of a child end in front of the nodes of the children behind it. -/
theorem AreLaidOut.sorted (h : AreLaidOut lo hi cs)
    (hcs : ∀ c ∈ cs, AreSorted c.2.preorder) : AreSorted ((cs.map (·.2)).flatMap preorder) := by
  induction cs generalizing lo with
  | nil => exact .nil
  | cons c cs ih =>
    obtain ⟨hstart, hc, hrest⟩ := h
    rw [List.map_cons, List.flatMap_cons]
    refine List.pairwise_append.2 ⟨hcs c (by simp), ih hrest fun d hd => hcs d (by simp [hd]), ?_⟩
    intro u hu v hv
    obtain ⟨hlaid, hin⟩ := hc.of_mem_preorder hu
    obtain ⟨e, he, hv⟩ := List.mem_flatMap.1 hv
    obtain ⟨d, hd, rfl⟩ := List.mem_map.1 he
    obtain ⟨hd, hlo, -⟩ := hrest.of_mem hd
    have hbefore : u.stop ≤ v.start := calc
      u.stop ≤ c.2.stop := hin.2
      _ ≤ d.2.start := hlo
      _ ≤ v.start := (hd.of_mem_preorder hv).2.1
    exact ⟨Nat.le_trans hlaid.start_le_stop hbefore, .inl hbefore⟩

theorem IsLaidOut.sorted {t : Tree} (h : t.IsLaidOut) : AreSorted t.preorder := by
  have hbelow (c : Label × Tree) (hc : c ∈ t.labelled) : AreSorted c.2.preorder := by
    have hsize : c.2.size < t.size := size_child_lt (List.mem_map_of_mem hc)
    exact IsLaidOut.sorted ((isLaidOut_iff.1 h).2.2.of_mem hc).1
  have hchildren := (isLaidOut_iff.1 h).2.2.sorted hbelow
  rw [preorder_eq]
  refine List.pairwise_cons.2 ⟨fun u hu => ?_, hchildren⟩
  have hu : u ∈ t.preorder := by rw [preorder_eq]; exact List.mem_cons_of_mem t hu
  have hin := (h.of_mem_preorder hu).2
  exact ⟨hin.1, .inr hin.2⟩
termination_by t.size

theorem IsLaidOut.isRegular (h : t.IsLaidOut) : t.IsRegular := by
  refine ⟨fun u hu => (isLaidOut_iff.1 (h.of_mem_preorder hu).1).2.1,
    fun u hu => (h.of_mem_preorder hu).1.start_le_stop, fun u hu c hc => ?_, ?_⟩
  · obtain ⟨d, hd, rfl⟩ := List.mem_map.1 hc
    exact ((isLaidOut_iff.1 (h.of_mem_preorder hu).1).2.2.of_mem hd).2
  · exact h.sorted.sublist List.filter_sublist

end

/-! ## Comments -/

section

variable {k t : Tree} {cs : List (Label × Tree)}

@[simp] theorem kind_placeComment (k t : Tree) : (placeComment k t).kind = t.kind := by
  obtain ⟨kind, a, b, s, cs⟩ := t
  rw [placeComment]
  rfl

@[simp] theorem start_placeComment (k t : Tree) : (placeComment k t).start = t.start := by
  obtain ⟨kind, a, b, s, cs⟩ := t
  rw [placeComment]
  rfl

@[simp] theorem stop_placeComment (k t : Tree) : (placeComment k t).stop = t.stop := by
  obtain ⟨kind, a, b, s, cs⟩ := t
  rw [placeComment]
  rfl

@[simp] theorem text_placeComment (k t : Tree) : (placeComment k t).text = t.text := by
  obtain ⟨kind, a, b, s, cs⟩ := t
  rw [placeComment]
  rfl

@[simp] theorem labelled_placeComment (k t : Tree) :
    (placeComment k t).labelled = placeAmong k t.labelled := by
  obtain ⟨kind, a, b, s, cs⟩ := t
  rw [placeComment]
  rfl

/-- A child among which a comment is put is the comment, or an old child that may hold it. -/
theorem mem_placeAmong {c : Label × Tree} (hc : c ∈ placeAmong k cs) :
    c = (.plain, k) ∨ c ∈ cs ∨ ∃ d ∈ cs, k.LiesIn d.2 ∧ c = (d.1, placeComment k d.2) := by
  induction cs with
  | nil =>
    rw [placeAmong, List.mem_singleton] at hc
    exact .inl hc
  | cons d cs ih =>
    obtain ⟨l, u⟩ := d
    rw [placeAmong] at hc
    split_ifs at hc with hin hbefore
    · rcases List.mem_cons.1 hc with rfl | hc
      · have hin : k.LiesIn u := by simpa [LiesIn] using hin
        exact .inr (.inr ⟨(l, u), by simp, hin, rfl⟩)
      · exact .inr (.inl (by simp [hc]))
    · rcases List.mem_cons.1 hc with rfl | hc
      · exact .inl rfl
      · exact .inr (.inl hc)
    · rcases List.mem_cons.1 hc with rfl | hc
      · exact .inr (.inl (by simp))
      · rcases ih hc with rfl | hc | ⟨d, hd, hin, rfl⟩
        · exact .inl rfl
        · exact .inr (.inl (by simp [hc]))
        · exact .inr (.inr ⟨d, by simp [hd], hin, rfl⟩)

/-- Labels and kinds of children are still there when a comment is put among them. -/
theorem exists_mem_placeAmong {p : Label → Kind → Prop} {c : Label × Tree} (hc : c ∈ cs)
    (hp : p c.1 c.2.kind) (k : Tree) : ∃ d ∈ placeAmong k cs, p d.1 d.2.kind := by
  induction cs with
  | nil => simp at hc
  | cons d cs ih =>
    obtain ⟨l, u⟩ := d
    rw [placeAmong]
    split_ifs
    · rcases List.mem_cons.1 hc with rfl | hc
      · exact ⟨(l, placeComment k u), by simp, by simpa using hp⟩
      · exact ⟨c, by simp [hc], hp⟩
    · exact ⟨c, List.mem_cons_of_mem _ hc, hp⟩
    · rcases List.mem_cons.1 hc with rfl | hc
      · exact ⟨(l, u), by simp, hp⟩
      · obtain ⟨d, hd, hp⟩ := ih hc
        exact ⟨d, by simp [hd], hp⟩

theorem child?_isSome_iff {l : Label} :
    (t.child? l).isSome ↔ ∃ c ∈ t.labelled, c.1 = l := by
  simp [child?, List.find?_isSome]

theorem head?_namedChildren_isSome_iff :
    t.namedChildren.head?.isSome ↔ ∃ c ∈ t.labelled, c.2.kind ≠ .equals := by
  simp [namedChildren, children, isNamed]

theorem hasParts_placeComment (h : t.HasParts) (k : Tree) : (placeComment k t).HasParts := by
  have hlabel (l : Label) (h : (t.child? l).isSome) : ((placeComment k t).child? l).isSome := by
    obtain ⟨c, hc, hl⟩ := child?_isSome_iff.1 h
    rw [child?_isSome_iff, labelled_placeComment]
    exact exists_mem_placeAmong (p := fun label _ => label = l) hc hl k
  rw [HasParts] at h ⊢
  rw [kind_placeComment, text_placeComment]
  cases hkind : t.kind <;> simp only [hkind] at h ⊢
  case pair => exact ⟨hlabel _ h.1, hlabel _ h.2⟩
  case method => exact hlabel _ h
  case spread =>
    obtain ⟨c, hc, hne⟩ := head?_namedChildren_isSome_iff.1 h
    rw [head?_namedChildren_isSome_iff, labelled_placeComment]
    exact exists_mem_placeAmong (p := fun _ kind => kind ≠ .equals) hc hne k
  case escape => exact h

/-- A node of a tree into which a comment is put is the comment, or an old node that may hold it. -/
theorem mem_preorder_placeComment {k t v : Tree} (hk : k.labelled = []) (hin : k.LiesIn t)
    (hv : v ∈ (placeComment k t).preorder) :
    v = k ∨ v ∈ t.preorder ∨ ∃ u ∈ t.preorder, k.LiesIn u ∧ v = placeComment k u := by
  rcases mem_preorder_iff.1 hv with rfl | ⟨w, hw, hv⟩
  · exact .inr (.inr ⟨t, mem_preorder_self t, hin, rfl⟩)
  rw [children, labelled_placeComment] at hw
  obtain ⟨c, hc, rfl⟩ := List.mem_map.1 hw
  rcases mem_placeAmong hc with rfl | hc | ⟨d, hd, hind, rfl⟩
  · rcases mem_preorder_iff.1 hv with rfl | ⟨x, hx, -⟩
    · exact .inl rfl
    · simp [children, hk] at hx
  · exact .inr (.inl (mem_preorder_iff.2 (.inr ⟨c.2, List.mem_map_of_mem hc, hv⟩)))
  · have hd : d.2 ∈ t.children := List.mem_map_of_mem hd
    have hsize := size_child_lt hd
    rcases mem_preorder_placeComment hk hind hv with rfl | hv | ⟨u, hu, hinu, rfl⟩
    · exact .inl rfl
    · exact .inr (.inl (mem_preorder_iff.2 (.inr ⟨d.2, hd, hv⟩)))
    · exact .inr (.inr ⟨u, mem_preorder_iff.2 (.inr ⟨d.2, hd, hu⟩), hinu, rfl⟩)
termination_by t.size

theorem spans_eq (t : Tree) :
    t.binders.map span = (if t.isBinder then [t.span] else []) ++
      t.children.flatMap fun c => c.binders.map span := by
  rw [binders, preorder_eq, List.filter_cons, List.filter_flatMap]
  split <;> simp [List.map_flatMap, binders]

/-- A comment changes nothing about the nodes in which names are defined. -/
theorem spans_placeComment {k : Tree} (hk : k.binders = []) (t : Tree) :
    (placeComment k t).binders.map span = t.binders.map span := by
  have hbelow (c : Label × Tree) (hc : c ∈ t.labelled) :
      (placeComment k c.2).binders.map span = c.2.binders.map span := by
    have hsize : c.2.size < t.size := size_child_lt (List.mem_map_of_mem hc)
    exact spans_placeComment hk c.2
  have hamong (cs : List (Label × Tree)) (hcs : ∀ c ∈ cs,
      (placeComment k c.2).binders.map span = c.2.binders.map span) :
      ((placeAmong k cs).map (·.2)).flatMap (fun c => c.binders.map span) =
        (cs.map (·.2)).flatMap fun c => c.binders.map span := by
    induction cs with
    | nil => simp [placeAmong, hk]
    | cons c cs ih =>
      obtain ⟨l, u⟩ := c
      have hu : (placeComment k u).binders.map span = u.binders.map span := hcs (l, u) (by simp)
      have hrest := ih fun d hd => hcs d (by simp [hd])
      rw [placeAmong]
      split_ifs
      · simp [hu]
      · simp [hk]
      · simp [hrest]
  have hkind : (placeComment k t).isBinder = t.isBinder := by simp [isBinder]
  have hspan : (placeComment k t).span = t.span := by simp [span]
  rw [spans_eq, spans_eq t, hkind, hspan, children, labelled_placeComment, hamong _ hbelow,
    children]
termination_by t.size

end

variable {root k : Tree} {stop : Nat}

theorem isRegular_placeComment (h : root.IsRegular) (hk : IsRemark stop k) (hin : k.LiesIn root) :
    (placeComment k root).IsRegular := by
  have hkind : k.isBinder = false ∧ k.HasParts := by
    rcases hk.kind_eq with hkind | hkind <;> simp [isBinder, HasParts, hkind]
  refine ⟨fun v hv => ?_, fun v hv => ?_, fun v hv c hc => ?_, ?_⟩
  · rcases mem_preorder_placeComment hk.labelled_eq hin hv with rfl | hv | ⟨u, hu, -, rfl⟩
    · exact hkind.2
    · exact h.hasParts v hv
    · exact hasParts_placeComment (h.hasParts u hu) k
  · rcases mem_preorder_placeComment hk.labelled_eq hin hv with rfl | hv | ⟨u, hu, -, rfl⟩
    · exact hk.start_le
    · exact h.start_le_stop v hv
    · simpa using h.start_le_stop u hu
  · rcases mem_preorder_placeComment hk.labelled_eq hin hv with rfl | hv | ⟨u, hu, hinu, rfl⟩
    · simp [children, hk.labelled_eq] at hc
    · exact h.isNested v hv c hc
    · rw [children, labelled_placeComment] at hc
      obtain ⟨d, hd, rfl⟩ := List.mem_map.1 hc
      have hold (e : Label × Tree) (he : e ∈ u.labelled) : e.2.LiesIn u :=
        h.isNested u hu e.2 (List.mem_map_of_mem he)
      simp only [LiesIn, start_placeComment, stop_placeComment]
      rcases mem_placeAmong hd with rfl | hd | ⟨e, he, -, rfl⟩
      · exact hinu
      · exact hold d hd
      · simpa [LiesIn] using hold e he
  · have hbinders : k.binders = [] := by
      rw [binders, preorder_eq, List.filter_cons, hkind.1, children, hk.labelled_eq]
      rfl
    have hsorted : (root.binders.map span).Pairwise Precedes := List.pairwise_map.2 h.sorted
    rw [← spans_placeComment hbinders] at hsorted
    exact List.pairwise_map.1 hsorted

/-- Comments are put in one after the other. -/
theorem isRegular_foldl_placeComment {ks : List Tree} (h : root.IsRegular) (hstart : root.start = 0)
    (hks : ∀ k ∈ ks, IsRemark root.stop k) :
    (ks.foldl (fun t k => placeComment k t) root).IsRegular := by
  induction ks generalizing root with
  | nil => exact h
  | cons k ks ih =>
    have hk := hks k (by simp)
    have hin : k.LiesIn root := ⟨hstart ▸ Nat.zero_le _, hk.stop_le⟩
    refine ih (isRegular_placeComment h hk hin) (by simpa using hstart) fun j hj => ?_
    simpa using hks j (by simp [hj])

end Tree

/-! ## Scripts -/

/-- Every script has a regular tree. -/
theorem treeOf_isRegular (cs : List Char) : (treeOf cs).IsRegular := by
  rw [treeOf]
  dsimp only
  generalize hc : Cursor.ofChars cs = c
  have hb : c.Reads [] (skipHashbang c).skip := (skip_reads _).after (skipHashbang_reads c)
  have hbtidy := hb.tidy fun k hk => by simp [← hc, Cursor.ofChars] at hk
  generalize (skipHashbang c).skip = b at hb hbtidy ⊢
  have hread := statements_reads (parse_areOrderly (16 * (cs.length + 2))) (16 * (cs.length + 2))
    { b with comments := [] }
  have hdtidy := hread.tidy fun k hk => by simp at hk
  generalize statements (parse (16 * (cs.length + 2))) (16 * (cs.length + 2))
    { b with comments := [] } = r at hread hdtidy ⊢
  obtain ⟨ts, d⟩ := r
  have hlaid : (c.node d .other (plain ts)).IsLaidOut :=
    ⟨Nat.le_trans hb.le hread.le, trivial, hb.laidOut.append hread.laidOut⟩
  refine Tree.isRegular_foldl_placeComment hlaid.isRegular (by rw [← hc]; rfl) fun k hk => ?_
  rcases List.mem_append.1 hk with hk | hk
  · exact (hbtidy k (List.mem_reverse.1 hk)).mono hread.le
  · exact hdtidy k (List.mem_reverse.1 hk)

end AgentFlow.Script
