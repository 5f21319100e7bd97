import AgentFlow.Proofs.Script.Layout.Script
import AgentFlow.Proofs.Script.Naming

/-!
# The earliest binding of a name

A name is bound by a variable with a value, by a member of an object literal and by an export of
the name. The search asks the nodes of a script in document order, and an object literal for all of
its own members at once, so it finds the binding whose node is asked first. That is the binding that
starts first, unless an earlier one lies in the literal of the one that is found: behind one of its
earlier members.

* `Tree.bindings`: everything that binds a name.
* `Binding.IsCovered`: exports whose name does not stand last.
* `ownDefinition?_spec`, `ownDefinition?_eq_none_iff`: what a node finds among its own bindings.
* `definition_of_first_home`: what is found in a whole tree.
-/

namespace AgentFlow.Script

/-- Something that binds a name: the node that is asked for it, the declaration, member or export
itself, and the name with its value. -/
structure Binding where
  home : Tree
  node : Tree
  name : Name
  value : Tree

namespace Tree

/-- What a member of an object literal binds. -/
def memberBindings (home m : Tree) : List Binding :=
  match m.child? .key, m.child? .value with
  | some key, some value =>
    if m.kind = .pair ∧ key.kind = .propertyName then [⟨home, m, key.text, value⟩] else []
  | _, _ => []

/-- The names that an export hands out: its value if that is a name, or the names behind an equals
sign. -/
def exportedNames (t : Tree) : List Tree :=
  match t.child? .value with
  | some value => [value].filter (·.kind == .identifier)
  | none =>
    if t.children.any (·.kind == .equals) then t.children.filter (·.kind == .identifier) else []

/-- What a node itself binds. -/
def ownBindings (t : Tree) : List Binding :=
  match t.kind with
  | .declarator =>
    match t.child? .name, t.child? .value with
    | some name, some value => if name.kind = .identifier then [⟨t, t, name.text, value⟩] else []
    | _, _ => []
  | .object => t.namedChildren.flatMap t.memberBindings
  | .exportStatement => t.exportedNames.map fun name => ⟨t, t, name.text, name⟩
  | _ => []

/-- Everything that binds a name in a tree. -/
def bindings (root : Tree) : List Binding := root.preorder.flatMap ownBindings

end Tree

namespace Binding

/-- Whether a binding is an export in which something else, such as a comment, stands behind the
name. -/
def IsCovered (b : Binding) : Prop :=
  b.home.kind = .exportStatement ∧ b.home.exported? ≠ some b.value

/-- Whether a binding is one of a name that can be found. -/
def Defines (b : Binding) (name : Name) : Prop := b.name = name ∧ ¬ b.IsCovered

end Binding

namespace Tree

variable {t d : Tree} {name : Name} {b : Binding}

/-! ## The bindings of a node -/

theorem mem_memberBindings {home m : Tree} (h : b ∈ home.memberBindings m) :
    b.home = home ∧ b.node = m ∧ m.kind = .pair := by
  rw [memberBindings] at h
  split at h
  · split at h
    next hkinds =>
      obtain rfl := List.mem_singleton.1 h
      exact ⟨rfl, rfl, hkinds.1⟩
    next => cases h
  · cases h

/-- What binds a name in a node is a variable, an export, or a member of an object literal. -/
theorem ownBindings_cases (h : b ∈ t.ownBindings) :
    b.home = t ∧ ((t.kind = .declarator ∨ t.kind = .exportStatement) ∧ b.node = t ∨
      t.kind = .object ∧ b.node ∈ t.children ∧ b.node.kind = .pair) := by
  rw [ownBindings] at h
  split at h
  next hkind =>
    split at h
    · split at h
      · obtain rfl := List.mem_singleton.1 h
        exact ⟨rfl, .inl ⟨.inl hkind, rfl⟩⟩
      · cases h
    · cases h
  next hkind =>
    obtain ⟨m, hm, hb⟩ := List.mem_flatMap.1 h
    obtain ⟨hhome, rfl, hpair⟩ := mem_memberBindings hb
    exact ⟨hhome, .inr ⟨hkind, List.mem_of_mem_filter hm, hpair⟩⟩
  next hkind =>
    obtain ⟨n, hn, rfl⟩ := List.mem_map.1 h
    exact ⟨rfl, .inl ⟨.inr hkind, rfl⟩⟩
  next => cases h

theorem isBinder_of_mem_ownBindings (h : b ∈ t.ownBindings) : t.isBinder := by
  obtain ⟨-, ⟨hkind | hkind, -⟩ | ⟨hkind, -⟩⟩ := ownBindings_cases h <;> simp [isBinder, hkind]

/-! ## What a node finds -/

/-- The members of an object literal are looked through for the first binding of the name. -/
theorem memberValue?_eq {ms : List Tree} (hparts : ∀ m ∈ ms, m.HasParts) (home : Tree) :
    memberValue? name ms
      = ((ms.flatMap home.memberBindings).find? (·.name == name)).map (·.value) := by
  induction ms with
  | nil => rfl
  | cons m ms ih =>
    have ih := ih fun m' hm' => hparts m' (by simp [hm'])
    have hm := hparts m (by simp)
    rw [memberValue?, List.flatMap_cons, List.find?_append, ih]
    by_cases hpair : m.kind = .pair
    · obtain ⟨hkey, hvalue⟩ : (m.child? .key).isSome ∧ (m.child? .value).isSome := by
        simpa [HasParts, hpair] using hm
      obtain ⟨key, hkey⟩ := Option.isSome_iff_exists.1 hkey
      obtain ⟨value, hvalue⟩ := Option.isSome_iff_exists.1 hvalue
      by_cases hname : key.kind = .propertyName ∧ key.text = name
      · simp [memberBindings, hpair, hkey, hvalue, hname]
      · by_cases hkind : key.kind = .propertyName
        · have hne : key.text ≠ name := fun h => hname ⟨hkind, h⟩
          simp [memberBindings, hpair, hkey, hvalue, hkind, hne]
        · simp [memberBindings, hpair, hkey, hvalue, hkind]
    · have hnone : home.memberBindings m = [] :=
        List.eq_nil_iff_forall_not_mem.2 fun b hb => hpair (mem_memberBindings hb).2.2
      simp [hpair, hnone]

/-- The members of an object literal bind names in the order in which they start. -/
theorem pairwise_memberBindings {ms : List Tree} (hsorted : AreSorted (ms.filter isBinder))
    (home : Tree) :
    (ms.flatMap home.memberBindings).Pairwise fun b b' => b.node.start ≤ b'.node.start := by
  induction ms with
  | nil => exact .nil
  | cons m ms ih =>
    have hrest : AreSorted (ms.filter isBinder) :=
      hsorted.sublist ((List.sublist_cons_self m ms).filter _)
    rw [List.flatMap_cons]
    refine List.pairwise_append.2 ⟨?_, ih hrest, fun b hb b' hb' => ?_⟩
    · rw [memberBindings]
      split
      · split
        · exact List.pairwise_singleton _ _
        · exact .nil
      · exact .nil
    · obtain ⟨-, rfl, hpair⟩ := mem_memberBindings hb
      obtain ⟨m', hm', hb'⟩ := List.mem_flatMap.1 hb'
      obtain ⟨-, rfl, hpair'⟩ := mem_memberBindings hb'
      rw [AreSorted, List.filter_cons_of_pos (by simp [isBinder, hpair])] at hsorted
      exact ((List.pairwise_cons.1 hsorted).1 b'.node
        (List.mem_filter.2 ⟨hm', by simp [isBinder, hpair']⟩)).1

/-- What an export exports is a name only if it is one of its names. -/
theorem mem_exportedNames (h : t.exported? = some d) (hkind : d.kind = .identifier) :
    d ∈ t.exportedNames := by
  rw [exported?] at h
  rw [exportedNames]
  cases hv : t.child? .value with
  | some v =>
    rw [hv] at h
    obtain rfl := Option.some.inj h
    simp [hkind]
  | none =>
    simp only [hv] at h ⊢
    split at h
    next hequals =>
      rw [if_pos hequals]
      exact List.mem_filter.2
        ⟨List.mem_of_mem_filter (List.mem_of_getLast? h), by simp [hkind]⟩
    next => cases h

theorem kind_of_mem_exportedNames (h : d ∈ t.exportedNames) : d.kind = .identifier := by
  rw [exportedNames] at h
  split at h
  · simpa using (List.mem_filter.1 h).2
  · split at h
    · simpa using (List.mem_filter.1 h).2
    · cases h

theorem defines_of_not_export (hkind : t.kind ≠ .exportStatement) (hb : b ∈ t.ownBindings)
    (hname : b.name = name) : b.Defines name := by
  refine ⟨hname, fun hcovered => hkind ?_⟩
  rw [← (ownBindings_cases hb).1]
  exact hcovered.1

theorem isNameOf_iff : isNameOf name t = true ↔ t.kind = .identifier ∧ t.text = name := by
  simp [isNameOf]

/-- What an object literal finds is the value of the first of its own members with the name. -/
theorem memberValue?_spec (hkind : t.kind = .object) (hparts : ∀ m ∈ t.children, m.HasParts)
    (hsorted : AreSorted (t.children.filter isBinder))
    (h : memberValue? name t.namedChildren = some d) :
    ∃ b ∈ t.ownBindings, b.name = name ∧ b.value = d ∧
      ∀ b' ∈ t.ownBindings, b'.name = name → b.node.start ≤ b'.node.start := by
  have hown : t.ownBindings = t.namedChildren.flatMap t.memberBindings := by
    rw [ownBindings, hkind]
  have hsorted : AreSorted (t.namedChildren.filter isBinder) :=
    hsorted.sublist (List.filter_sublist.filter _)
  have hpairwise := pairwise_memberBindings hsorted t
  have hparts (m : Tree) (hm : m ∈ t.namedChildren) : m.HasParts :=
    hparts m (List.mem_of_mem_filter hm)
  rw [memberValue?_eq hparts t, ← hown] at h
  rw [← hown] at hpairwise
  obtain ⟨b, hb, rfl⟩ := Option.map_eq_some_iff.1 h
  obtain ⟨hname, before, behind, heq, hbefore⟩ := List.find?_eq_some_iff_append.1 hb
  refine ⟨b, List.mem_of_find?_eq_some hb, by simpa using hname, rfl, fun b' hb' hname' => ?_⟩
  rw [heq] at hb' hpairwise
  rcases List.mem_append.1 hb' with hmem | hmem
  · simpa [hname'] using hbefore b' hmem
  · rcases List.mem_cons.1 hmem with rfl | hmem
    · exact Nat.le_refl _
    · exact (List.pairwise_cons.1 (List.pairwise_append.1 hpairwise).2.1).1 b' hmem

/-- What is found in a node is the value of a binding of the name, and of those the first. -/
theorem ownDefinition?_spec (hparts : ∀ m ∈ t.children, m.HasParts)
    (hsorted : AreSorted (t.children.filter isBinder)) (h : ownDefinition? name t = some d) :
    ∃ b ∈ t.ownBindings, b.Defines name ∧ b.value = d ∧
      ∀ b' ∈ t.ownBindings, b'.Defines name → b.node.start ≤ b'.node.start := by
  have halone (hkind : t.kind ≠ .object) (b' : Binding) (hb' : b' ∈ t.ownBindings) :
      t.start ≤ b'.node.start := by
    obtain ⟨-, ⟨-, hnode⟩ | ⟨hobject, -⟩⟩ := ownBindings_cases hb'
    · rw [hnode]
    · exact absurd hobject hkind
  rw [ownDefinition?] at h
  split at h
  next hkind =>
    split at h
    next v hv =>
      split at h
      next hany =>
        obtain rfl := Option.some.inj h
        obtain ⟨n, hn, hidentifier, rfl⟩ :
            ∃ n, t.child? .name = some n ∧ n.kind = .identifier ∧ n.text = name := by
          cases hn : t.child? .name with
          | none => simp [hn] at hany
          | some n => exact ⟨n, rfl, isNameOf_iff.1 (by simpa [hn] using hany)⟩
        have hmem : ⟨t, t, n.text, v⟩ ∈ t.ownBindings := by
          simp [ownBindings, hkind, hn, hv, hidentifier]
        exact ⟨_, hmem, defines_of_not_export (by simp [hkind]) hmem rfl, rfl,
          fun b' hb' _ => halone (by simp [hkind]) b' hb'⟩
      next => cases h
    next => cases h
  next hkind =>
    obtain ⟨b, hb, hname, hvalue, hfirst⟩ := memberValue?_spec hkind hparts hsorted h
    exact ⟨b, hb, defines_of_not_export (by simp [hkind]) hb hname, hvalue,
      fun b' hb' hname' => hfirst b' hb' hname'.1⟩
  next hkind =>
    obtain ⟨hexported, hname⟩ := Option.filter_eq_some_iff.1 h
    obtain ⟨hidentifier, rfl⟩ := isNameOf_iff.1 hname
    have hmem : ⟨t, t, d.text, d⟩ ∈ t.ownBindings := by
      rw [ownBindings, hkind]
      exact List.mem_map.2 ⟨d, mem_exportedNames hexported hidentifier, rfl⟩
    exact ⟨_, hmem, ⟨rfl, fun hcovered => hcovered.2 hexported⟩, rfl,
      fun b' hb' _ => halone (by simp [hkind]) b' hb'⟩
  next => cases h

/-- A node in which the name is bound finds something. -/
theorem ownDefinition?_isSome (hparts : ∀ m ∈ t.children, m.HasParts) (hb : b ∈ t.ownBindings)
    (hname : b.Defines name) : (ownDefinition? name t).isSome := by
  obtain ⟨rfl, hcovered⟩ := hname
  rw [ownBindings] at hb
  split at hb
  next hkind =>
    split at hb
    next n v hn hv =>
      split at hb
      next hidentifier =>
        obtain rfl := List.mem_singleton.1 hb
        simp [ownDefinition?, hkind, hn, hv, isNameOf, hidentifier]
      next => cases hb
    next => cases hb
  next hkind =>
    have hparts (m : Tree) (hm : m ∈ t.namedChildren) : m.HasParts :=
      hparts m (List.mem_of_mem_filter hm)
    rw [ownDefinition?, hkind]
    dsimp only
    rw [memberValue?_eq hparts t, Option.isSome_map, List.find?_isSome]
    exact ⟨b, hb, by simp⟩
  next hkind =>
    obtain ⟨n, hn, rfl⟩ := List.mem_map.1 hb
    have hexported : t.exported? = some n := by
      by_contra hother
      exact hcovered ⟨hkind, hother⟩
    have hidentifier := kind_of_mem_exportedNames hn
    simp [ownDefinition?, hkind, hexported, isNameOf, hidentifier]
  next => cases hb

/-! ## What a script finds -/

variable {root : Tree}

theorem IsRegular.hasParts_children (h : root.IsRegular) (ht : t ∈ root.preorder) :
    ∀ m ∈ t.children, m.HasParts := fun m hm =>
  h.hasParts m (mem_preorder_of_mem_children ht hm)

theorem IsRegular.sorted_children (h : root.IsRegular) (ht : t ∈ root.preorder) :
    AreSorted (t.children.filter isBinder) :=
  h.sorted.sublist (((children_sublist_preorder t).trans (preorder_sublist ht)).filter isBinder)

/-- A binding lies in its home. -/
theorem IsRegular.node_liesIn (h : root.IsRegular) (ht : t ∈ root.preorder)
    (hb : b ∈ t.ownBindings) : b.node.LiesIn t ∧ b.node.start ≤ b.node.stop := by
  obtain ⟨-, ⟨-, hnode⟩ | ⟨-, hmem, -⟩⟩ := ownBindings_cases hb
  · rw [hnode]
    exact ⟨.refl t, h.start_le_stop t ht⟩
  · exact ⟨h.isNested t ht _ hmem, h.start_le_stop _ (mem_preorder_of_mem_children ht hmem)⟩

theorem mem_bindings_iff : b ∈ root.bindings ↔ ∃ t ∈ root.preorder, b ∈ t.ownBindings :=
  List.mem_flatMap

theorem IsRegular.definition?_spec (h : root.IsRegular) (hd : root.definition? name = some d) :
    ∃ b ∈ root.bindings, b.Defines name ∧ b.value = d ∧
      ∀ b' ∈ root.bindings, b'.Defines name → b.home.start ≤ b'.home.start ∧
        (b.node.start ≤ b'.node.start ∨ b.home.kind = .object ∧ b'.home.LiesIn b.home) := by
  rw [definition?_eq, List.findSome?_eq_some_iff] at hd
  obtain ⟨before, t, behind, heq, hown, hbefore⟩ := hd
  have ht : t ∈ root.preorder := by rw [heq]; simp
  obtain ⟨b, hb, hname, hvalue, hfirst⟩ :=
    ownDefinition?_spec (h.hasParts_children ht) (h.sorted_children ht) hown
  refine ⟨b, mem_bindings_iff.2 ⟨t, ht, hb⟩, hname, hvalue, fun b' hmem hname' => ?_⟩
  obtain ⟨u, hu, hb'⟩ := mem_bindings_iff.1 hmem
  obtain ⟨hhome, hcases⟩ := ownBindings_cases hb
  rw [hhome, (ownBindings_cases hb').1]
  have hsome := ownDefinition?_isSome (h.hasParts_children hu) hb' hname'
  have hu' := heq ▸ hu
  rcases List.mem_append.1 hu' with hmem | hmem
  · simp [hbefore u hmem] at hsome
  rcases List.mem_cons.1 hmem with rfl | hmem
  · exact ⟨Nat.le_refl _, .inl (hfirst b' hb' hname')⟩
  · have hprecedes : Precedes t.span u.span := by
      have hsorted := h.sorted
      rw [binders, heq, List.filter_append,
        List.filter_cons_of_pos (isBinder_of_mem_ownBindings hb)] at hsorted
      have hbehind := (List.pairwise_append.1 hsorted).2.1
      exact (List.pairwise_cons.1 hbehind).1 u
        (List.mem_filter.2 ⟨hmem, isBinder_of_mem_ownBindings hb'⟩)
    refine ⟨hprecedes.1, ?_⟩
    obtain ⟨hin, hordered⟩ := h.node_liesIn ht hb
    obtain ⟨hin', -⟩ := h.node_liesIn hu hb'
    have hstart' : u.start ≤ b'.node.start := hin'.1
    have hstop : b.node.stop ≤ t.stop := hin.2
    have hstart : t.start ≤ u.start := hprecedes.1
    rcases hcases with ⟨-, hnode⟩ | ⟨hobject, -, -⟩
    · rw [hnode]
      exact .inl (Nat.le_trans hstart hstart')
    rcases hprecedes.2 with hends | hends
    · have hends : t.stop ≤ u.start := hends
      exact .inl (by omega)
    · exact .inr ⟨hobject, hstart, hends⟩

theorem IsRegular.definition?_eq_none_iff (h : root.IsRegular) :
    root.definition? name = none ↔ ∀ b ∈ root.bindings, ¬ b.Defines name := by
  constructor
  · intro hnone b hb hname
    obtain ⟨t, ht, hb⟩ := mem_bindings_iff.1 hb
    rw [definition?_eq, List.findSome?_eq_none_iff] at hnone
    have hsome := ownDefinition?_isSome (h.hasParts_children ht) hb hname
    rw [hnone t ht] at hsome
    cases hsome
  · intro hall
    cases hd : root.definition? name with
    | none => rfl
    | some d =>
      obtain ⟨b, hb, hname, -⟩ := h.definition?_spec hd
      exact absurd hname (hall b hb)

end Tree

/-- **The binding whose home starts first is found.** In every regular tree, such as that of every
script, and for every name, what is found is the value of a binding of the name. No other binding of
the name has its home in front of the home of that one, and none starts earlier unless it lies in
the object literal of which that one is a member. Nothing is found only if the name is bound
nowhere, but for exports in which something else stands behind the name. -/
theorem definition_of_first_home {root : Tree} (h : root.IsRegular) (name : Name) :
    (∀ d, root.definition? name = some d →
      ∃ b ∈ root.bindings, b.Defines name ∧ b.value = d ∧
        ∀ b' ∈ root.bindings, b'.Defines name → b.home.start ≤ b'.home.start ∧
          (b.node.start ≤ b'.node.start ∨ b.home.kind = .object ∧ b'.home.LiesIn b.home)) ∧
      (root.definition? name = none ↔ ∀ b ∈ root.bindings, ¬ b.Defines name) :=
  ⟨fun _ hd => h.definition?_spec hd, h.definition?_eq_none_iff⟩

/-- A comment behind the name that is exported hides it. -/
example : Tree.ownDefinition? ['x'] (.node .exportStatement 0 18 []
    [(.plain, leafAt .equals 7 ['=']), (.plain, leafAt .identifier 9 ['x']),
      (.plain, leafAt .comment 11 [])]) = none := rfl

/-- A member whose value binds a name, in front of a member of that name. -/
def memberBehindMember : Tree :=
  .node .other 0 28 "const o = \x7ba: \x7bx: 1\x7d, x: 2\x7d;".toList [
    (.plain, .node .other 0 27 "const o = \x7ba: \x7bx: 1\x7d, x: 2\x7d".toList [
      (.plain, .node .declarator 6 27 "o = \x7ba: \x7bx: 1\x7d, x: 2\x7d".toList [
        (.name, leafAt .identifier 6 ['o']),
        (.value, .node .object 10 27 "\x7ba: \x7bx: 1\x7d, x: 2\x7d".toList [
          (.plain, pairOf (leafAt .propertyName 11 ['a'])
            (.node .object 14 20 "\x7bx: 1\x7d".toList [(.plain,
              pairOf (leafAt .propertyName 15 ['x']) (leafAt .number 18 ['1']))])),
          (.plain, pairOf (leafAt .propertyName 22 ['x']) (leafAt .number 25 ['2']))])])])]

theorem treeOf_memberBehindMember :
    treeOf "const o = \x7ba: \x7bx: 1\x7d, x: 2\x7d;".toList = memberBehindMember := (rfl)

theorem definition?_memberBehindMember :
    memberBehindMember.definition? ['x'] = some (leafAt .number 25 ['2']) := by
  rw [Tree.definition?_eq]
  rfl

/-- The home of the member that is found starts in front of that of the other binding of its name,
which lies in it. -/
theorem memberBehindMember_first_home :
    memberBehindMember.IsRegular ∧
      ∃ b ∈ memberBehindMember.bindings, b.Defines ['x'] ∧ b.value = leafAt .number 25 ['2'] ∧
        ∀ b' ∈ memberBehindMember.bindings, b'.Defines ['x'] → b.home.start ≤ b'.home.start ∧
          (b.node.start ≤ b'.node.start ∨ b.home.kind = .object ∧ b'.home.LiesIn b.home) := by
  have hregular : memberBehindMember.IsRegular := treeOf_memberBehindMember ▸ treeOf_isRegular _
  exact ⟨hregular,
    (definition_of_first_home hregular ['x']).1 _ definition?_memberBehindMember⟩

/-- The member is found, though the binding in the value in front of it starts earlier. -/
theorem memberBehindMember_found_first :
    treeOf "const o = \x7ba: \x7bx: 1\x7d, x: 2\x7d;".toList = memberBehindMember ∧
      memberBehindMember.definition? ['x'] = some (leafAt .number 25 ['2']) ∧
      ¬ ∃ b ∈ memberBehindMember.bindings, b.name = ['x'] ∧ b.value = leafAt .number 25 ['2'] ∧
        ∀ b' ∈ memberBehindMember.bindings, b'.name = ['x'] → b.node.start ≤ b'.node.start := by
  refine ⟨treeOf_memberBehindMember, definition?_memberBehindMember, ?_⟩
  rintro ⟨b, hb, hname, hvalue, hfirst⟩
  -- the places of the bindings and of their values
  have hplaces : memberBehindMember.bindings.map (fun b => (b.name, b.node.start, b.value.start)) =
      [(['o'], 6, 10), (['a'], 11, 14), (['x'], 22, 25), (['x'], 15, 18)] := rfl
  have hfound : b.node.start = 22 := by
    have hmem := List.mem_map_of_mem (f := fun b => (b.name, b.node.start, b.value.start)) hb
    have hstart : b.value.start = 25 := congrArg Tree.start hvalue
    rw [hplaces, hname, hstart] at hmem
    simpa using hmem
  obtain ⟨b', hb', hplace⟩ : ∃ b' ∈ memberBehindMember.bindings,
      (b'.name, b'.node.start, b'.value.start) = (['x'], 15, 18) :=
    List.mem_map.1 (hplaces ▸ by simp)
  obtain ⟨hname', hstart', -⟩ : b'.name = ['x'] ∧ b'.node.start = 15 ∧ b'.value.start = 18 := by
    simpa using hplace
  have hearlier := hfirst b' hb' hname'
  omega

end AgentFlow.Script
