import AgentFlow.Proofs.Script.Escape
import AgentFlow.Proofs.Script.Layout.Script
import AgentFlow.Proofs.Script.Termination
import Mathlib.Logic.Relation

/-!
# Where conversion fails

A call reads string literals of its own, and makes further calls. It fails just if one of either
does, so the conversion of a node fails just if it comes to a string literal that cannot be read. In
the tree of a script that is one with an escape sequence for a number that no code point has;
nothing else in a script makes conversion fail.

* `fails_stringValue_iff`: which string literals cannot be read.
* `Plan.FailsJust`: a plan fails just for reasons of its own, or where a call of it does.
* `fails_answer_iff`: a call fails just if a call that it leads to has a string literal that cannot
  be read.
* `fails_convert_iff`: where the conversion of a node of a script fails.
-/

namespace AgentFlow.Script

/-! ## String literals -/

/-- Whether a node is a string literal with an escape sequence for a number that no code point
has. -/
structure Tree.IsUnreadable (t : Tree) : Prop where
  kind_eq : t.kind = .string
  exists_escape : ∃ u ∈ t.children, u.kind = .escape ∧ NamesNoCodePoint u.text

/-- The parts of a string literal stand for something, unless an escape sequence does not. -/
theorem fails_stringParts?_iff {ts : List Tree} :
    Fails (stringParts? ts) ↔
      ∃ u ∈ ts, u.kind = .escape ∧ Fails (decodeEscape (Text.ofChars u.text)) := by
  induction ts with
  | nil => simp [stringParts?]
  | cons t ts ih =>
    simp only [stringParts?, List.exists_mem_cons_iff, ← ih]
    cases hkind : t.kind <;> simp
    case escape => cases decodeEscape (Text.ofChars t.text) <;> simp

theorem fails_stringValue_iff {t : Tree} (h : ∀ u ∈ t.children, u.HasParts) :
    Fails (stringValue t) ↔ ∃ u ∈ t.children, u.kind = .escape ∧ NamesNoCodePoint u.text := by
  simp only [stringValue, fails_bind_iff, fails_stringParts?_iff, fails_ok, and_false, exists_false,
    or_false]
  refine exists_congr fun u => and_congr_right fun hu => and_congr_right fun hkind => ?_
  have hparts := h u hu
  rw [Tree.HasParts, hkind] at hparts
  exact fails_decodeEscape_iff hparts

/-! ## Calls -/

/-- The name of a member, if it is read. -/
def Tree.memberName? (m : Tree) : Option Tree :=
  match m.kind with
  | .pair => if (m.child? .value).isSome then m.child? .key else none
  | .method => m.child? .name
  | _ => none

/-- The string literals that a call reads itself. -/
def Call.literals : Call → List Tree
  | ⟨_, .node t⟩ => [t].filter (·.kind == .string)
  | ⟨_, .member m⟩ => m.memberName?.toList.filter (·.kind == .string)
  | _ => []

/-- Whether a plan fails just for a reason of its own, or if a call that it makes fails. -/
def Plan.FailsJust {α : Type} (answers : Answers) (own : Prop) (x : Plan α) : Prop :=
  Fails (x.eval answers) ↔ own ∨ ∃ c, x.Makes answers c ∧ Fails (answers c)

namespace Plan

variable {α β : Type} {answers : Answers} {own own' : Prop}

theorem failsJust_done (r : Except EscapeError α) : (done r).FailsJust answers (Fails r) := by
  simp [FailsJust]

theorem failsJust_pure (a : α) : (pure a : Plan α).FailsJust answers False := by
  simp [FailsJust]

theorem failsJust_ask (c : Call) : (ask c).FailsJust answers False := by
  simp [FailsJust]

theorem FailsJust.congr {x : Plan α} (h : x.FailsJust answers own) (hown : own' ↔ own) :
    x.FailsJust answers own' := by
  rw [FailsJust, hown]
  exact h

/-- The reasons of a plan that goes on with the result of another are the reasons of both. -/
theorem FailsJust.bind {x : Plan α} {f : α → Plan β} (hx : x.FailsJust answers own)
    (hf : ∀ a, (f a).FailsJust answers own') : (x >>= f).FailsJust answers (own ∨ own') := by
  rw [FailsJust] at hx
  simp only [FailsJust, eval_bind, fails_bind_iff, makes_bind, or_and_right, exists_or]
  cases hr : x.eval answers with
  | error e =>
    rw [hr, fails_error, true_iff] at hx
    simp only [fails_error, true_or, true_iff]
    exact hx.elim (fun h => .inl (.inl h)) fun h => .inr (.inl h)
  | ok a =>
    rw [hr, fails_ok, false_iff, not_or] at hx
    have ha := hf a
    rw [FailsJust] at ha
    simp [ha, hx.1, hx.2]

/-- A plan that works on the result of another has its reasons. -/
theorem FailsJust.map {x : Plan α} (hx : x.FailsJust answers own) (f : α → β) :
    (x >>= fun a => pure (f a)).FailsJust answers own :=
  (hx.bind fun a => failsJust_pure (f a)).congr (iff_of_eq (or_false own).symm)

end Plan

section

variable (answers : Answers) (guard : Guard) (root : Tree) (active : List Name)

theorem fails_leafValue_iff {t : Tree} :
    Fails (leafValue t) ↔ t.kind = .string ∧ Fails (stringValue t) := by
  unfold leafValue
  cases t.kind <;> simp

theorem fails_propertyName_iff {key : Tree} :
    Fails (propertyName key) ↔ key.kind = .string ∧ Fails (stringValue key) := by
  unfold propertyName
  split <;> simp_all

theorem failsJust_node (t : Tree) :
    (planNode active t).FailsJust answers (t.kind = .string ∧ Fails (stringValue t)) := by
  unfold planNode
  split
  case h_1 hkind => exact ((Plan.failsJust_ask _).map _).congr (by simp [hkind])
  case h_2 hkind => exact ((Plan.failsJust_ask _).map _).congr (by simp [hkind])
  case h_3 hkind => exact (Plan.failsJust_ask _).congr (by simp [hkind])
  case h_4 => exact (Plan.failsJust_done _).congr fails_leafValue_iff.symm

theorem failsJust_reference (name : Name) :
    (planReference guard root active name).FailsJust answers False := by
  unfold planReference
  split
  · exact Plan.failsJust_pure _
  · split
    · exact Plan.failsJust_pure _
    · exact Plan.failsJust_ask _

theorem failsJust_members (ms : List (Label × Tree)) :
    (planMembers active ms).FailsJust answers False := by
  cases ms with
  | nil => exact Plan.failsJust_pure _
  | cons m ms =>
    exact ((Plan.failsJust_ask _).bind fun _ => (Plan.failsJust_ask _).map _).congr (by simp)

theorem failsJust_spread (target : Tree) :
    (planSpread guard root active target).FailsJust answers False := by
  unfold planSpread
  repeat' split
  all_goals first
    | exact Plan.failsJust_pure _
    | exact (Plan.failsJust_ask _).map _

theorem failsJust_items (ts : List (Label × Tree)) :
    (planItems active ts).FailsJust answers False := by
  cases ts with
  | nil => exact Plan.failsJust_pure _
  | cons t ts =>
    simp only [planItems]
    split
    · exact Plan.failsJust_ask _
    · exact ((Plan.failsJust_ask _).bind fun _ => (Plan.failsJust_ask _).map _).congr (by simp)

theorem failsJust_member (m : Tree) :
    (planMember active m).FailsJust answers
      (∃ t ∈ m.memberName?.toList, t.kind = .string ∧ Fails (stringValue t)) := by
  unfold planMember Tree.memberName?
  cases m.kind
  case pair =>
    cases hkey : m.child? .key <;> cases hv : m.child? .value
    case some.some key v =>
      have hname : Fails (propertyName key) ∨ False ↔
          ∃ t ∈ [key], t.kind = .string ∧ Fails (stringValue t) := by
        simp [fails_propertyName_iff]
      by_cases hfunction : v.kind = .function
      · simp only [hfunction, if_true]
        exact ((Plan.failsJust_done _).bind fun k => (Plan.failsJust_pure _).map _).congr hname.symm
      · simp only [hfunction, if_false]
        exact ((Plan.failsJust_done _).bind fun k => (Plan.failsJust_ask _).map _).congr hname.symm
    all_goals exact (Plan.failsJust_pure _).congr (by simp)
  case shorthand => exact ((Plan.failsJust_ask _).map _).congr (by simp)
  case spread =>
    cases m.namedChildren.head? with
    | none => exact (Plan.failsJust_pure _).congr (by simp)
    | some target => exact (Plan.failsJust_ask _).congr (by simp)
  case method =>
    cases m.child? .name with
    | none => exact (Plan.failsJust_pure _).congr (by simp)
    | some name =>
      exact ((Plan.failsJust_done _).map _).congr (by simp [fails_propertyName_iff])
  all_goals exact (Plan.failsJust_pure _).congr (by simp)

/-- What a call fails for itself are string literals of its own that cannot be read. -/
theorem failsJust_plan (c : Call) :
    (plan guard root c).FailsJust answers (∃ t ∈ c.literals, Fails (stringValue t)) := by
  obtain ⟨active, task⟩ := c
  cases task with
  | node t => exact (failsJust_node answers active t).congr (by simp [Call.literals])
  | reference name =>
    exact (failsJust_reference answers guard root active name).congr (by simp [Call.literals])
  | members ms => exact (failsJust_members answers active ms).congr (by simp [Call.literals])
  | member m =>
    exact (failsJust_member answers active m).congr (by simp [Call.literals, and_assoc])
  | spread target =>
    exact (failsJust_spread answers guard root active target).congr (by simp [Call.literals])
  | items ts => exact (failsJust_items answers active ts).congr (by simp [Call.literals])

end

/-- **A call fails just if it leads to a call with a string literal that cannot be read.** -/
theorem fails_answer_iff {root : Tree} {c : Call} :
    Fails (answer root c) ↔
      ∃ c', Relation.ReflTransGen (Nested root) c c' ∧
        ∃ t ∈ c'.literals, Fails (stringValue t) := by
  induction c using (wellFounded_nested root).induction with
  | _ c ih =>
    have hplan := failsJust_plan (answer root) .cyclic root c
    rw [Plan.FailsJust, eval_plan] at hplan
    rw [hplan]
    constructor
    · rintro (hown | ⟨c₁, hc₁, hfails⟩)
      · exact ⟨c, .refl, hown⟩
      · obtain ⟨c', hreach, hliteral⟩ := (ih c₁ hc₁).1 hfails
        exact ⟨c', .head hc₁ hreach, hliteral⟩
    · rintro ⟨c', hreach, hliteral⟩
      rcases hreach.cases_head with rfl | ⟨c₁, hc₁, hreach⟩
      · exact .inl hliteral
      · exact .inr ⟨c₁, hc₁, (ih c₁ hc₁).2 ⟨c', hreach, hliteral⟩⟩

/-! ## Nodes that calls work on -/

/-- Whether what a task works on are nodes of a tree. -/
def Task.IsWithin (root : Tree) : Task → Prop
  | .node t => t ∈ root.preorder
  | .members ms => ∀ m ∈ ms, m.2 ∈ root.preorder
  | .member m => m ∈ root.preorder
  | .items ts => ∀ t ∈ ts, t.2 ∈ root.preorder
  | .reference _ => True
  | .spread _ => True

namespace Plan

/-- Whether a plan makes only calls with a property, whatever they are answered. -/
def Asks {α : Type} (p : Call → Prop) : Plan α → Prop
  | done _ => True
  | call c next => p c ∧ ∀ r, Asks p (next r)

variable {α β : Type} {p : Call → Prop}

@[simp] theorem asks_done (r : Except EscapeError α) : (done r).Asks p ↔ True := Iff.rfl

@[simp] theorem asks_pure (a : α) : (pure a : Plan α).Asks p ↔ True := Iff.rfl

@[simp] theorem asks_call (c : Call) (next : Except EscapeError c.Result → Plan α) :
    (call c next).Asks p ↔ p c ∧ ∀ r, (next r).Asks p := Iff.rfl

theorem Asks.bind {x : Plan α} {f : α → Plan β} (hx : x.Asks p) (hf : ∀ a, (f a).Asks p) :
    (x >>= f).Asks p := by
  show (x.bind f).Asks p
  induction x with
  | done r => cases r <;> simp [Plan.bind, hf]
  | call c next ih => exact ⟨hx.1, fun r => ih r (hx.2 r)⟩

theorem Asks.of_makes {answers : Answers} {x : Plan α} (hx : x.Asks p) {c : Call}
    (hc : x.Makes answers c) : p c := by
  induction x with
  | done r => exact hc.elim
  | call c' next ih =>
    rcases hc with rfl | hc
    · exact hx.1
    · exact ih _ (hx.2 _) hc

end Plan

namespace Tree

theorem mem_children_of_child? {t c : Tree} {l : Label} (h : t.child? l = some c) :
    c ∈ t.children := by
  obtain ⟨d, hd, rfl⟩ := Option.map_eq_some_iff.1 h
  exact List.mem_map_of_mem (List.mem_of_find?_eq_some hd)

theorem mem_of_memberValue? {name : Name} {ms : List Tree} {d : Tree}
    (h : memberValue? name ms = some d) : ∃ m ∈ ms, d ∈ m.children := by
  induction ms with
  | nil => cases h
  | cons m ms ih =>
    rw [memberValue?] at h
    have hrest (h : memberValue? name ms = some d) : ∃ m' ∈ m :: ms, d ∈ m'.children := by
      obtain ⟨m', hm', hd⟩ := ih h
      exact ⟨m', List.mem_cons_of_mem m hm', hd⟩
    split at h
    · split at h
      · split at h
        · exact ⟨m, List.mem_cons_self, mem_children_of_child? h⟩
        · exact hrest h
      · exact hrest h
    · exact hrest h

theorem mem_preorder_of_ownDefinition? {name : Name} {t d : Tree}
    (h : ownDefinition? name t = some d) : d ∈ t.preorder := by
  have hchild (hd : d ∈ t.children) : d ∈ t.preorder :=
    mem_preorder_of_mem_children (mem_preorder_self t) hd
  rw [ownDefinition?] at h
  split at h
  next =>
    split at h
    next v hv =>
      split at h
      · exact hchild (mem_children_of_child? (Option.some.inj h ▸ hv))
      · cases h
    next => cases h
  next =>
    obtain ⟨m, hm, hd⟩ := mem_of_memberValue? h
    exact mem_preorder_of_mem_children
      (mem_preorder_of_mem_children (mem_preorder_self t) (List.mem_of_mem_filter hm)) hd
  next =>
    obtain ⟨hd, -⟩ := Option.filter_eq_some_iff.1 h
    rw [exported?] at hd
    split at hd
    next v hv => exact hchild (mem_children_of_child? (Option.some.inj hd ▸ hv))
    next =>
      split at hd
      · exact hchild (List.mem_of_mem_filter (List.mem_of_getLast? hd))
      · cases hd
  next => cases h

/-- A definition is a node of the tree. -/
theorem mem_preorder_of_definition? {root d : Tree} {name : Name}
    (h : root.definition? name = some d) : d ∈ root.preorder := by
  rw [definition?_eq] at h
  obtain ⟨t, ht, hd⟩ := List.exists_of_findSome?_eq_some h
  exact (preorder_sublist ht).subset (mem_preorder_of_ownDefinition? hd)

theorem mem_preorder_of_labelled {root t : Tree} (ht : t ∈ root.preorder) :
    ∀ c ∈ t.labelled, c.2 ∈ root.preorder := fun _ hc =>
  mem_preorder_of_mem_children ht (List.mem_map_of_mem hc)

end Tree

section

variable {root : Tree} {guard : Guard} {active : List Name}

theorem asks_node {t : Tree} (ht : t ∈ root.preorder) :
    (planNode active t).Asks fun c => c.task.IsWithin root := by
  have hparts := Tree.mem_preorder_of_labelled ht
  unfold planNode
  split
  · exact Plan.Asks.bind ⟨hparts, by simp⟩ (by simp)
  · exact Plan.Asks.bind ⟨hparts, by simp⟩ (by simp)
  · exact ⟨trivial, by simp⟩
  · trivial

theorem asks_reference (name : Name) :
    (planReference guard root active name).Asks fun c => c.task.IsWithin root := by
  unfold planReference
  split
  · trivial
  · split
    next => trivial
    next d hd => exact ⟨Tree.mem_preorder_of_definition? hd, by simp⟩

theorem asks_members {ms : List (Label × Tree)} (h : ∀ m ∈ ms, m.2 ∈ root.preorder) :
    (planMembers active ms).Asks fun c => c.task.IsWithin root := by
  cases ms with
  | nil => trivial
  | cons m ms =>
    obtain ⟨hm, hms⟩ := List.forall_mem_cons.1 h
    exact Plan.Asks.bind ⟨hm, by simp⟩ fun _ => Plan.Asks.bind ⟨hms, by simp⟩ (by simp)

theorem asks_member {m : Tree} (hm : m ∈ root.preorder) :
    (planMember active m).Asks fun c => c.task.IsWithin root := by
  unfold planMember
  split
  next =>
    split
    next key v hkey hv =>
      have hv := Tree.mem_preorder_of_mem_children hm (Tree.mem_children_of_child? hv)
      refine Plan.Asks.bind trivial fun k => ?_
      split
      · trivial
      · exact Plan.Asks.bind ⟨hv, by simp⟩ (by simp)
    next => trivial
  next => exact Plan.Asks.bind ⟨trivial, by simp⟩ (by simp)
  next =>
    split
    · exact ⟨trivial, by simp⟩
    · trivial
  next =>
    split
    · exact Plan.Asks.bind trivial (by simp)
    · trivial
  next => trivial

theorem asks_spread (target : Tree) :
    (planSpread guard root active target).Asks fun c => c.task.IsWithin root := by
  unfold planSpread
  split
  · split
    · trivial
    · split
      next => trivial
      next d hd =>
        have hmembers := Tree.mem_preorder_of_labelled (Tree.mem_preorder_of_definition? hd)
        split
        · exact Plan.Asks.bind ⟨hmembers, by simp⟩ (by simp)
        · trivial
  · trivial

theorem asks_items {ts : List (Label × Tree)} (h : ∀ t ∈ ts, t.2 ∈ root.preorder) :
    (planItems active ts).Asks fun c => c.task.IsWithin root := by
  cases ts with
  | nil => trivial
  | cons t ts =>
    obtain ⟨ht, hts⟩ := List.forall_mem_cons.1 h
    simp only [planItems]
    split
    · exact ⟨hts, by simp⟩
    · exact Plan.Asks.bind ⟨ht, by simp⟩ fun _ => Plan.Asks.bind ⟨hts, by simp⟩ (by simp)

/-- Calls on nodes of a tree lead to calls on nodes of it. -/
theorem asks_plan {c : Call} (h : c.task.IsWithin root) :
    (plan guard root c).Asks fun c' => c'.task.IsWithin root := by
  obtain ⟨active, task⟩ := c
  cases task with
  | node t => exact asks_node h
  | reference name => exact asks_reference name
  | members ms => exact asks_members h
  | member m => exact asks_member h
  | spread target => exact asks_spread target
  | items ts => exact asks_items h

theorem isWithin_of_reflTransGen {c c' : Call} (h : Relation.ReflTransGen (Nested root) c c')
    (hc : c.task.IsWithin root) : c'.task.IsWithin root := by
  induction h with
  | refl => exact hc
  | tail _ hnested ih => exact (asks_plan ih).of_makes hnested

/-- The string literals that a call reads are nodes of the tree. -/
theorem mem_preorder_of_mem_literals {c : Call} (hc : c.task.IsWithin root) {t : Tree}
    (ht : t ∈ c.literals) : t ∈ root.preorder ∧ t.kind = .string := by
  obtain ⟨active, task⟩ := c
  cases task with
  | node u =>
    simp only [Call.literals, List.mem_filter, List.mem_singleton, beq_iff_eq] at ht
    exact ⟨ht.1 ▸ hc, ht.2⟩
  | member m =>
    simp only [Call.literals, List.mem_filter, Option.mem_toList, beq_iff_eq] at ht
    refine ⟨?_, ht.2⟩
    have hname := ht.1
    unfold Tree.memberName? at hname
    split at hname
    next =>
      split at hname
      · exact Tree.mem_preorder_of_mem_children hc (Tree.mem_children_of_child? hname)
      · cases hname
    next => exact Tree.mem_preorder_of_mem_children hc (Tree.mem_children_of_child? hname)
    next => cases hname
  | _ => cases ht

/-! ## The tree of a script -/

/-- Whether the conversion of a node comes to a string literal with an escape sequence for a number
that no code point has. -/
def Tree.Stumbles (root t : Tree) : Prop :=
  ∃ c, Relation.ReflTransGen (Nested root) ⟨[], .node t⟩ c ∧ ∃ l ∈ c.literals, l.IsUnreadable

/-- **Where the conversion of a node fails.** Nothing but such a literal makes it fail. -/
theorem Tree.IsRegular.fails_convert_iff (h : root.IsRegular) {t : Tree} (ht : t ∈ root.preorder) :
    Fails (convert (some root) [] t) ↔ root.Stumbles t := by
  have hanswer : Fails (answer root ⟨[], .node t⟩) ↔ _ := fails_answer_iff
  rw [answer] at hanswer
  rw [hanswer, Tree.Stumbles]
  refine exists_congr fun c => and_congr_right fun hreach => exists_congr fun l =>
    and_congr_right fun hl => ?_
  obtain ⟨hin, hkind⟩ := mem_preorder_of_mem_literals (isWithin_of_reflTransGen hreach ht) hl
  rw [fails_stringValue_iff fun u hu => h.hasParts u (Tree.mem_preorder_of_mem_children hin hu)]
  exact ⟨fun he => ⟨hkind, he⟩, fun he => he.exists_escape⟩

theorem Tree.Stumbles.exists_isUnreadable {t : Tree} (h : root.Stumbles t)
    (ht : t ∈ root.preorder) : ∃ l ∈ root.preorder, l.IsUnreadable := by
  obtain ⟨c, hreach, l, hl, hunreadable⟩ := h
  exact ⟨l, (mem_preorder_of_mem_literals (isWithin_of_reflTransGen hreach ht) hl).1, hunreadable⟩

end

end AgentFlow.Script
