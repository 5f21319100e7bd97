import AgentFlow.Proofs.Script.Plan
import Mathlib.Data.List.Dedup
import Mathlib.Data.List.Perm.Subperm
import Mathlib.Data.Prod.Lex

/-!
# Conversion ends

A call makes calls in two ways: it goes down the tree with the same names being followed, or it
follows a name to its definition, and then that name is one more. A name is followed only while it
is not being followed already, so along any chain of calls each name is followed once at most.

* `nested_cases`: what one call leads to.
* `wellFounded_nested`: no chain of calls goes on for ever.
* `exists_run`: with fuel enough every call is answered.
* `conversion_ends`: both, and how long the chains of names are.
-/

namespace AgentFlow.Script

/-- Whether answering one call makes another. -/
def Nested (root : Tree) (c c' : Call) : Prop := (plan .cyclic root c).Makes (answer root) c'

/-- The name that a call follows to its definition, if it follows one. -/
def followed (root : Tree) : Call → Option Name
  | ⟨active, .reference name⟩ =>
    if !active.contains name && (root.definition? name).isSome then some name else none
  | ⟨active, .spread target⟩ =>
    if target.kind == .identifier && !active.contains target.text
        && (root.definition? target.text).any (·.kind == .object)
      then some target.text else none
  | _ => none

theorem followed_spec {root : Tree} {c : Call} {name : Name} (h : followed root c = some name) :
    name ∉ c.active ∧ ∃ d, root.definition? name = some d := by
  obtain ⟨active, task⟩ := c
  cases task <;> simp only [followed] at h
  case reference other =>
    split at h
    case isTrue hf =>
      obtain rfl := Option.some.inj h
      simp only [Bool.and_eq_true, Bool.not_eq_true', List.contains_eq_mem,
        decide_eq_false_iff_not] at hf
      exact ⟨hf.1, Option.isSome_iff_exists.1 hf.2⟩
    case isFalse => cases h
  case spread target =>
    split at h
    case isTrue hf =>
      obtain rfl := Option.some.inj h
      simp only [Bool.and_eq_true, Bool.not_eq_true', List.contains_eq_mem,
        decide_eq_false_iff_not] at hf
      obtain ⟨d, hd, _⟩ := (Option.any_eq_true _ _).1 hf.2
      exact ⟨hf.1.2, d, hd⟩
    case isFalse => cases h
  all_goals cases h

/-! ## What one call leads to -/

/-- How far a task is from the leaves of the tree; a row of parts comes after its first part. -/
def Task.rank : Task → Nat × Nat
  | .node t => (t.size, 0)
  | .reference _ => (0, 0)
  | .members ms => (Tree.sizeList ms, 1)
  | .member m => (m.size, 0)
  | .spread _ => (0, 0)
  | .items ts => (Tree.sizeList ts, 1)

/-- The order of ranks. -/
abbrev RankLt : Nat × Nat → Nat × Nat → Prop := Prod.Lex (· < ·) (· < ·)

private theorem rankLt_of_le {a b : Nat} (h : a ≤ b) : RankLt (a, 0) (b, 1) := by
  rcases Nat.lt_or_eq_of_le h with hlt | rfl
  · exact .left _ _ hlt
  · exact .right _ Nat.one_pos

/-- A call that is made further down the tree, with the names as they are. -/
structure Descends (root : Tree) (c c' : Call) : Prop where
  followed_none : followed root c = none
  active_eq : c'.active = c.active
  rank_lt : RankLt c'.task.rank c.task.rank

/-- What is converted first of a definition that is more than a name: the members if it is an
object literal. -/
def Tree.entry (d : Tree) : Task := if d.kind = .object then .members d.labelled else .node d

theorem Tree.entry_of_object {d : Tree} (h : d.kind = .object) : d.entry = .members d.labelled :=
  if_pos h

theorem Tree.entry_of_not_object {d : Tree} (h : d.kind ≠ .object) : d.entry = .node d := if_neg h

/-- A call that is made for the definition of a name, which is one more from then on. -/
structure Follows (root : Tree) (c c' : Call) (name : Name) (d : Tree) : Prop where
  followed_eq : followed root c = some name
  definition_eq : root.definition? name = some d
  active_eq : c'.active = name :: c.active
  task_eq : c'.task = .node d ∨ c'.task = d.entry

section

variable {root : Tree} {active : List Name} {c' : Call}

private theorem descends_node {t : Tree} (h : Nested root ⟨active, .node t⟩ c') :
    Descends root ⟨active, .node t⟩ c' := by
  have hsize := size_labelled t
  have hpos := t.size_pos
  simp only [Nested, plan, planNode] at h
  split at h <;> simp at h
  case h_1 =>
    subst h
    exact ⟨rfl, rfl, .left _ _ (by omega)⟩
  case h_2 =>
    subst h
    exact ⟨rfl, rfl, .left _ _ (by omega)⟩
  case h_3 =>
    subst h
    exact ⟨rfl, rfl, .left _ _ hpos⟩

private theorem follows_reference {name : Name} (h : Nested root ⟨active, .reference name⟩ c') :
    ∃ d, Follows root ⟨active, .reference name⟩ c' name d := by
  simp only [Nested, plan, planReference] at h
  split at h
  case isTrue => simp at h
  case isFalse ha =>
    have ha : name ∉ active := by simpa [Guard.cyclic] using ha
    split at h
    case h_1 => simp at h
    case h_2 d hd =>
      simp at h
      subst h
      exact ⟨d, by simp [followed, ha, hd], hd, rfl, .inl rfl⟩

private theorem descends_members {ms : List (Label × Tree)}
    (h : Nested root ⟨active, .members ms⟩ c') : Descends root ⟨active, .members ms⟩ c' := by
  cases ms with
  | nil => simp [Nested, plan, planMembers] at h
  | cons m ms =>
    have hpos := m.2.size_pos
    simp [Nested, plan, planMembers] at h
    rcases h with rfl | ⟨_, _, rfl⟩
    · exact ⟨rfl, rfl, rankLt_of_le (Nat.le_add_right _ _)⟩
    · exact ⟨rfl, rfl, .left _ _ (Nat.lt_add_of_pos_left hpos)⟩

private theorem descends_member {m : Tree} (h : Nested root ⟨active, .member m⟩ c') :
    Descends root ⟨active, .member m⟩ c' := by
  have hpos := m.size_pos
  simp only [Nested, plan, planMember] at h
  split at h
  case h_1 =>
    split at h
    case h_1 key v _ hv =>
      by_cases hf : v.kind = .function
      · simp [hf] at h
      · simp [hf] at h
        obtain ⟨_, _, rfl⟩ := h
        exact ⟨rfl, rfl, .left _ _ (size_child?_lt hv)⟩
    case h_2 => simp at h
  case h_2 =>
    simp at h
    subst h
    exact ⟨rfl, rfl, .left _ _ hpos⟩
  case h_3 =>
    split at h
    case h_1 =>
      simp at h
      subst h
      exact ⟨rfl, rfl, .left _ _ hpos⟩
    case h_2 => simp at h
  case h_4 => split at h <;> simp at h
  case h_5 => simp at h

private theorem follows_spread {target : Tree} (h : Nested root ⟨active, .spread target⟩ c') :
    ∃ d, Follows root ⟨active, .spread target⟩ c' target.text d := by
  simp only [Nested, plan, planSpread] at h
  split at h
  case isFalse => simp at h
  case isTrue hk =>
    split at h
    case isTrue => simp at h
    case isFalse ha =>
      have ha : target.text ∉ active := by simpa [Guard.cyclic] using ha
      split at h
      case h_1 => simp at h
      case h_2 d hd =>
        split at h
        case isTrue hobj =>
          simp at h
          subst h
          have hentry := (Tree.entry_of_object hobj).symm
          exact ⟨d, by simp [followed, hk, ha, hd, hobj], hd, rfl, .inr hentry⟩
        case isFalse => simp at h

private theorem descends_items {ts : List (Label × Tree)}
    (h : Nested root ⟨active, .items ts⟩ c') : Descends root ⟨active, .items ts⟩ c' := by
  cases ts with
  | nil => simp [Nested, plan, planItems] at h
  | cons t ts =>
    have hpos := t.2.size_pos
    simp only [Nested, plan, planItems] at h
    split at h <;> simp at h
    · subst h
      exact ⟨rfl, rfl, .left _ _ (Nat.lt_add_of_pos_left hpos)⟩
    · rcases h with rfl | ⟨_, _, rfl⟩
      · exact ⟨rfl, rfl, rankLt_of_le (Nat.le_add_right _ _)⟩
      · exact ⟨rfl, rfl, .left _ _ (Nat.lt_add_of_pos_left hpos)⟩

end

/-- A call goes down the tree, or it follows a name. -/
theorem nested_cases {root : Tree} {c c' : Call} (h : Nested root c c') :
    Descends root c c' ∨ ∃ name d, Follows root c c' name d := by
  obtain ⟨active, task⟩ := c
  cases task with
  | node t => exact .inl (descends_node h)
  | reference name => exact .inr ⟨name, follows_reference h⟩
  | members ms => exact .inl (descends_members h)
  | member m => exact .inl (descends_member h)
  | spread target => exact .inr ⟨target.text, follows_spread h⟩
  | items ts => exact .inl (descends_items h)

/-! ## No chain goes on for ever -/

/-- What gets less with each call: the names that may still be followed, then the rank. -/
def Call.measure (root : Tree) (c : Call) : Nat × Nat × Nat :=
  (pending (some root) c.active, c.task.rank)

theorem measure_lt {root : Tree} {c c' : Call} (h : Nested root c c') :
    Prod.Lex (· < ·) RankLt (c'.measure root) (c.measure root) := by
  rcases nested_cases h with ⟨_, hactive, hrank⟩ | ⟨name, _, hname, _, hactive, _⟩
  · rw [Call.measure, Call.measure, hactive]
    exact .right _ hrank
  · obtain ⟨hnew, d, hd⟩ := followed_spec hname
    rw [Call.measure, Call.measure, hactive]
    exact .left _ _ (pending_lt hd hnew)

/-- **No chain of calls goes on for ever.** -/
theorem wellFounded_nested (root : Tree) : WellFounded fun c' c => Nested root c c' := by
  have hlt : WellFounded fun a b : Nat => a < b := Nat.lt_wfRel.wf
  have hlex : WellFounded (Prod.Lex (fun a b : Nat => a < b) RankLt) :=
    (Prod.lex ⟨_, hlt⟩ (Prod.lex ⟨_, hlt⟩ ⟨_, hlt⟩)).wf
  exact Subrelation.wf (fun h => measure_lt h) (InvImage.wf (Call.measure root) hlex)

/-! ## Fuel enough -/

/-- If every call that a plan makes has an answer with some fuel, the plan has one. -/
private theorem exists_run_plan {root : Tree} {α : Type} {x : Plan α}
    (h : ∀ c, x.Makes (answer root) c → ∃ n, run .cyclic root n c = some (answer root c)) :
    ∃ n, x.run (run .cyclic root n) = some (x.eval (answer root)) := by
  induction x with
  | done r => exact ⟨0, rfl⟩
  | call c next ih =>
    obtain ⟨n, hn⟩ := h c (.inl rfl)
    obtain ⟨m, hm⟩ := ih (answer root c) fun c' hc' => h c' (.inr hc')
    refine ⟨max n m, ?_⟩
    rw [Plan.run_call, run_mono (Nat.le_max_left n m) hn]
    exact Plan.run_mono (fun _ _ => run_mono (Nat.le_max_right n m)) hm

/-- **With fuel enough every call is answered, as conversion answers it.** -/
theorem exists_run (root : Tree) (c : Call) :
    ∃ n, run .cyclic root n c = some (answer root c) := by
  induction c using (wellFounded_nested root).induction with
  | _ c ih =>
    obtain ⟨n, hn⟩ := exists_run_plan fun c' hc' => ih c' hc'
    rw [eval_plan] at hn
    exact ⟨n + 1, hn⟩

/-- What the plans keep up holds of all that conversion answers. -/
theorem promise_of_answer {root : Tree} {promise : (c : Call) → c.Result → Prop}
    (h : ∀ c, (plan .cyclic root c).Ensures promise (promise c)) {c : Call} {r : c.Result}
    (hr : answer root c = .ok r) : promise c r := by
  induction c using (wellFounded_nested root).induction with
  | _ c ih =>
    rw [← eval_plan] at hr
    exact Plan.post_of_eval (h c) (fun c' hc' r' hr' => ih c' hc' hr') hr

/-! ## Chains of names -/

/-- The names that have a definition. -/
def Tree.boundNames (root : Tree) : List Name :=
  (root.definedNames.filter fun name => (root.definition? name).isSome).dedup

theorem mem_boundNames {root : Tree} {name : Name} :
    name ∈ root.boundNames ↔ ∃ d, root.definition? name = some d := by
  rw [Tree.boundNames, List.mem_dedup, List.mem_filter, Option.isSome_iff_exists]
  exact and_iff_right_of_imp fun ⟨_, hd⟩ => Tree.mem_definedNames hd

/-- The names that the calls of a chain follow, from the outermost in. -/
def followedNames (root : Tree) (cs : List Call) : List Name := cs.filterMap (followed root)

/-- Along a chain each name is followed once, and none that was being followed before. -/
theorem nodup_followedNames {root : Tree} {c : Call} {cs : List Call}
    (h : List.IsChain (Nested root) (c :: cs)) :
    (followedNames root (c :: cs)).Nodup ∧
      ∀ name ∈ followedNames root (c :: cs), name ∉ c.active ∧ name ∈ root.boundNames := by
  induction cs generalizing c with
  | nil =>
    rw [followedNames, List.filterMap_cons]
    cases hc : followed root c with
    | none => simp
    | some name =>
      obtain ⟨hnew, hd⟩ := followed_spec hc
      simpa using ⟨hnew, mem_boundNames.2 hd⟩
  | cons c' cs ih =>
    rw [List.isChain_cons_cons] at h
    obtain ⟨hnodup, hnames⟩ := ih h.2
    rcases nested_cases h.1 with ⟨hnone, hactive, _⟩ | ⟨name, _, hname, _, hactive, _⟩
    · rw [hactive] at hnames
      simpa only [followedNames, List.filterMap_cons, hnone] using ⟨hnodup, hnames⟩
    · obtain ⟨hnew, hd⟩ := followed_spec hname
      rw [hactive] at hnames
      have hmem : name ∉ followedNames root (c' :: cs) := fun hm =>
        (hnames name hm).1 List.mem_cons_self
      have hsplit : followedNames root (c :: c' :: cs) = name :: followedNames root (c' :: cs) := by
        rw [followedNames, List.filterMap_cons, hname]
        rfl
      rw [hsplit]
      refine ⟨List.nodup_cons.2 ⟨hmem, hnodup⟩, fun other ho => ?_⟩
      rcases List.mem_cons.1 ho with rfl | ho
      · exact ⟨hnew, mem_boundNames.2 hd⟩
      · obtain ⟨hother, hbound⟩ := hnames other ho
        exact ⟨fun hm => hother (List.mem_cons_of_mem _ hm), hbound⟩

/-- **Conversion ends, however definitions refer to each other.** No chain of calls goes on for
ever, fuel enough gives the value of every node whatever names are being followed, and no fuel
gives another one. Along a chain of nested calls no name is followed twice, nor one that was being
followed before, so a chain follows no more names than there are names with a definition. -/
theorem conversion_ends (root : Tree) :
    WellFounded (fun c' c => Nested root c c') ∧
      (∀ active t, ∃ enough, ∀ n,
        run .cyclic root n ⟨active, .node t⟩ = some (convert (some root) active t) ∨
          n < enough ∧ run .cyclic root n ⟨active, .node t⟩ = none) ∧
      ∀ c cs, List.IsChain (Nested root) (c :: cs) →
        (followedNames root (c :: cs)).Nodup ∧
          (∀ name ∈ followedNames root (c :: cs), name ∉ c.active) ∧
          (followedNames root (c :: cs)).length ≤ root.boundNames.length := by
  refine ⟨wellFounded_nested root, fun active t => ?_, fun c cs hchain => ?_⟩
  · obtain ⟨enough, henough⟩ := exists_run root ⟨active, .node t⟩
    refine ⟨enough, fun n => ?_⟩
    rcases Nat.lt_or_ge n enough with hlt | hle
    · cases hn : run .cyclic root n ⟨active, .node t⟩ with
      | none => exact .inr ⟨hlt, rfl⟩
      | some r => exact .inl (congrArg some (answer_of_run hn).symm)
    · exact .inl (run_mono hle henough)
  · obtain ⟨hnodup, hnames⟩ := nodup_followedNames hchain
    have hsub : followedNames root (c :: cs) ⊆ root.boundNames := fun name hn => (hnames name hn).2
    exact ⟨hnodup, fun name hn => (hnames name hn).1,
      (List.subperm_of_subset hnodup hsub).length_le⟩

end AgentFlow.Script
