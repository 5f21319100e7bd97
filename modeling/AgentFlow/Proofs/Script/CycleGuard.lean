import AgentFlow.Proofs.Script.Termination
import Mathlib.Logic.Relation

/-!
# The guard against cycles

Without the guard a name is followed to its definition every time, so conversion may never end.
Where it ends, the guard has changed nothing: to meet a name again while it is being followed is to
need the answer of its definition for the answer of its definition, and the least fuel that gives
that answer would have to be less than itself.

* `Stopped`: a call in which only the guard keeps a name from being followed.
* `Blocked`: no active name has a definition that the given fuel can answer.
* `faithful_of_run`: with that, what ends without the guard ends in the same way with it.
* `guard_changes_nothing`: the same for a node on its own.
-/

namespace AgentFlow.Script

/-- Whether only the guard keeps a call from following a name to its definition. -/
def Stopped (root : Tree) : Call → Prop
  | ⟨active, .reference name⟩ => name ∈ active ∧ ∃ d, root.definition? name = some d
  | ⟨active, .spread target⟩ => target.kind = .identifier ∧ target.text ∈ active ∧
      ∃ d, root.definition? target.text = some d ∧ d.kind = .object
  | _ => False

/-- Where the guard stops nothing, the plan is that without the guard. -/
theorem plan_never_of_not_stopped {root : Tree} {c : Call} (h : ¬ Stopped root c) :
    plan .never root c = plan .cyclic root c := by
  obtain ⟨active, task⟩ := c
  cases task with
  | reference name =>
    simp only [plan, planReference, Guard.never, Guard.cyclic, List.contains_eq_mem,
      Bool.false_eq_true, if_false, decide_eq_true_eq]
    by_cases ha : name ∈ active
    · cases hd : root.definition? name with
      | none => simp
      | some d => exact absurd ⟨ha, d, hd⟩ h
    · rw [if_neg ha]
  | spread target =>
    simp only [plan, planSpread, Guard.never, Guard.cyclic, List.contains_eq_mem,
      Bool.false_eq_true, if_false, decide_eq_true_eq]
    by_cases hk : target.kind = .identifier
    · by_cases ha : target.text ∈ active
      · cases hd : root.definition? target.text with
        | none => simp
        | some d =>
          have hobj : d.kind ≠ .object := fun hobj => h ⟨hk, ha, d, hd, hobj⟩
          simp [hobj]
      · rw [if_neg ha]
    · rw [if_neg hk, if_neg hk]
  | _ => rfl

/-! ## Runs without the guard -/

/-- Without the guard it does not matter which names are being followed. -/
theorem run_never_active (root : Tree) (n : Nat) (task : Task) (as bs : List Name) :
    run .never root n ⟨as, task⟩ = run .never root n ⟨bs, task⟩ := by
  induction n generalizing task as bs with
  | zero => rfl
  | succ n ih =>
    cases task with
    | node t =>
      simp only [run, plan, planNode]
      split <;> simp [ih _ as bs]
    | reference name =>
      simp only [run, plan, planReference, Guard.never, Bool.false_eq_true, if_false]
      split <;> simp [ih _ (name :: as) (name :: bs)]
    | members ms =>
      simp only [run, plan]
      cases ms <;> simp [planMembers, ih _ as bs]
    | member m =>
      simp only [run, plan, planMember]
      cases m.kind <;> try rfl
      case pair =>
        cases m.child? .key <;> cases m.child? .value <;> try rfl
        case some.some key v =>
          by_cases hv : v.kind = .function <;> simp [hv, ih _ as bs]
      case shorthand => simp [ih _ as bs]
      case spread => cases m.namedChildren.head? <;> simp [ih _ as bs]
    | spread target =>
      simp only [run, plan, planSpread, Guard.never, Bool.false_eq_true, if_false]
      repeat' split
      all_goals simp [ih _ (target.text :: as) (target.text :: bs)]
    | items ts =>
      simp only [run, plan]
      cases ts with
      | nil => rfl
      | cons t ts =>
        simp only [planItems]
        split <;> simp [ih _ as bs]

/-- No definition of an active name is answered with the given fuel, and so with none that is
less. -/
def Blocked (root : Tree) (fuel : Nat) (active : List Name) : Prop :=
  ∀ name ∈ active, ∀ d, root.definition? name = some d →
    run .never root fuel ⟨[], d.entry⟩ = none

theorem Blocked.mono {root : Tree} {n m : Nat} {active : List Name} (h : Blocked root m active)
    (hle : n ≤ m) : Blocked root n active := by
  intro name hname d hd
  cases hn : run .never root n ⟨[], d.entry⟩ with
  | none => rfl
  | some r =>
    rw [← run_mono hle hn]
    exact h name hname d hd

/-- A definition that is answered has had its first part answered, with the same fuel at most. -/
theorem exists_run_entry {root : Tree} {n : Nat} {active : List Name} {d : Tree}
    {r : Except EscapeError Value} (h : run .never root n ⟨active, .node d⟩ = some r) :
    ∃ r', run .never root n ⟨active, d.entry⟩ = some r' := by
  by_cases hobj : d.kind = .object
  · rw [Tree.entry_of_object hobj]
    cases n with
    | zero => cases h
    | succ n =>
      simp only [run, plan, planNode, hobj, Plan.run_bind, Plan.ask, Plan.run_call,
        Option.bind_eq_some_iff] at h
      obtain ⟨_, ⟨a, ha, _⟩, _⟩ := h
      exact ⟨a, run_mono n.le_succ ha⟩
  · rw [Tree.entry_of_not_object hobj]
    exact ⟨r, h⟩

/-- A call that is answered while the active names are blocked is not stopped by the guard. -/
theorem not_stopped_of_run {root : Tree} {n : Nat} {c : Call} {r : Except EscapeError c.Result}
    (hb : Blocked root n c.active) (hr : run .never root (n + 1) c = some r) :
    ¬ Stopped root c := by
  obtain ⟨active, task⟩ := c
  cases task with
  | reference name =>
    rintro ⟨ha, d, hd⟩
    have hrun : run .never root n ⟨name :: active, .node d⟩ = some r := by
      simpa [run, plan, planReference, Guard.never, hd] using hr
    obtain ⟨r', hr'⟩ := exists_run_entry hrun
    rw [run_never_active root n d.entry _ [], hb name ha d hd] at hr'
    cases hr'
  | spread target =>
    rintro ⟨hk, ha, d, hd, hobj⟩
    have hblock := hb target.text ha d hd
    rw [Tree.entry_of_object hobj, run_never_active root n _ [] (target.text :: active)] at hblock
    simp [run, plan, planSpread, Guard.never, hk, hd, hobj, hblock] at hr
  | _ => exact id

/-! ## The guard changes nothing -/

/-- Whether a call is answered as it is without the guard, if that ever answers it, and the guard
stops nothing on the way. -/
structure Faithful (root : Tree) (c : Call) : Prop where
  answer_eq : ∀ n r, run .never root n c = some r → answer root c = r
  not_stopped : ∀ c', Relation.ReflTransGen (Nested root) c c' → ¬ Stopped root c'

/-- A call is answered faithfully if those are that it makes. -/
theorem faithful_of_nested {root : Tree} {n : Nat} {c : Call} {r : Except EscapeError c.Result}
    (hs : ¬ Stopped root c) (hr : run .never root (n + 1) c = some r)
    (h : ∀ c', Nested root c c' → ∀ r', run .never root n c' = some r' → Faithful root c') :
    Faithful root c := by
  have hrun := hr
  rw [run, plan_never_of_not_stopped hs] at hrun
  obtain ⟨heval, hmade⟩ := Plan.makes_of_run
    (fun c' hc' r' hr' => (h c' hc' r' hr').answer_eq n r' hr') hrun
  rw [eval_plan] at heval
  refine ⟨fun m r' hr' => heval.trans (run_unique hr hr'), fun c' hc' => ?_⟩
  rcases Relation.ReflTransGen.cases_head hc' with rfl | ⟨c₁, hc₁, htail⟩
  · exact hs
  · exact (h c₁ hc₁ _ (hmade c₁ hc₁)).not_stopped c' htail

/-- What ends without the guard while the active names are blocked ends in the same way with it. -/
theorem faithful_of_run {root : Tree} {n : Nat} {c : Call} {r : Except EscapeError c.Result}
    (hb : Blocked root n c.active) (hr : run .never root (n + 1) c = some r) :
    Faithful root c := by
  induction n using Nat.strong_induction_on generalizing c with
  | _ n ih =>
    refine faithful_of_nested (not_stopped_of_run hb hr) hr fun c' hc' r' hr' => ?_
    rcases nested_cases hc' with ⟨_, hactive, _⟩ | ⟨name, d, _, hd, hactive, htask⟩
    · cases n with
      | zero => cases hr'
      | succ n => exact ih n n.lt_succ_self (hactive ▸ hb.mono n.le_succ) hr'
    · obtain ⟨active, task⟩ := c'
      obtain rfl : active = name :: c.active := hactive
      obtain ⟨r₁, hr₁⟩ : ∃ r₁, run .never root n ⟨name :: c.active, d.entry⟩ = some r₁ := by
        rcases htask with rfl | rfl
        · exact exists_run_entry hr'
        · exact ⟨r', hr'⟩
      -- The least fuel that answers the definition blocks its name in all that is met below.
      obtain ⟨m, hm, hnone, hsome⟩ := exists_least_run hr₁
      have hblocked : Blocked root m (name :: c.active) := by
        intro other ho d' hd'
        rcases List.mem_cons.1 ho with rfl | ho
        · obtain rfl := Option.some.inj (hd.symm.trans hd')
          rw [run_never_active root m _ [] (other :: c.active)]
          exact hnone
        · exact hb.mono hm.le other ho d' hd'
      have hentry := ih m hm hblocked hsome
      rcases htask with rfl | rfl
      · by_cases hobj : d.kind = .object
        · rw [Tree.entry_of_object hobj] at hentry
          cases n with
          | zero => cases hr'
          | succ n =>
            refine faithful_of_nested id hr' fun c'' hc'' _ _ => ?_
            simp [Nested, plan, planNode, hobj] at hc''
            exact hc'' ▸ hentry
        · rw [Tree.entry_of_not_object hobj] at hentry
          exact hentry
      · exact hentry

/-- **The guard changes no result.** Where conversion without the guard ends for a node, conversion
gives the same result, and nowhere on its way is a name with a definition left unfollowed because
it is being followed already. -/
theorem guard_changes_nothing {root t : Tree} {n : Nat} {r : Except EscapeError Value}
    (h : run .never root n ⟨[], .node t⟩ = some r) :
    convert (some root) [] t = r ∧
      ∀ c, Relation.ReflTransGen (Nested root) ⟨[], .node t⟩ c → ¬ Stopped root c := by
  cases n with
  | zero => cases h
  | succ n =>
    have hfaithful := faithful_of_run (fun _ hname => by cases hname) h
    exact ⟨hfaithful.answer_eq _ r h, hfaithful.not_stopped⟩

/-- A script with one name that is defined once and met twice. -/
def metTwice : Tree :=
  .node .other 0 22 [] [
    (.plain, .node .declarator 0 12 [] [
      (.name, .node .identifier 6 7 ['b'] []), (.value, .node .trueWord 10 14 [] [])]),
    (.plain, .node .array 15 21 [] [
      (.plain, .node .identifier 16 17 ['b'] []), (.plain, .node .identifier 19 20 ['b'] [])])]

theorem definition?_metTwice : metTwice.definition? ['b'] = some (.node .trueWord 10 14 [] []) := by
  rw [Tree.definition?_eq]
  rfl

theorem guard_keeps_metTwice :
    ∃ t ∈ metTwice.children,
      convert (some metTwice) [] t = .ok (.list [.bool true, .bool true]) := by
  refine ⟨.node .array 15 21 [] [(.plain, .node .identifier 16 17 ['b'] []),
    (.plain, .node .identifier 19 20 ['b'] [])],
    by simp [metTwice, Tree.children, Tree.labelled], ?_⟩
  refine (guard_changes_nothing (n := 6) ?_).1
  simp [run, plan, planNode, planItems, planReference, Guard.never, definition?_metTwice,
    leafValue, Tree.kind, Tree.text, Tree.labelled]

end AgentFlow.Script
