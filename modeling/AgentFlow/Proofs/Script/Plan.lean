import AgentFlow.Script.Conversion

/-!
# Conversion one call at a time

What each function of the conversion does with the answers to the calls it makes is written down
once as a `Plan`: a tree of calls that ends in an answer. The guard that keeps a name from being
followed twice is a parameter of it. Conversion is what the plans with the usual guard lead to,
and with another guard they can still be run for as long as there is fuel.

* `Script.plan`: the plan of a call.
* `Script.eval_plan`: conversion answers each call as its plan says.
* `Script.run`: the answer of a call, if it is found with some fuel.
* `Script.Plan.Ensures`: what a plan leads to if all its calls keep what they promise.
-/

namespace AgentFlow.Script

/-! ## Calls -/

/-- What a call works on: a node, a name, the members of an object literal, one of them, the
target of a spread, or the items of an array literal. -/
inductive Task where
  | node (t : Tree)
  | reference (name : Name)
  | members (ms : List (Label × Tree))
  | member (m : Tree)
  | spread (target : Tree)
  | items (ts : List (Label × Tree))

/-- What a task has as its result. -/
abbrev Task.Result : Task → Type
  | .node _ => Value
  | .reference _ => Value
  | .members _ => Entries
  | .member _ => Entries
  | .spread _ => Entries
  | .items _ => List Value

/-- A call: a task, and the names that are being followed. -/
structure Call where
  active : List Name
  task : Task

abbrev Call.Result (c : Call) : Type := c.task.Result

/-- Answers to all calls. -/
abbrev Answers := (c : Call) → Except EscapeError c.Result

/-- How conversion answers a call. -/
def answer (root : Tree) : Answers
  | ⟨active, .node t⟩ => convert (some root) active t
  | ⟨active, .reference name⟩ => convertReference (some root) active name
  | ⟨active, .members ms⟩ => convertMembers (some root) active ms
  | ⟨active, .member m⟩ => convertMember (some root) active m
  | ⟨active, .spread target⟩ => convertSpread (some root) active target
  | ⟨active, .items ts⟩ => convertItems (some root) active ts

/-! ## Plans -/

/-- A computation that makes calls one after the other: it is done, or it makes a call and goes on
with the answer. -/
inductive Plan (α : Type) where
  | done (r : Except EscapeError α)
  | call (c : Call) (next : Except EscapeError c.Result → Plan α)

namespace Plan

/-- A plan that goes on with the result of another. -/
def bind {α β : Type} : Plan α → (α → Plan β) → Plan β
  | done (.ok a), f => f a
  | done (.error e), _ => done (.error e)
  | call c next, f => call c fun r => bind (next r) f

instance : Monad Plan where
  pure a := done (.ok a)
  bind := bind

/-- The plan of a single call. -/
@[simp] def ask (c : Call) : Plan c.Result := call c done

/-- The answer that a plan ends in when its calls are answered. -/
def eval {α : Type} (answers : Answers) : Plan α → Except EscapeError α
  | done r => r
  | call c next => eval answers (next (answers c))

/-- Whether a plan makes a call when its calls are answered. -/
def Makes {α : Type} (answers : Answers) : Plan α → Call → Prop
  | done _, _ => False
  | call c next, c' => c' = c ∨ Makes answers (next (answers c)) c'

/-- The answer that a plan ends in, if all its calls have an answer. -/
def run {α : Type} (answer? : (c : Call) → Option (Except EscapeError c.Result)) :
    Plan α → Option (Except EscapeError α)
  | done r => some r
  | call c next =>
    match answer? c with
    | none => none
    | some r => run answer? (next r)

/-- Whether a plan has only results with a property, as long as the results of its calls have
theirs. -/
def Ensures {α : Type} (promise : (c : Call) → c.Result → Prop) (post : α → Prop) : Plan α → Prop
  | done r => ∀ a, r = .ok a → post a
  | call c next => ∀ r, (∀ x, r = .ok x → promise c x) → Ensures promise post (next r)

variable {α β : Type}

@[simp] theorem eval_done (answers : Answers) (r : Except EscapeError α) :
    (done r).eval answers = r := rfl

@[simp] theorem eval_pure (answers : Answers) (a : α) : (pure a : Plan α).eval answers = .ok a :=
  rfl

@[simp] theorem eval_call (answers : Answers) (c : Call)
    (next : Except EscapeError c.Result → Plan α) :
    (call c next).eval answers = (next (answers c)).eval answers := rfl

@[simp] theorem eval_bind (answers : Answers) (x : Plan α) (f : α → Plan β) :
    (x >>= f).eval answers = x.eval answers >>= fun a => (f a).eval answers := by
  show (x.bind f).eval answers = _
  induction x with
  | done r => cases r <;> rfl
  | call c next ih => exact ih (answers c)

@[simp] theorem makes_done (answers : Answers) (r : Except EscapeError α) (c : Call) :
    (done r).Makes answers c ↔ False := Iff.rfl

@[simp] theorem makes_pure (answers : Answers) (a : α) (c : Call) :
    (pure a : Plan α).Makes answers c ↔ False := Iff.rfl

@[simp] theorem makes_call (answers : Answers) (c c' : Call)
    (next : Except EscapeError c.Result → Plan α) :
    (call c next).Makes answers c' ↔ c' = c ∨ (next (answers c)).Makes answers c' := Iff.rfl

@[simp] theorem makes_bind (answers : Answers) (x : Plan α) (f : α → Plan β) (c : Call) :
    (x >>= f).Makes answers c ↔
      x.Makes answers c ∨ ∃ a, x.eval answers = .ok a ∧ (f a).Makes answers c := by
  show (x.bind f).Makes answers c ↔ _
  induction x with
  | done r => cases r <;> simp [bind]
  | call c next ih => simp [bind, Makes, eval, ih, or_assoc]

variable {answer? : (c : Call) → Option (Except EscapeError c.Result)}

@[simp] theorem run_done (r : Except EscapeError α) : (done r).run answer? = some r := rfl

@[simp] theorem run_pure (a : α) : (pure a : Plan α).run answer? = some (.ok a) := rfl

@[simp] theorem run_call (c : Call) (next : Except EscapeError c.Result → Plan α) :
    (call c next).run answer? = (answer? c).bind fun r => (next r).run answer? := by
  rw [run]
  cases answer? c <;> rfl

@[simp] theorem run_bind (x : Plan α) (f : α → Plan β) :
    (x >>= f).run answer? = (x.run answer?).bind fun r =>
      match r with
      | .ok a => (f a).run answer?
      | .error e => some (.error e) := by
  show (x.bind f).run answer? = _
  induction x with
  | done r => cases r <;> rfl
  | call c next ih =>
    rw [bind, run_call, run_call, Option.bind_assoc]
    exact congrArg _ (funext ih)

/-- More answers lead to the same results. -/
theorem run_mono {more? : (c : Call) → Option (Except EscapeError c.Result)}
    (h : ∀ c r, answer? c = some r → more? c = some r) {x : Plan α} {r : Except EscapeError α}
    (hr : x.run answer? = some r) : x.run more? = some r := by
  induction x with
  | done r => exact hr
  | call c next ih =>
    rw [run] at hr ⊢
    cases hc : answer? c with
    | none =>
      rw [hc] at hr
      cases hr
    | some a =>
      rw [hc] at hr
      rw [h c a hc]
      exact ih a hr

/-- If the calls that are made are answered as `answers` does, a run answers all of them and ends
as they do. -/
theorem makes_of_run {answers : Answers} {x : Plan α}
    (h : ∀ c, x.Makes answers c → ∀ r, answer? c = some r → answers c = r)
    {r : Except EscapeError α} (hr : x.run answer? = some r) :
    x.eval answers = r ∧ ∀ c, x.Makes answers c → answer? c = some (answers c) := by
  induction x with
  | done a => exact ⟨Option.some.inj hr, fun c hc => hc.elim⟩
  | call c next ih =>
    rw [run] at hr
    cases hc : answer? c with
    | none =>
      rw [hc] at hr
      cases hr
    | some a =>
      rw [hc] at hr
      obtain rfl := h c (.inl rfl) a hc
      obtain ⟨heval, hmakes⟩ := ih _ (fun c' hc' => h c' (.inr hc')) hr
      refine ⟨heval, fun c' hc' => ?_⟩
      rcases hc' with rfl | hc'
      · exact hc
      · exact hmakes c' hc'

variable {promise : (c : Call) → c.Result → Prop}

@[simp] theorem ensures_done (post : α → Prop) (r : Except EscapeError α) :
    (done r).Ensures promise post ↔ ∀ a, r = .ok a → post a := Iff.rfl

@[simp] theorem ensures_pure (post : α → Prop) (a : α) :
    (pure a : Plan α).Ensures promise post ↔ post a := by
  show (∀ b, Except.ok a = .ok b → post b) ↔ post a
  simp

@[simp] theorem ensures_call {c : Call} {next : Except EscapeError c.Result → Plan α}
    (post : α → Prop) : (call c next).Ensures promise post ↔
      ∀ r, (∀ x, r = .ok x → promise c x) → (next r).Ensures promise post := Iff.rfl

@[simp] theorem ensures_bind (post : β → Prop) (x : Plan α) (f : α → Plan β) :
    (x >>= f).Ensures promise post ↔ x.Ensures promise fun a => (f a).Ensures promise post := by
  show (x.bind f).Ensures promise post ↔ _
  induction x with
  | done r => cases r <;> simp [bind]
  | call c next ih => simp [bind, Ensures, ih]

/-- What a plan ensures holds of what it ends in, if its calls keep their promises. -/
theorem post_of_eval {answers : Answers} {post : α → Prop} {x : Plan α}
    (hx : x.Ensures promise post)
    (h : ∀ c, x.Makes answers c → ∀ r, answers c = .ok r → promise c r) {a : α}
    (ha : x.eval answers = .ok a) : post a := by
  induction x with
  | done r => exact hx a ha
  | call c next ih =>
    exact ih _ (hx (answers c) (h c (.inl rfl))) (fun c' hc' => h c' (.inr hc')) ha

end Plan

/-! ## The plans of the conversion -/

/-- Decides which names are not followed, given those that are being followed. -/
abbrev Guard := List Name → Name → Bool

/-- The guard of the conversion: no name is followed while it is being followed. -/
def Guard.cyclic : Guard := fun active name => active.contains name

/-- The guard that lets every name pass. -/
def Guard.never : Guard := fun _ _ => false

/-- The value of a node without parts that are values. -/
def leafValue (t : Tree) : Except EscapeError Value :=
  match t.kind with
  | .string => do
    let s ← stringValue t
    .ok (.str s)
  | .number => .ok ((numberValue? (Text.ofChars t.text)).getD (marker t.text))
  | .trueWord => .ok (.bool true)
  | .falseWord => .ok (.bool false)
  | .nullWord => .ok .null
  | .undefinedWord => .ok (marker "undefined".toList)
  | _ => .ok (marker t.text)

/-- The plan of a node. -/
def planNode (active : List Name) (t : Tree) : Plan Value :=
  match t.kind with
  | .object => do
    let es ← Plan.ask ⟨active, .members t.labelled⟩
    return .map (Entries.putAll [] es)
  | .array => do
    let vs ← Plan.ask ⟨active, .items t.labelled⟩
    return .list vs
  | .identifier => Plan.ask ⟨active, .reference t.text⟩
  | _ => .done (leafValue t)

/-- The plan of a name. -/
def planReference (guard : Guard) (root : Tree) (active : List Name) (name : Name) : Plan Value :=
  if guard active name then return marker name
  else
    match root.definition? name with
    | none => return marker name
    | some d => Plan.ask ⟨name :: active, .node d⟩

/-- The plan of the members of an object literal. -/
def planMembers (active : List Name) : List (Label × Tree) → Plan Entries
  | [] => return []
  | (_, m) :: ms => do
    let es ← Plan.ask ⟨active, .member m⟩
    let rest ← Plan.ask ⟨active, .members ms⟩
    return es ++ rest

/-- The plan of one member of an object literal. -/
def planMember (active : List Name) (m : Tree) : Plan Entries :=
  match m.kind with
  | .pair =>
    match m.child? .key, m.child? .value with
    | some key, some v => do
      let k ← Plan.done (propertyName key)
      let v ← if v.kind = .function then pure functionMarker else Plan.ask ⟨active, .node v⟩
      return [(.str k, v)]
    | _, _ => return []
  | .shorthand => do
    let v ← Plan.ask ⟨active, .reference m.text⟩
    return [(.str (Text.ofChars m.text), v)]
  | .spread =>
    match m.namedChildren.head? with
    | some target => Plan.ask ⟨active, .spread target⟩
    | none => return []
  | .method =>
    match m.child? .name with
    | some name => do
      let k ← Plan.done (propertyName name)
      return [(.str k, functionMarker)]
    | none => return []
  | _ => return []

/-- The plan of a spread. -/
def planSpread (guard : Guard) (root : Tree) (active : List Name) (target : Tree) : Plan Entries :=
  let kept : Entries := [(.str ("..." ++ Text.ofChars target.text), marker target.text)]
  if target.kind = .identifier then
    if guard active target.text then return kept
    else
      match root.definition? target.text with
      | none => return kept
      | some d =>
        if d.kind = .object then do
          let es ← Plan.ask ⟨target.text :: active, .members d.labelled⟩
          return Entries.putAll [] es
        else return kept
  else return kept

/-- The plan of the items of an array literal. -/
def planItems (active : List Name) : List (Label × Tree) → Plan (List Value)
  | [] => return []
  | (_, t) :: ts =>
    if t.kind = .comment ∨ t.kind = .equals then Plan.ask ⟨active, .items ts⟩
    else do
      let v ← Plan.ask ⟨active, .node t⟩
      let vs ← Plan.ask ⟨active, .items ts⟩
      return v :: vs

/-- The plan of a call. -/
def plan (guard : Guard) (root : Tree) : (c : Call) → Plan c.Result
  | ⟨active, .node t⟩ => planNode active t
  | ⟨active, .reference name⟩ => planReference guard root active name
  | ⟨active, .members ms⟩ => planMembers active ms
  | ⟨active, .member m⟩ => planMember active m
  | ⟨active, .spread target⟩ => planSpread guard root active target
  | ⟨active, .items ts⟩ => planItems active ts

/-! ## Conversion follows the plans -/

theorem eval_planNode (root : Tree) (active : List Name) (t : Tree) :
    (planNode active t).eval (answer root) = convert (some root) active t := by
  rw [convert, planNode]
  unfold leafValue
  cases t.kind <;> simp [answer]

theorem eval_planReference (root : Tree) (active : List Name) (name : Name) :
    (planReference .cyclic root active name).eval (answer root)
      = convertReference (some root) active name := by
  rw [convertReference, planReference]
  by_cases ha : name ∈ active
  · simp [Guard.cyclic, ha]
  · simp only [Guard.cyclic, List.contains_eq_mem, ha, decide_false, Bool.false_eq_true, if_false,
      dif_neg, not_false_eq_true]
    split <;> split <;> simp_all [answer]

theorem eval_planMembers (root : Tree) (active : List Name) (ms : List (Label × Tree)) :
    (planMembers active ms).eval (answer root) = convertMembers (some root) active ms := by
  cases ms with
  | nil => rw [convertMembers]; rfl
  | cons m ms => rw [convertMembers]; simp [planMembers, answer]

theorem eval_planMember (root : Tree) (active : List Name) (m : Tree) :
    (planMember active m).eval (answer root) = convertMember (some root) active m := by
  rw [convertMember, planMember]
  cases m.kind <;> try rfl
  case pair =>
    cases m.child? .key <;> cases m.child? .value <;> try rfl
    case some.some key v =>
      by_cases hv : v.kind = .function <;> simp [hv, answer]
  case shorthand => simp [answer]
  case spread => cases m.namedChildren.head? <;> simp [answer]
  case method => cases m.child? .name <;> simp

theorem eval_planSpread (root : Tree) (active : List Name) (target : Tree) :
    (planSpread .cyclic root active target).eval (answer root)
      = convertSpread (some root) active target := by
  rw [convertSpread, planSpread]
  by_cases hk : target.kind = .identifier
  · by_cases ha : target.text ∈ active
    · simp [Guard.cyclic, hk, ha]
    · simp only [Guard.cyclic, List.contains_eq_mem, hk, ha, decide_false, Bool.false_eq_true,
        if_true, if_false, dif_neg, not_false_eq_true]
      repeat' split
      all_goals simp_all [answer]
  · simp [hk]

theorem eval_planItems (root : Tree) (active : List Name) (ts : List (Label × Tree)) :
    (planItems active ts).eval (answer root) = convertItems (some root) active ts := by
  cases ts with
  | nil => rw [convertItems]; rfl
  | cons t ts =>
    rw [convertItems, planItems]
    split <;> simp [answer]

/-- **Conversion answers each call as its plan says.** -/
theorem eval_plan (root : Tree) (c : Call) :
    (plan .cyclic root c).eval (answer root) = answer root c := by
  obtain ⟨active, task⟩ := c
  cases task with
  | node t => exact eval_planNode root active t
  | reference name => exact eval_planReference root active name
  | members ms => exact eval_planMembers root active ms
  | member m => exact eval_planMember root active m
  | spread target => exact eval_planSpread root active target
  | items ts => exact eval_planItems root active ts

/-! ## Running plans with fuel -/

/-- The answer of a call under a guard, if it is found with the given fuel. -/
def run (guard : Guard) (root : Tree) : Nat → (c : Call) → Option (Except EscapeError c.Result)
  | 0, _ => none
  | fuel + 1, c => (plan guard root c).run (run guard root fuel)

/-- More fuel changes no answer. -/
theorem run_mono {guard : Guard} {root : Tree} {n m : Nat} (h : n ≤ m) {c : Call}
    {r : Except EscapeError c.Result} (hr : run guard root n c = some r) :
    run guard root m c = some r := by
  induction n generalizing m c with
  | zero => cases hr
  | succ n ih =>
    obtain ⟨m, rfl⟩ := Nat.exists_eq_add_one.2 (Nat.lt_of_lt_of_le n.succ_pos h)
    exact Plan.run_mono (fun c r hc => ih (Nat.le_of_succ_le_succ h) hc) hr

/-- A call has one answer, whatever the fuel it is found with. -/
theorem run_unique {guard : Guard} {root : Tree} {n m : Nat} {c : Call}
    {r r' : Except EscapeError c.Result} (h : run guard root n c = some r)
    (h' : run guard root m c = some r') : r = r' := by
  have hn := run_mono (Nat.le_max_left n m) h
  rw [run_mono (Nat.le_max_right n m) h'] at hn
  exact (Option.some.inj hn).symm

/-- There is a least fuel that a call is answered with. -/
theorem exists_least_run {guard : Guard} {root : Tree} {n : Nat} {c : Call}
    {r : Except EscapeError c.Result} (h : run guard root n c = some r) :
    ∃ m < n, run guard root m c = none ∧ run guard root (m + 1) c = some r := by
  induction n with
  | zero => cases h
  | succ n ih =>
    cases hn : run guard root n c with
    | none => exact ⟨n, n.lt_succ_self, hn, h⟩
    | some r' =>
      obtain rfl := run_unique h hn
      obtain ⟨m, hm, hleast⟩ := ih hn
      exact ⟨m, Nat.lt_succ_of_lt hm, hleast⟩

/-- What is found with fuel is what conversion answers. -/
theorem answer_of_run {root : Tree} {n : Nat} {c : Call} {r : Except EscapeError c.Result}
    (hr : run .cyclic root n c = some r) : answer root c = r := by
  induction n generalizing c with
  | zero => cases hr
  | succ n ih =>
    rw [← eval_plan]
    exact (Plan.makes_of_run (fun c _ r hc => ih hc) hr).1

end AgentFlow.Script
