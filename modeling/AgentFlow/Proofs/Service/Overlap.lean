import AgentFlow.Proofs.Service.History
import Mathlib.Data.List.Induction
import Mathlib.Logic.Function.Basic

/-!
# Requests that overlap

While a request waits for the index it has begun to fetch, others may come in. A task is one request
that needs the index, and takes its turns in any order with those of other tasks: in its first turn
it looks at what is kept, and if there is no index it begins a fetch and waits; in its second turn
it keeps what came of that. Nothing holds a task back from a fetch that another has begun, so there
are as many fetches as tasks that begin before the first index comes in.

* `Tasks.next_cases`: what one turn does.
* `step_eq_turns`: two turns of one task in a row are one step of the service.
* `Tasks.Accounted`: which tasks the fetches are for.
* `fetches_le_one_iff`: the index is fetched once at most just if no two fetches overlap.
* `one_index_unless_overlap`: that, and which index the answers are given from.
-/

namespace AgentFlow.Service

/-! ## Turns -/

/-- Where a task is: it has not looked for an index, it waits for what comes of its fetch, or it has
answered from an index. -/
inductive Stage where
  | ready
  | fetching
  | answered (index : AgentIndex)
  deriving DecidableEq

/-- What is kept, and where each of some tasks is. -/
structure Tasks (ι : Type) where
  kept : State
  stage : ι → Stage

/-- A turn of a task, with what comes of its fetch if the task waits for that. -/
structure Turn (ι : Type) where
  task : ι
  remote : Answer

section

variable {ι : Type}

/-- Tasks that have not begun. -/
def Tasks.fresh (initial : Option AgentIndex) : Tasks ι := ⟨⟨initial, 0⟩, fun _ => .ready⟩

variable [DecidableEq ι]

/-- A task takes its turn: it answers from the index that is kept, or it begins a fetch, or it keeps
what came of its fetch and answers from that. A task that has answered does nothing. -/
def Tasks.next (s : Tasks ι) (u : Turn ι) : Tasks ι :=
  match s.stage u.task, s.kept.index with
  | .ready, some index => ⟨s.kept, Function.update s.stage u.task (.answered index)⟩
  | .ready, none =>
    ⟨⟨none, s.kept.fetches + 1⟩, Function.update s.stage u.task .fetching⟩
  | .fetching, _ =>
    let index := u.remote.index
    ⟨⟨some index, s.kept.fetches⟩, Function.update s.stage u.task (.answered index)⟩
  | .answered _, _ => s

/-- Tasks take turns. -/
def Tasks.run (s : Tasks ι) (turns : List (Turn ι)) : Tasks ι := turns.foldl Tasks.next s

namespace Tasks

variable {s : Tasks ι} {u : Turn ι}

theorem next_of_kept {index : AgentIndex} (hs : s.stage u.task = .ready)
    (hk : s.kept.index = some index) :
    s.next u = ⟨s.kept, Function.update s.stage u.task (.answered index)⟩ := by
  simp only [next, hs, hk]

theorem next_of_none (hs : s.stage u.task = .ready) (hk : s.kept.index = none) :
    s.next u = ⟨⟨none, s.kept.fetches + 1⟩, Function.update s.stage u.task .fetching⟩ := by
  simp only [next, hs, hk]

theorem next_of_fetching (hs : s.stage u.task = .fetching) :
    s.next u = ⟨⟨some u.remote.index, s.kept.fetches⟩,
      Function.update s.stage u.task (.answered u.remote.index)⟩ := by
  simp only [next, hs]

theorem next_of_answered {index : AgentIndex} (hs : s.stage u.task = .answered index) :
    s.next u = s := by
  simp only [next, hs]

/-- **What one turn does.** -/
theorem next_cases (s : Tasks ι) (u : Turn ι) :
    (∃ index, s.stage u.task = .ready ∧ s.kept.index = some index ∧
      s.next u = ⟨s.kept, Function.update s.stage u.task (.answered index)⟩) ∨
    (s.stage u.task = .ready ∧ s.kept.index = none ∧
      s.next u = ⟨⟨none, s.kept.fetches + 1⟩, Function.update s.stage u.task .fetching⟩) ∨
    (s.stage u.task = .fetching ∧
      s.next u = ⟨⟨some u.remote.index, s.kept.fetches⟩,
        Function.update s.stage u.task (.answered u.remote.index)⟩) ∨
    s.next u = s := by
  cases hs : s.stage u.task with
  | ready =>
    cases hk : s.kept.index with
    | some index => exact .inl ⟨index, rfl, rfl, next_of_kept hs hk⟩
    | none => exact .inr (.inl ⟨rfl, rfl, next_of_none hs hk⟩)
  | fetching => exact .inr (.inr (.inl ⟨rfl, next_of_fetching hs⟩))
  | answered index => exact .inr (.inr (.inr (next_of_answered hs)))

theorem fetches_le_next (s : Tasks ι) (u : Turn ι) :
    s.kept.fetches ≤ (s.next u).kept.fetches := by
  rcases next_cases s u with ⟨index, -, -, hnext⟩ | ⟨-, -, hnext⟩ | ⟨-, hnext⟩ | hnext
  · exact Nat.le_of_eq (by rw [hnext])
  · rw [hnext]
    exact Nat.le_succ _
  · exact Nat.le_of_eq (by rw [hnext])
  · exact Nat.le_of_eq (by rw [hnext])

/-- A turn after which an index is kept has not begun a fetch. -/
theorem fetches_next_of_index (h : (s.next u).kept.index ≠ none) :
    (s.next u).kept.fetches = s.kept.fetches := by
  rcases next_cases s u with ⟨index, -, -, hnext⟩ | ⟨-, -, hnext⟩ | ⟨-, hnext⟩ | hnext
  · rw [hnext]
  · rw [hnext] at h
    exact absurd rfl h
  · rw [hnext]
  · rw [hnext]

/-- Once an index is kept there always is one. -/
theorem index_next (h : s.kept.index ≠ none) : (s.next u).kept.index ≠ none := by
  rcases next_cases s u with ⟨index, -, -, hnext⟩ | ⟨-, hk, -⟩ | ⟨-, hnext⟩ | hnext
  · rw [hnext]
    exact h
  · exact absurd hk h
  · rw [hnext]
    exact Option.some_ne_none _
  · rw [hnext]
    exact h

theorem run_snoc (s : Tasks ι) (turns : List (Turn ι)) (u : Turn ι) :
    s.run (turns ++ [u]) = (s.run turns).next u := by
  unfold run
  rw [List.foldl_append]
  rfl

/-- Where one task has moved on, a task is where that one has moved, or it is another one and is
where it was. -/
theorem update_cases {stage : ι → Stage} {t v : ι} {x y : Stage}
    (h : Function.update stage t x v = y) : v = t ∧ x = y ∨ v ≠ t ∧ stage v = y := by
  by_cases hv : v = t
  · subst hv
    rw [Function.update_self] at h
    exact .inl ⟨rfl, h⟩
  · rw [Function.update_of_ne hv] at h
    exact .inr ⟨hv, h⟩

theorem stage_of_update {stage : ι → Stage} {t v : ι} {x y : Stage}
    (h : Function.update stage t x v = y) (hx : x ≠ y) : stage v = y := by
  rcases update_cases h with ⟨_, hxy⟩ | ⟨_, hv⟩
  · exact absurd hxy hx
  · exact hv

end Tasks

/-- **Two turns of one task in a row are one step of the service**, for a request that needs the
index. -/
theorem step_eq_turns {request : Request} (h : request.needsIndex = true) (context : Context)
    {s : Tasks ι} {t : ι} (hs : s.stage t = .ready) :
    ∃ index, (s.run [⟨t, context.remote⟩, ⟨t, context.remote⟩]).stage t = .answered index ∧
      step context s.kept request
        = ((s.run [⟨t, context.remote⟩, ⟨t, context.remote⟩]).kept,
            response context.action index request) := by
  let u : Turn ι := ⟨t, context.remote⟩
  show ∃ index, ((s.next u).next u).stage t = .answered index ∧
    step context s.kept request = (((s.next u).next u).kept, response context.action index request)
  rw [step_eq, h, if_pos rfl]
  cases hk : s.kept.index with
  | some index =>
    have hfirst := Tasks.next_of_kept (u := u) hs hk
    have hstage : (s.next u).stage t = .answered index := by
      rw [hfirst]
      exact Function.update_self ..
    refine ⟨index, ?_, ?_⟩
    · rw [Tasks.next_of_answered hstage, hstage]
    · rw [Tasks.next_of_answered hstage, hfirst, State.fetched_of_some hk]
      rfl
  | none =>
    have hfirst := Tasks.next_of_none (u := u) hs hk
    have hstage : (s.next u).stage t = .fetching := by
      rw [hfirst]
      exact Function.update_self ..
    refine ⟨context.remote.index, ?_, ?_⟩
    · rw [Tasks.next_of_fetching hstage]
      exact Function.update_self ..
    · rw [Tasks.next_of_fetching hstage, hfirst, State.fetched_of_none hk]
      rfl

/-! ## Which tasks the fetches are for -/

/-- Each task that fetches has a fetch of its own. While no index is kept, there are no other
fetches, and no task has answered. -/
structure Tasks.Accounted (s : Tasks ι) : Prop where
  length_le : ∀ ts : List ι, ts.Nodup → (∀ t ∈ ts, s.stage t = .fetching) →
    ts.length ≤ s.kept.fetches
  exists_length : s.kept.index = none → ∃ ts : List ι, ts.Nodup ∧
    (∀ t ∈ ts, s.stage t = .fetching) ∧ ts.length = s.kept.fetches
  not_answered : s.kept.index = none → ∀ t index, s.stage t ≠ .answered index

namespace Tasks

omit [DecidableEq ι] in
theorem accounted_fresh (initial : Option AgentIndex) : Accounted (fresh initial : Tasks ι) where
  length_le := by
    intro ts _ hts
    cases ts with
    | nil => exact Nat.le_refl 0
    | cons t ts =>
      have ht := hts t List.mem_cons_self
      cases ht
  exists_length := fun _ => ⟨[], List.nodup_nil, by simp, rfl⟩
  not_answered := by
    intro _ t index ht
    cases ht

/-- A task that answers takes no fetch away from others. -/
private theorem Accounted.length_le_answer {s : Tasks ι} (h : s.Accounted) {t : ι}
    {index : AgentIndex} {ts : List ι} (hnodup : ts.Nodup)
    (hts : ∀ v ∈ ts, Function.update s.stage t (.answered index) v = .fetching) :
    ts.length ≤ s.kept.fetches :=
  h.length_le ts hnodup fun v hv => stage_of_update (hts v hv) (by simp)

/-- A task that begins to fetch has one fetch more. -/
private theorem Accounted.begin {s : Tasks ι} (h : s.Accounted) {t : ι}
    (hs : s.stage t = .ready) (hk : s.kept.index = none) :
    Accounted ⟨⟨none, s.kept.fetches + 1⟩, Function.update s.stage t .fetching⟩ where
  length_le := by
    intro ts hnodup hts
    have hrest : (ts.erase t).length ≤ s.kept.fetches := by
      refine h.length_le _ (hnodup.erase t) fun v hv => ?_
      obtain ⟨hne, hmem⟩ := hnodup.mem_erase_iff.1 hv
      exact (Function.update_of_ne hne _ _).symm.trans (hts v hmem)
    have hlen := List.length_erase (a := t) (l := ts)
    show ts.length ≤ s.kept.fetches + 1
    split at hlen <;> omega
  exists_length := by
    intro _
    obtain ⟨ts, hnodup, hts, hlen⟩ := h.exists_length hk
    have hnew : t ∉ ts := by
      intro ht
      have hfetching := hts t ht
      rw [hs] at hfetching
      cases hfetching
    refine ⟨t :: ts, List.nodup_cons.2 ⟨hnew, hnodup⟩, ?_, by simp [hlen]⟩
    intro v hv
    rcases List.mem_cons.1 hv with rfl | hv
    · exact Function.update_self ..
    · have hne : v ≠ t := fun hvt => hnew (hvt ▸ hv)
      exact (Function.update_of_ne hne _ _).trans (hts v hv)
  not_answered := by
    intro _ v index hv
    exact h.not_answered hk v index (stage_of_update hv (by simp))

/-- Every turn keeps the account. -/
theorem Accounted.next {s : Tasks ι} (h : s.Accounted) (u : Turn ι) : (s.next u).Accounted := by
  rcases next_cases s u with ⟨index, -, hk, hnext⟩ | ⟨hs, hk, hnext⟩ | ⟨-, hnext⟩ | hnext
  · rw [hnext]
    exact {
      length_le := fun ts hnodup hts => h.length_le_answer hnodup hts
      exists_length := fun hnone => by simp [hk] at hnone
      not_answered := fun hnone => by simp [hk] at hnone }
  · rw [hnext]
    exact h.begin hs hk
  · rw [hnext]
    exact {
      length_le := fun ts hnodup hts => h.length_le_answer hnodup hts
      exists_length := fun hnone => by cases hnone
      not_answered := fun hnone => by cases hnone }
  · rw [hnext]
    exact h

theorem Accounted.run {s : Tasks ι} (h : s.Accounted) (turns : List (Turn ι)) :
    (s.run turns).Accounted := by
  induction turns generalizing s with
  | nil => exact h
  | cons u turns ih => exact ih (h.next u)

/-! ## How many fetches there are -/

theorem fetches_le_run (s : Tasks ι) (turns : List (Turn ι)) :
    s.kept.fetches ≤ (s.run turns).kept.fetches := by
  induction turns generalizing s with
  | nil => exact Nat.le_refl _
  | cons u turns ih => exact Nat.le_trans (fetches_le_next s u) (ih (s.next u))

/-- Once an index is kept, no fetch begins any more. -/
theorem fetches_run_of_index {s : Tasks ι} (h : s.kept.index ≠ none) (turns : List (Turn ι)) :
    (s.run turns).kept.fetches = s.kept.fetches := by
  induction turns generalizing s with
  | nil => rfl
  | cons u turns ih =>
    have hindex := index_next (u := u) h
    exact (ih hindex).trans (fetches_next_of_index hindex)

/-- With one fetch at most, every answer is given from the index that is kept, and no task fetches
any more once there is one. -/
structure Settled (s : Tasks ι) : Prop where
  kept_of_answered : ∀ t index, s.stage t = .answered index → s.kept.index = some index
  none_of_fetching : ∀ t, s.stage t = .fetching → s.kept.index = none

omit [DecidableEq ι] in
theorem settled_fresh (initial : Option AgentIndex) : Settled (fresh initial : Tasks ι) where
  kept_of_answered := by
    intro t index ht
    cases ht
  none_of_fetching := by
    intro t ht
    cases ht

omit [DecidableEq ι] in
/-- Two tasks that fetch have two fetches. -/
theorem Accounted.two_le {s : Tasks ι} (h : s.Accounted) {t u : ι} (hne : t ≠ u)
    (ht : s.stage t = .fetching) (hu : s.stage u = .fetching) : 2 ≤ s.kept.fetches :=
  h.length_le [t, u] (by simp [hne]) (by simp [ht, hu])

theorem Settled.next {s : Tasks ι} (h : s.Settled) (haccounted : s.Accounted)
    (hone : s.kept.fetches ≤ 1) (u : Turn ι) : (s.next u).Settled := by
  rcases next_cases s u with ⟨index, -, hk, hnext⟩ | ⟨hs, hk, hnext⟩ | ⟨hs, hnext⟩ | hnext
  · rw [hnext]
    constructor
    · intro t other ht
      rcases update_cases ht with ⟨_, hanswered⟩ | ⟨_, hbefore⟩
      · rw [← Stage.answered.inj hanswered]
        exact hk
      · exact h.kept_of_answered t other hbefore
    · intro t ht
      exact h.none_of_fetching t (stage_of_update ht (by simp))
  · rw [hnext]
    constructor
    · intro t other ht
      exact absurd (stage_of_update ht (by simp)) (haccounted.not_answered hk t other)
    · intro t ht
      rfl
  · have hk := h.none_of_fetching u.task hs
    rw [hnext]
    constructor
    · intro t other ht
      rcases update_cases ht with ⟨_, hanswered⟩ | ⟨_, hbefore⟩
      · rw [← Stage.answered.inj hanswered]
      · exact absurd hbefore (haccounted.not_answered hk t other)
    · intro t ht
      rcases update_cases ht with ⟨_, hanswered⟩ | ⟨htu, hbefore⟩
      · cases hanswered
      · -- Another task that still fetches would have a fetch of its own.
        have htwo := haccounted.two_le htu hbefore hs
        omega
  · rw [hnext]
    exact h

end Tasks

section

variable (initial : Option AgentIndex) (turns : List (Turn ι))

private theorem accounted_run : ((Tasks.fresh initial).run turns).Accounted :=
  (Tasks.accounted_fresh initial).run turns

theorem settled_of_fetches_le_one (h : ((Tasks.fresh initial).run turns).kept.fetches ≤ 1) :
    ((Tasks.fresh initial).run turns).Settled := by
  induction turns using List.reverseRecOn with
  | nil => exact Tasks.settled_fresh initial
  | append_singleton turns u ih =>
    rw [Tasks.run_snoc] at h ⊢
    have hle := Tasks.fetches_le_next ((Tasks.fresh initial).run turns) u
    have hone : ((Tasks.fresh initial).run turns).kept.fetches ≤ 1 := by omega
    exact (ih hone).next (accounted_run initial turns) hone u

/-! ## When fetches overlap -/

/-- Whether two tasks wait for their fetches at the same time, at some point of a row of turns. -/
def Overlap : Prop :=
  ∃ before, before <+: turns ∧ ∃ t u, t ≠ u ∧
    ((Tasks.fresh initial).run before).stage t = .fetching ∧
    ((Tasks.fresh initial).run before).stage u = .fetching

theorem two_le_of_overlap (h : Overlap initial turns) :
    2 ≤ ((Tasks.fresh initial).run turns).kept.fetches := by
  obtain ⟨before, ⟨after, rfl⟩, t, u, hne, ht, hu⟩ := h
  have hbefore := (accounted_run initial before).two_le hne ht hu
  have hafter := Tasks.fetches_le_run ((Tasks.fresh initial).run before) after
  unfold Tasks.run at hbefore hafter ⊢
  rw [List.foldl_append]
  omega

/-- While no index is kept and no fetches overlap, one task fetches at most. -/
theorem fetches_le_one_of_none (h : ¬ Overlap initial turns)
    (hk : ((Tasks.fresh initial).run turns).kept.index = none) :
    ((Tasks.fresh initial).run turns).kept.fetches ≤ 1 := by
  obtain ⟨ts, hnodup, hts, hlen⟩ := (accounted_run initial turns).exists_length hk
  rw [← hlen]
  by_contra htwo
  obtain ⟨t, u, rest, rfl⟩ : ∃ t u rest, ts = t :: u :: rest := by
    match ts with
    | [] => simp at htwo
    | [t] => simp at htwo
    | t :: u :: rest => exact ⟨t, u, rest, rfl⟩
  have hne : t ≠ u := by
    rintro rfl
    simp at hnodup
  exact h ⟨turns, List.prefix_refl turns, t, u, hne, hts t (by simp), hts u (by simp)⟩

theorem fetches_le_one_of_not_overlap (h : ¬ Overlap initial turns) :
    ((Tasks.fresh initial).run turns).kept.fetches ≤ 1 := by
  induction turns using List.reverseRecOn with
  | nil => exact Nat.zero_le 1
  | append_singleton turns u ih =>
    have hbefore : ¬ Overlap initial turns := by
      rintro ⟨before, hprefix, hoverlap⟩
      exact h ⟨before, hprefix.trans (List.prefix_append turns [u]), hoverlap⟩
    by_cases hk : ((Tasks.fresh initial).run (turns ++ [u])).kept.index = none
    · exact fetches_le_one_of_none initial (turns ++ [u]) h hk
    · rw [Tasks.run_snoc] at hk ⊢
      rw [Tasks.fetches_next_of_index hk]
      exact ih hbefore

/-- **The index is fetched once at most just if no two fetches overlap.** -/
theorem fetches_le_one_iff :
    ((Tasks.fresh initial).run turns).kept.fetches ≤ 1 ↔ ¬ Overlap initial turns := by
  constructor
  · intro hone hoverlap
    have := two_le_of_overlap initial turns hoverlap
    omega
  · exact fetches_le_one_of_not_overlap initial turns

/-- A task answers from what came of its own fetch, or from the index that is kept at its turn. -/
theorem exists_turn_of_answered {t : ι} {index : AgentIndex}
    (h : ((Tasks.fresh initial).run turns).stage t = .answered index) :
    ∃ before u, before ++ [u] <+: turns ∧ u.task = t ∧
      (((Tasks.fresh initial).run before).stage t = .fetching ∧ u.remote.index = index ∨
        ((Tasks.fresh initial).run before).stage t = .ready ∧
          ((Tasks.fresh initial).run before).kept.index = some index) := by
  induction turns using List.reverseRecOn with
  | nil => cases h
  | append_singleton turns u ih =>
    have hearlier (h : ((Tasks.fresh initial).run turns).stage t = .answered index) :
        ∃ before v, before ++ [v] <+: turns ++ [u] ∧ v.task = t ∧
          (((Tasks.fresh initial).run before).stage t = .fetching ∧ v.remote.index = index ∨
            ((Tasks.fresh initial).run before).stage t = .ready ∧
              ((Tasks.fresh initial).run before).kept.index = some index) := by
      obtain ⟨before, v, hprefix, hv⟩ := ih h
      exact ⟨before, v, hprefix.trans (List.prefix_append turns [u]), hv⟩
    rw [Tasks.run_snoc] at h
    rcases Tasks.next_cases ((Tasks.fresh initial).run turns) u with
      ⟨other, hs, hk, hnext⟩ | ⟨-, -, hnext⟩ | ⟨hs, hnext⟩ | hnext
    · rw [hnext] at h
      rcases Tasks.update_cases h with ⟨rfl, hanswered⟩ | ⟨_, hbefore⟩
      · obtain rfl := Stage.answered.inj hanswered
        exact ⟨turns, u, List.prefix_refl _, rfl, .inr ⟨hs, hk⟩⟩
      · exact hearlier hbefore
    · rw [hnext] at h
      exact hearlier (Tasks.stage_of_update h (by simp))
    · rw [hnext] at h
      rcases Tasks.update_cases h with ⟨rfl, hanswered⟩ | ⟨_, hbefore⟩
      · exact ⟨turns, u, List.prefix_refl _, rfl, .inl ⟨hs, Stage.answered.inj hanswered⟩⟩
      · exact hearlier hbefore
    · rw [hnext] at h
      exact hearlier h

/-- **One index for all answers, unless fetches overlap.** However many tasks take their turns, in
whatever order, and whatever comes of their fetches: the index is fetched once at most just if no
two fetches overlap, and then all answers are given from the index that is kept. In any case no
fetch begins once an index is kept, and a task answers from what came of its own fetch or from the
index that is kept when it looks. -/
theorem one_index_unless_overlap :
    (((Tasks.fresh initial).run turns).kept.fetches ≤ 1 ↔ ¬ Overlap initial turns) ∧
    (¬ Overlap initial turns → ∀ t index,
      ((Tasks.fresh initial).run turns).stage t = .answered index →
        ((Tasks.fresh initial).run turns).kept.index = some index) ∧
    (∀ before, before <+: turns → ((Tasks.fresh initial).run before).kept.index ≠ none →
      ((Tasks.fresh initial).run turns).kept.fetches
        = ((Tasks.fresh initial).run before).kept.fetches) ∧
    ∀ t index, ((Tasks.fresh initial).run turns).stage t = .answered index →
      ∃ before u, before ++ [u] <+: turns ∧ u.task = t ∧
        (((Tasks.fresh initial).run before).stage t = .fetching ∧ u.remote.index = index ∨
          ((Tasks.fresh initial).run before).stage t = .ready ∧
            ((Tasks.fresh initial).run before).kept.index = some index) := by
  refine ⟨fetches_le_one_iff initial turns, ?_, ?_, ?_⟩
  · intro hoverlap
    have hone := fetches_le_one_of_not_overlap initial turns hoverlap
    exact (settled_of_fetches_le_one initial turns hone).kept_of_answered
  · rintro before ⟨after, rfl⟩ hindex
    have hafter := Tasks.fetches_run_of_index hindex after
    unfold Tasks.run at hafter ⊢
    rw [List.foldl_append]
    exact hafter
  · intro t index h
    exact exists_turn_of_answered initial turns h

end

end

/-- Two tasks that both look for an index before either has fetched one. The first fetch brings an
index without agents, the second brings none. -/
def racingTurns : List (Turn Bool) :=
  [⟨false, .unreachable⟩, ⟨true, .unreachable⟩,
    ⟨false, .response 200 "\x7b\"agents\": []\x7d"⟩, ⟨true, .unreachable⟩]

/-- Fetches that overlap may bring two indexes, and the answers differ. -/
theorem racingTurns_disagree :
    ((Tasks.fresh none).run racingTurns).kept.fetches = 2 ∧
      ((Tasks.fresh none).run racingTurns).stage false = .answered ⟨[]⟩ ∧
      ((Tasks.fresh none).run racingTurns).stage true = .answered AgentIndex.bundled ∧
      AgentIndex.bundled ≠ ⟨[]⟩ := by
  decide +kernel

end AgentFlow.Service
