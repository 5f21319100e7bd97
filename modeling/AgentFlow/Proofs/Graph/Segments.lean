import AgentFlow.Proofs.Graph.Reference
import AgentFlow.Proofs.Text.Split

/-!
# References are read back

What follows the colon of a reference is cut into segments: the id of a node and a path. Joined with
dots, they are the reference again, so nothing is lost when a value is taken for a source.

* `IsBoundary`: where one segment ends and the next one begins. `isBoundary_segments_iff`: those are
  the dots that cut, whatever stands around them.
* `ofValue_of_isReference`, `ofValue_of_not_isReference`: the sources that values stand for.
  `ofValue_injective`: no two values stand for the same one.
* `ofValue_reversible`: all of this for any value.
-/

namespace AgentFlow

namespace DataSource

variable {opened : Bool} {p : CodePoint} {t body part : Text} {parts : List Text} {i : Nat}
  {v w : Value}

/-! ## Boundaries of segments -/

/-- Whether one segment ends and the next one begins at an index of the joined text. -/
def IsBoundary (segments : List Text) (i : Nat) : Prop :=
  ∃ front behind, front ≠ [] ∧ behind ≠ [] ∧ segments = front ++ behind ∧
    (Text.join "." front).length = i

theorem length_join_cons {front : List Text} (h : front ≠ []) :
    (Text.join "." (part :: front)).length = part.length + 1 + (Text.join "." front).length := by
  rw [show Text.ofString "." = [.char '.'] from rfl, Text.join_cons h, List.length_append,
    List.length_cons]
  omega

theorem not_isBoundary_nil : ¬ IsBoundary [] i := by
  rintro ⟨front, behind, hfront, -, hsplit, -⟩
  exact hfront (List.append_eq_nil_iff.1 hsplit.symm).1

theorem isBoundary_cons : IsBoundary (part :: parts) i ↔
    (parts ≠ [] ∧ i = part.length) ∨ ∃ j, IsBoundary parts j ∧ i = part.length + 1 + j := by
  constructor
  · rintro ⟨front, behind, hfront, hbehind, hsplit, rfl⟩
    obtain ⟨first, front, rfl⟩ := List.exists_cons_of_ne_nil hfront
    obtain ⟨rfl, rfl⟩ := List.cons.inj hsplit
    by_cases hfront : front = []
    · refine .inl ⟨by simp [hbehind], ?_⟩
      rw [hfront, Text.join_singleton]
    · exact .inr ⟨_, ⟨front, behind, hfront, hbehind, rfl, rfl⟩, length_join_cons hfront⟩
  · rintro (⟨hparts, rfl⟩ | ⟨j, ⟨front, behind, hfront, hbehind, rfl, rfl⟩, rfl⟩)
    · exact ⟨[part], parts, List.cons_ne_nil _ _, hparts, rfl, by rw [Text.join_singleton]⟩
    · exact ⟨part :: front, behind, List.cons_ne_nil _ _, hbehind, rfl, length_join_cons hfront⟩

/-- A point in front of the first segment moves all boundaries by one. -/
theorem isBoundary_cons_cons :
    IsBoundary ((p :: part) :: parts) i ↔ ∃ j, IsBoundary (part :: parts) j ∧ i = j + 1 := by
  simp only [isBoundary_cons, List.length_cons]
  constructor
  · rintro (⟨hparts, rfl⟩ | ⟨j, hj, rfl⟩)
    · exact ⟨_, .inl ⟨hparts, rfl⟩, rfl⟩
    · exact ⟨_, .inr ⟨j, hj, rfl⟩, by omega⟩
  · rintro ⟨_, ⟨hparts, rfl⟩ | ⟨j, hj, rfl⟩, rfl⟩
    · exact .inl ⟨hparts, rfl⟩
    · exact .inr ⟨j, hj, by omega⟩

/-- A point that does not cut belongs to the first segment of what follows it. -/
theorem exists_segments_cons (h : ¬ isCut opened (p :: t) 0 = true) :
    ∃ part parts, segments (p = .char '(') t = part :: parts ∧
      segments opened (p :: t) = (p :: part) :: parts := by
  obtain ⟨part, parts, hsegments⟩ := List.exists_cons_of_ne_nil (segments_ne_nil (p = .char '(') t)
  exact ⟨part, parts, hsegments, by rw [segments, if_neg (mt isCut_zero.2 h), hsegments]⟩

/-- **The segments of a text meet at the dots that cut it.** -/
theorem isBoundary_segments_iff :
    IsBoundary (segments opened t) i ↔ isCut opened t i = true := by
  induction t generalizing opened i with
  | nil => simp [segments, isBoundary_cons, not_isBoundary_nil, isCut]
  | cons p t ih =>
    by_cases hcut : isCut opened (p :: t) 0 = true
    · rw [segments, if_pos (isCut_zero.1 hcut), isBoundary_cons]
      obtain rfl := (isCut_zero.1 hcut).1
      cases i with
      | zero => simp [segments_ne_nil, hcut]
      | succ i => simp [isCut_succ, ih, Nat.add_comm 1]
    · obtain ⟨part, parts, hsegments, htext⟩ := exists_segments_cons hcut
      rw [htext, isBoundary_cons_cons, ← hsegments]
      cases i with
      | zero => simp [hcut]
      | succ i => simp [isCut_succ, ih]

/-! ## Values and their sources -/

/-- Whether a value is a reference: a colon, and a text without line feeds behind it. -/
def IsReference (v : Value) (body : Text) : Prop :=
  v = .str (.char ':' :: body) ∧ .char '\n' ∉ body

theorem referenceBody?_eq_some_iff :
    referenceBody? t = some body ↔ IsReference (.str t) body := by
  constructor
  · intro h
    have hline := lineFeed_not_mem_referenceBody? h
    unfold referenceBody? at h
    split at h
    case h_1 =>
      split at h
      case isTrue => cases h
      case isFalse =>
        cases h
        exact ⟨rfl, hline⟩
    case h_2 => cases h
  · rintro ⟨h, hline⟩
    cases h
    exact if_neg (mt List.contains_iff_mem.1 hline)

/-- A reference stands for the node and the path that its segments name. -/
theorem ofValue_of_isReference (h : IsReference v body) :
    ∃ id path, ofValue v = .node id path ∧ segments false body = id :: path := by
  obtain ⟨id, path, hsegments⟩ := List.exists_cons_of_ne_nil (segments_ne_nil false body)
  refine ⟨id, path, ?_, hsegments⟩
  obtain ⟨rfl, hline⟩ := h
  have hbody := referenceBody?_eq_some_iff.2 ⟨rfl, hline⟩
  simp only [ofValue, hbody, ofBody, hsegments]

/-- Every other value stands for itself. -/
theorem ofValue_of_not_isReference (h : ∀ body, ¬ IsReference v body) : ofValue v = .literal v := by
  cases v with
  | str t =>
    have hbody : referenceBody? t = none :=
      Option.eq_none_iff_forall_ne_some.2 fun body hbody =>
        h body (referenceBody?_eq_some_iff.1 hbody)
    rw [ofValue, hbody]
  | _ => rfl

/-- The value that a source came from. -/
def toValue : DataSource → Value
  | .node id path => .str (.char ':' :: Text.join "." (id :: path))
  | .literal v => v

/-- **A source tells the value it came from.** -/
theorem toValue_ofValue (v : Value) : (ofValue v).toValue = v := by
  by_cases h : ∃ body, IsReference v body
  · obtain ⟨body, hbody⟩ := h
    obtain ⟨id, path, hsource, hsegments⟩ := ofValue_of_isReference hbody
    have hjoin : Text.join "." (id :: path) = body := hsegments ▸ join_segments false body
    rw [hsource, toValue, hjoin, hbody.1]
  · rw [ofValue_of_not_isReference (not_exists.1 h), toValue]

theorem ofValue_injective : Function.Injective ofValue :=
  Function.LeftInverse.injective toValue_ofValue

/-- **Reading a reference can be undone.** A reference is the source of a node: a colon, the id and
the path of which are the reference again, they meet at the dots that cut it, and there is no path
just if there are none. Every other value stands for itself, and no two values for the same. -/
theorem ofValue_reversible (v : Value) :
    (∀ body, IsReference v body → ∃ id path, ofValue v = .node id path ∧
      v = .str (.char ':' :: Text.join "." (id :: path)) ∧
      (∀ i, IsBoundary (id :: path) i ↔ isCut false body i = true) ∧
      (path = [] ↔ ¬ ∃ i, isCut false body i = true)) ∧
    ((∀ body, ¬ IsReference v body) → ofValue v = .literal v) ∧
    ∀ w, w ≠ v → ofValue w ≠ ofValue v := by
  refine ⟨fun body hbody => ?_, ofValue_of_not_isReference, fun w hne => ofValue_injective.ne hne⟩
  obtain ⟨id, path, hsource, hsegments⟩ := ofValue_of_isReference hbody
  have hcuts (i : Nat) : IsBoundary (id :: path) i ↔ isCut false body i = true := by
    rw [← hsegments, isBoundary_segments_iff]
  refine ⟨id, path, hsource, ?_, hcuts, ?_⟩
  · have hvalue := toValue_ofValue v
    rw [hsource] at hvalue
    exact hvalue.symm
  · simp only [← hcuts, isBoundary_cons]
    cases path with
    | nil => simp [not_isBoundary_nil]
    | cons _ _ => simp

/-- A reference with a call, an empty segment and a dot between parentheses. -/
theorem ofValue_reversible_call :
    let v := Value.str (Text.ofString ":a.b(.).c..d")
    let body := Text.ofString "a.b(.).c..d"
    IsReference v body ∧
    ofValue v = .node (Text.ofString "a") (["b(.)", "c", "", "d"].map Text.ofString) ∧
    ∃ id path, ofValue v = .node id path ∧ v = .str (.char ':' :: Text.join "." (id :: path)) ∧
      (∀ i, IsBoundary (id :: path) i ↔ isCut false body i = true) ∧
      (path = [] ↔ ¬ ∃ i, isCut false body i = true) := by
  intro v body
  have hreference : IsReference v body := ⟨rfl, by decide⟩
  exact ⟨hreference, rfl, (ofValue_reversible v).1 body hreference⟩

end DataSource

end AgentFlow
