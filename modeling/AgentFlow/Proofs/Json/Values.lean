import AgentFlow.Json.Reader
import AgentFlow.Proofs.Outcome
import AgentFlow.Proofs.Value.Plain

/-!
# What JSON text holds

Whatever a JSON text is read as, its mappings have distinct texts as keys, at all depths; floats
need not be finite and texts may hold half of a surrogate pair.

* `Value.IsJson`: the values that JSON text holds.
* `isJson_value`: a value that is read is one of them.
* `isJson_of_read`: so is the value of a whole text.
-/

namespace AgentFlow

/-- The values that JSON text holds. -/
inductive Value.IsJson : Value → Prop
  | null : IsJson .null
  | bool (b : Bool) : IsJson (.bool b)
  | int (n : Int) : IsJson (.int n)
  | float (x : Double) : IsJson (.float x)
  | str (t : Text) : IsJson (.str t)
  | list {vs : List Value} (h : ∀ v ∈ vs, IsJson v) : IsJson (.list vs)
  | map {es : Entries} (hk : es.HasTextKeys) (hv : ∀ e ∈ es, IsJson e.2) : IsJson (.map es)

namespace Json

theorem isJson_of_mem_words {w : Text × Value} (h : w ∈ words) : w.2.IsJson := by
  simp only [words, List.mem_cons, List.not_mem_nil, or_false] at h
  rcases h with rfl | rfl | rfl | rfl | rfl | rfl
  · exact .null
  · exact .bool true
  · exact .bool false
  all_goals exact .float _

theorem isJson_magnitude {negative : Bool} {t rest : Text} {v : Value}
    (h : magnitude? negative t = some (.ok (v, rest))) : v.IsJson := by
  obtain ⟨⟨whole, after⟩, -, h⟩ := Option.bind_eq_some_iff.1 h
  dsimp only at h
  split at h
  · split at h
    · cases h
    · cases h
      exact .int _
  · cases h
    exact .float _

theorem isJson_scalar {t rest : Text} {v : Value} (h : scalar t = .ok (v, rest)) : v.IsJson := by
  unfold scalar at h
  split at h
  case h_1 w u hw =>
    cases h
    exact isJson_of_mem_words (List.mem_of_find?_eq_some hw)
  case h_2 =>
    dsimp only at h
    split at h
    case h_1 reading hreading =>
      subst h
      split at hreading <;> exact isJson_magnitude hreading
    case h_2 => cases h

/-- Values with distinct keys put together are a mapping that JSON text holds. -/
theorem isJson_putAll {es : Entries} (hk : ∀ e ∈ es, ∃ t, e.1 = .str t)
    (hv : ∀ e ∈ es, e.2.IsJson) : Value.IsJson (.map (Entries.putAll [] es)) :=
  .map (Entries.hasTextKeys_nil.putAll hk) (Entries.forall_putAll (by simp) hv)

/-- A value that is read is one that JSON text holds, and so are the items of a list and the
members of a mapping, whose names are texts. -/
theorem isJson_value (fuel : Nat) :
    (∀ t v rest, value fuel t = .ok (v, rest) → v.IsJson) ∧
    (∀ t vs rest, items fuel t = .ok (vs, rest) → ∀ v ∈ vs, v.IsJson) ∧
    ∀ t es rest, members fuel t = .ok (es, rest) →
      (∀ e ∈ es, ∃ name, e.1 = .str name) ∧ ∀ e ∈ es, e.2.IsJson := by
  induction fuel with
  | zero =>
    refine ⟨fun t v rest h => ?_, fun t vs rest h => ?_, fun t es rest h => ?_⟩ <;> cases h
  | succ fuel ih =>
    obtain ⟨hvalue, hitems, hmembers⟩ := ih
    refine ⟨fun t v rest h => ?_, fun t vs rest h => ?_, fun t es rest h => ?_⟩
    · unfold value at h
      split at h
      case h_1 =>
        obtain ⟨⟨s, after⟩, -, h⟩ := exists_of_bind_eq_ok h
        cases h
        exact .str s
      case h_2 =>
        split at h
        · cases h
          exact .list (by simp)
        · obtain ⟨⟨vs, after⟩, hvs, h⟩ := exists_of_bind_eq_ok h
          cases h
          exact .list (hitems _ vs _ hvs)
      case h_3 =>
        split at h
        · cases h
          exact .map Entries.hasTextKeys_nil (by simp)
        · obtain ⟨⟨es, after⟩, hes, h⟩ := exists_of_bind_eq_ok h
          cases h
          obtain ⟨hk, hv⟩ := hmembers _ es _ hes
          exact isJson_putAll hk hv
      case h_4 => exact isJson_scalar h
    · obtain ⟨⟨v, after⟩, hv, h⟩ := exists_of_bind_eq_ok h
      have hfirst := hvalue t v after hv
      dsimp only at h
      split at h
      · cases h
        simpa using hfirst
      · obtain ⟨⟨more, after⟩, hmore, h⟩ := exists_of_bind_eq_ok h
        cases h
        exact List.forall_mem_cons.2 ⟨hfirst, hitems _ more _ hmore⟩
      · cases h
    · unfold members at h
      split at h
      case h_2 => cases h
      obtain ⟨⟨name, after⟩, -, h⟩ := exists_of_bind_eq_ok h
      dsimp only at h
      split at h
      case h_2 => cases h
      obtain ⟨⟨v, after⟩, hv, h⟩ := exists_of_bind_eq_ok h
      have hfirst := hvalue _ v after hv
      dsimp only at h
      split at h
      · cases h
        exact ⟨by simp, by simpa using hfirst⟩
      · obtain ⟨⟨more, after⟩, hmore, h⟩ := exists_of_bind_eq_ok h
        cases h
        obtain ⟨hk, hv⟩ := hmembers _ more _ hmore
        exact ⟨List.forall_mem_cons.2 ⟨⟨name, rfl⟩, hk⟩, List.forall_mem_cons.2 ⟨hfirst, hv⟩⟩
      · cases h

/-- The value of a JSON text is one that JSON text holds. -/
theorem isJson_of_read {t : Text} {v : Value} (h : read t = .ok v) : v.IsJson := by
  have hall : readAll t = .ok v := mapError_eq_ok_iff.1 h
  unfold readAll at hall
  split at hall
  · cases hall
  · obtain ⟨⟨u, rest⟩, hu, hall⟩ := exists_of_bind_eq_ok hall
    dsimp only at hall
    split at hall
    · cases hall
      exact (isJson_value _).1 _ _ rest hu
    · cases hall

end Json

end AgentFlow
