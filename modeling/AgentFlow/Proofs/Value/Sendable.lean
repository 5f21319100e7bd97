import AgentFlow.Proofs.Value.Plain
import AgentFlow.Proofs.Value.Printable
import AgentFlow.Service.Response

/-!
# What can be sent

A text can be sent if it holds no half of a surrogate pair. Texts that are put together from such
ones are such ones, and so is the text of any value that is no text, for it is printable.

* `Text.isSendable_append`, `Text.isSendable_join`: texts that are put together.
* `Value.IsPlain.isSendable`: plain values can be sent.
-/

namespace AgentFlow

/-- Whether a code point is no half of a surrogate pair. -/
def CodePoint.isSendable : CodePoint → Bool
  | .char _ => true
  | .surrogate _ => false

theorem Text.isSendable_eq_all : isSendable = (List.all · CodePoint.isSendable) := rfl

theorem CodePoint.isSendable_of_isPrintable {p : CodePoint} (h : p.isPrintable = true) :
    p.isSendable = true := by
  cases p with
  | char c => rfl
  | surrogate u => cases h

namespace Text

@[simp] theorem isSendable_nil : isSendable [] = true := rfl

@[simp] theorem isSendable_char (c : Char) (t : Text) : isSendable (.char c :: t) = isSendable t :=
  rfl

@[simp] theorem isSendable_append (t u : Text) :
    (t ++ u).isSendable = (t.isSendable && u.isSendable) := List.all_append

@[simp] theorem isSendable_ofChars (cs : List Char) : (ofChars cs).isSendable = true := by
  rw [isSendable, ofChars, List.all_map]
  exact List.all_eq_true.2 fun _ _ => rfl

@[simp] theorem isSendable_ofString (s : String) : (ofString s).isSendable = true :=
  isSendable_ofChars _

@[simp] theorem isSendable_ofNat (n : Nat) : (ofNat n).isSendable = true := isSendable_ofChars _

@[simp] theorem isSendable_join {sep : Text} (h : sep.isSendable = true) (ts : List Text) :
    (join sep ts).isSendable = ts.all isSendable := all_join h ts

end Text

/-! ## Values -/

namespace Value

/-! ## Plain values -/

theorem areSendable_eq_all (vs : List Value) : areSendable vs = vs.all isSendable := by
  induction vs with
  | nil => rfl
  | cons v vs ih => rw [areSendable, ih, List.all_cons]

theorem entriesSendable_eq_all (es : Entries) :
    entriesSendable es = es.all fun e => e.1.isSendable && e.2.isSendable := by
  induction es with
  | nil => rfl
  | cons e es ih =>
    obtain ⟨k, v⟩ := e
    rw [entriesSendable, ih, List.all_cons]

/-- **Plain values can be sent.** -/
theorem IsPlain.isSendable {v : Value} (h : v.IsPlain) : v.isSendable = true := by
  induction h with
  | null | bool | int => rfl
  | float h => exact h
  | str cs => exact Text.isSendable_ofChars cs
  | list _ ih => exact (areSendable_eq_all _).trans (List.all_eq_true.2 ih)
  | map hk _ ih =>
    refine (entriesSendable_eq_all _).trans (List.all_eq_true.2 fun e he => ?_)
    obtain ⟨cs, hcs⟩ := hk.texts e he
    rw [hcs, ih e he]
    exact congrArg (· && true) (Text.isSendable_ofChars cs)

end Value

end AgentFlow
