import AgentFlow.Proofs.Script.Failure
import AgentFlow.Proofs.Script.Naming
import AgentFlow.Proofs.Service.Diagram

/-!
# Answers to requests for object literals

A request for the object literal at a place of a script is answered with its value, or refused if
there is no object literal at that place. The service fails only if the literal leads to a string
literal with an escape sequence for a number that no code point has. Of the parser nothing is asked
but that its trees are regular.

* `findValue_of_none`, `findValue_of_stumbles`, `findValue_of_not_stumbles`: what comes of a place
  in a script.
* `value_answered`: what comes of a request for an object literal.
-/

namespace AgentFlow.Service

open Script (treeOf)

/-! ## What comes of a place in a script -/

section

variable {parser : Script.Parser} {cs : List Char} (hregular : (parser cs).IsRegular)

include hregular

theorem fails_value_iff {p : Position} {t : Script.Tree}
    (ht : (Script.ofChars cs parser).objectAt? p = some t) :
    Fails ((Script.ofChars cs parser).value t) ↔ (parser cs).Stumbles t :=
  hregular.fails_convert_iff (Script.Tree.mem_preorder_of_innermostObject? ht)

variable {body : ObjectBody} {t : Script.Tree} (hsource : body.source.chars? = some cs)

omit hregular in
include hsource in
theorem findValue_of_none (hnone : (Script.ofChars cs parser).objectAt? body.position = none) :
    findValue parser body = ⟨404, .detail "No object found at cursor position.", none⟩ := by
  simp [findValue, hsource, Script.valueAt, hnone, Response.reject]

include hsource

/-- **The service fails on a literal that leads to such a string literal.** -/
theorem findValue_of_stumbles
    (ht : (Script.ofChars cs parser).objectAt? body.position = some t)
    (h : (parser cs).Stumbles t) : findValue parser body = .failure := by
  obtain ⟨e, he⟩ := (fails_value_iff hregular ht).2 h
  simp only [findValue, hsource, Script.valueAt, ht, he]
  rfl

/-- **The service fails on no other literal.** -/
theorem findValue_of_not_stumbles
    (ht : (Script.ofChars cs parser).objectAt? body.position = some t)
    (h : ¬ (parser cs).Stumbles t) :
    ∃ v, (Script.ofChars cs parser).value t = .ok v ∧ v.IsPlain ∧
      findValue parser body = ⟨200, .value (members [("value", v)]), none⟩ := by
  cases hv : (Script.ofChars cs parser).value t with
  | error e => exact absurd ((fails_value_iff hregular ht).1 ⟨e, hv⟩) h
  | ok v =>
    have hplain : v.IsPlain := Script.convert_isPlain hv
    refine ⟨v, rfl, hplain, ?_⟩
    simp only [findValue, hsource, Script.valueAt, ht, hv]
    simp [Bind.bind, Except.bind, Response.ofValue, members, Value.isSendable,
      Value.entriesSendable, hplain.isSendable]

end

/-! ## What comes of a request -/

/-- A request for an object literal is answered without anything that is kept. -/
theorem step_value (parser : Script.Parser) {context : Context} {s : State} {request : Request}
    {body : ObjectBody}
    (hdest : destination (request.method.flatMap CodePoint.upper) request.path = .route .value)
    (hbody : checkedBody ObjectBody.check request = .ok body) :
    step context s request parser = (s, share request.headers (findValue parser body)) := by
  rw [step_of_destination _ hdest rfl]
  simp only [answerRoute, hbody]
  rfl

/-- **What comes of a request for an object literal.** Let the parser give a regular tree, as
`treeOf` always does. The request changes nothing that is kept. If there is no object literal at the
place, it is refused. Else it is answered with the value of the innermost one, which is plain,
unless the literal leads to a string literal that cannot be read; that is all the service fails on,
for all nodes of a regular tree have the parts that are asked of them. -/
theorem value_answered {parser : Script.Parser} {context : Context} {s : State} {request : Request}
    {body : ObjectBody} {cs : List Char} (hregular : (parser cs).IsRegular)
    (hdest : destination (request.method.flatMap CodePoint.upper) request.path = .route .value)
    (hbody : checkedBody ObjectBody.check request = .ok body)
    (hsource : body.source.chars? = some cs) :
    ∃ r, step context s request parser = (s, r) ∧
      ((Script.ofChars cs parser).objectAt? body.position = none →
        r.status = 404 ∧ r.content = .detail "No object found at cursor position.") ∧
      (∀ t, (Script.ofChars cs parser).objectAt? body.position = some t →
        ((parser cs).Stumbles t → r = .failure) ∧
        (¬ (parser cs).Stumbles t → r.status = 200 ∧
          ∃ v, (Script.ofChars cs parser).value t = .ok v ∧ v.IsPlain ∧
            r.content = .value (members [("value", v)]))) ∧
      ((∀ t ∈ (parser cs).preorder, ¬ t.IsUnreadable) → r.status = 200 ∨ r.status = 404) ∧
      (treeOf cs).IsRegular := by
  have hanswer (t : Script.Tree) (ht : (Script.ofChars cs parser).objectAt? body.position = some t)
      (h : ¬ (parser cs).Stumbles t) :
      (share request.headers (findValue parser body)).status = 200 ∧
        ∃ v, (Script.ofChars cs parser).value t = .ok v ∧ v.IsPlain ∧
          (share request.headers (findValue parser body)).content
            = .value (members [("value", v)]) := by
    obtain ⟨v, hv, hplain, hfind⟩ := findValue_of_not_stumbles hregular hsource ht h
    rw [status_share, content_share, hfind]
    exact ⟨rfl, v, hv, hplain, rfl⟩
  refine ⟨_, step_value parser hdest hbody, fun hnone => ?_,
    fun t ht => ⟨fun h => ?_, hanswer t ht⟩, fun hreadable => ?_, Script.treeOf_isRegular cs⟩
  · rw [status_share, content_share, findValue_of_none hsource hnone]
    exact ⟨rfl, rfl⟩
  · rw [findValue_of_stumbles hregular hsource ht h, share_failure]
  · cases ht : (Script.ofChars cs parser).objectAt? body.position with
    | none => exact .inr (by rw [status_share, findValue_of_none hsource ht])
    | some t =>
      refine .inl (hanswer t ht fun h => ?_).1
      obtain ⟨l, hl, hunreadable⟩ :=
        h.exists_isUnreadable (Script.Tree.mem_preorder_of_innermostObject? ht)
      exact hreadable l hl hunreadable

/-- A script with the last code point in one literal, and the number behind it in another. -/
def lastAndBeyond : List Char :=
  "const g = \x7ba: \"\\u\x7b10FFFF\x7d\"\x7d, h = \x7bb: \"\\u\x7b110000\x7d\"\x7d;".toList

/-- A request for the object literal at a column of that script. -/
def lastAndBeyondRequest (column : String) : Request where
  method := "POST"
  path := "/api/objects/value"
  headers := [("content-type", "application/json")]
  body := utf8Bytes
    ("\x7b\"source\": \"const g = \x7ba: \\\"\\\\u\x7b10FFFF\x7d\\\"\x7d, ".toList ++
      "h = \x7bb: \\\"\\\\u\x7b110000\x7d\\\"\x7d;\", ".toList ++
      "\"position\": \x7b\"line\": 0, \"character\": ".toList ++ column.toList ++ "\x7d\x7d".toList)

section

open Script Tree

/-- An object literal with an escape sequence as its only member. -/
def escapeLiteral (start : Nat) (key : Char) (escape : List Char) : Tree :=
  let value : Tree := .node .string (start + 4) (start + 6 + escape.length) ('"' :: escape ++ ['"'])
    [(.plain, leafAt .escape (start + 5) escape)]
  let member := pairOf (leafAt .propertyName (start + 1) [key]) value
  .node .object start (member.stop + 1) ('\x7b' :: member.text ++ ['\x7d']) [(.plain, member)]

/-- The variable that is defined as an object literal. -/
def variableOf (start : Nat) (name : Char) (literal : Tree) : Tree :=
  .node .declarator start literal.stop (name :: " = ".toList ++ literal.text)
    [(.name, leafAt .identifier start [name]), (.value, literal)]

def lastLiteral : Tree := escapeLiteral 10 'a' "\\u\x7b10FFFF\x7d".toList

def beyondLiteral : Tree := escapeLiteral 33 'b' "\\u\x7b110000\x7d".toList

def lastAndBeyondTree : Tree :=
  .node .other 0 51 lastAndBeyond [(.plain, .node .other 0 50 lastAndBeyond.dropLast
    [(.plain, variableOf 6 'g' lastLiteral), (.plain, variableOf 29 'h' beyondLiteral)])]

theorem treeOf_lastAndBeyond : treeOf lastAndBeyond = lastAndBeyondTree := (rfl)

theorem objectAt?_lastAndBeyond :
    (Script.ofChars lastAndBeyond).objectAt? ⟨0, 11⟩ = some lastLiteral ∧
      (Script.ofChars lastAndBeyond).objectAt? ⟨0, 34⟩ = some beyondLiteral := by
  rw [Script.ofChars, treeOf_lastAndBeyond]
  exact ⟨rfl, rfl⟩

theorem value_lastLiteral : (Script.ofChars lastAndBeyond).value lastLiteral =
    .ok (.map [(.str "a", .str [.char (Char.ofNat 0x10FFFF)])]) := by
  rw [Script.ofChars, treeOf_lastAndBeyond]
  have hrun : Script.run .cyclic lastAndBeyondTree 5 ⟨[], .node lastLiteral⟩ =
      some (.ok (.map [(.str "a", .str [.char (Char.ofNat 0x10FFFF)])])) := rfl
  exact answer_of_run hrun

theorem value_beyondLiteral : (Script.ofChars lastAndBeyond).value beyondLiteral =
    .error (.noCodePoint 0x110000) := by
  rw [Script.ofChars, treeOf_lastAndBeyond]
  have hrun : Script.run .cyclic lastAndBeyondTree 5 ⟨[], .node beyondLiteral⟩ =
      some (.error (.noCodePoint 0x110000)) := rfl
  exact answer_of_run hrun

theorem destination_lastAndBeyond (column : String) :
    destination ((lastAndBeyondRequest column).method.flatMap CodePoint.upper)
      (lastAndBeyondRequest column).path = .route .value := by
  have h : destination (("POST" : Text).flatMap CodePoint.upper) "/api/objects/value"
      = .route .value := by decide +kernel
  exact h

/-- The last code point stands for itself. -/
theorem lastRequest_answered :
    checkedBody ObjectBody.check (lastAndBeyondRequest "11")
        = .ok ⟨Text.ofChars lastAndBeyond, ⟨0, 11⟩⟩ ∧
      ∀ context s, ∃ r, step context s (lastAndBeyondRequest "11") = (s, r) ∧ r.status = 200 ∧
        r.content = .value
          (members [("value", .map [(.str "a", .str [.char (Char.ofNat 0x10FFFF)])])]) := by
  have hbody : checkedBody ObjectBody.check (lastAndBeyondRequest "11")
      = .ok ⟨Text.ofChars lastAndBeyond, ⟨0, 11⟩⟩ := eq_ok_of_toOption (by decide +kernel)
  refine ⟨hbody, fun context s => ?_⟩
  obtain ⟨r, hstep, -, hsome, -, -⟩ := @value_answered treeOf context s _ _ _
    (treeOf_isRegular lastAndBeyond) (destination_lastAndBeyond "11") hbody
    (Text.chars?_ofChars lastAndBeyond)
  have hobject := objectAt?_lastAndBeyond.1
  have hreadable : ¬ (treeOf lastAndBeyond).Stumbles lastLiteral := by
    rw [← fails_value_iff (treeOf_isRegular lastAndBeyond) hobject, value_lastLiteral]
    simp
  obtain ⟨hstatus, v, hv, -, hcontent⟩ := (hsome lastLiteral hobject).2 hreadable
  obtain rfl := Except.ok.inj (value_lastLiteral.symm.trans hv)
  exact ⟨r, hstep, hstatus, hcontent⟩

/-- The service fails on the number behind the last code point, though all tokens of the script fit
the grammar. -/
theorem beyondRequest_fails :
    destination ((lastAndBeyondRequest "34").method.flatMap CodePoint.upper)
        (lastAndBeyondRequest "34").path = .route .value ∧
      checkedBody ObjectBody.check (lastAndBeyondRequest "34")
        = .ok ⟨Text.ofChars lastAndBeyond, ⟨0, 34⟩⟩ ∧
      (∀ t ∈ (treeOf lastAndBeyond).preorder, t.kind ≠ .broken) ∧
      ∀ context s, step context s (lastAndBeyondRequest "34") = (s, .failure) := by
  have hbody : checkedBody ObjectBody.check (lastAndBeyondRequest "34")
      = .ok ⟨Text.ofChars lastAndBeyond, ⟨0, 34⟩⟩ := eq_ok_of_toOption (by decide +kernel)
  have hobject := objectAt?_lastAndBeyond.2
  have hstumbles : (treeOf lastAndBeyond).Stumbles beyondLiteral :=
    (fails_value_iff (treeOf_isRegular lastAndBeyond) hobject).1 ⟨_, value_beyondLiteral⟩
  refine ⟨destination_lastAndBeyond "34", hbody, ?_, fun context s => ?_⟩
  · have hkinds : (treeOf lastAndBeyond).preorder.all (·.kind != .broken) = true := by
      rw [treeOf_lastAndBeyond]
      rfl
    simpa using hkinds
  · have hsource : (ObjectBody.mk (Text.ofChars lastAndBeyond) ⟨0, 34⟩).source.chars?
        = some lastAndBeyond := Text.chars?_ofChars lastAndBeyond
    rw [step_value treeOf (destination_lastAndBeyond "34") hbody,
      findValue_of_stumbles (treeOf_isRegular lastAndBeyond) hsource hobject hstumbles,
      share_failure]

end

end AgentFlow.Service
