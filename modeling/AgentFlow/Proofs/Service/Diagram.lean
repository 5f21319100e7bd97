import AgentFlow.Proofs.Graph.Drawable
import AgentFlow.Proofs.Graph.Flowchart
import AgentFlow.Service.Step

/-!
# Answers to requests for flowcharts

A request for the flowchart of a document is answered with the flowchart, or with the reason why
there is none. The service fails on four kinds of documents only: a fault of YAML text is not
reported, or what is said about it cannot be sent, or the drawing comes to no end, or the flowchart
cannot be sent.

* `DiagramBody.Breaks`: the documents that the service fails on.
* `exists_loadMessage`: what is said about a document can be sent, faults of YAML text apart.
* `drawDiagram_of_breaks`, `drawDiagram_of_not_breaks`: what comes of a document.
* `diagram_answered`: what comes of a request for a flowchart.
-/

namespace AgentFlow

namespace Service

/-! ## What is said about a document -/

theorem isSendable_jsonMessage (code : Text) (e : Json.Error) :
    (e.message code).isSendable = true := by
  cases e with
  | fault cause index => cases cause <;> simp [Json.Error.message, Json.Cause.message]
  | integerTooLong n => simp [Json.Error.message]

/-- What is said about a document can be sent, unless it is a fault of YAML text. -/
theorem exists_loadMessage (code : Text) {e : LoadError} (hyaml : ∀ f, e ≠ .yaml f) :
    ∃ m, loadMessage? code e = some m ∧ m.isSendable = true := by
  cases e with
  | json e => exact ⟨_, rfl, isSendable_jsonMessage code e⟩
  | yaml f => exact absurd rfl (hyaml f)
  | problems ps =>
    refine ⟨_, rfl, ?_⟩
    rw [Problem.summary]
    split <;> simp
  | unshowable => exact ⟨_, rfl, by simp [Value.unshowableMessage]⟩

/-- The documents that the service fails on. -/
inductive DiagramBody.Breaks (body : DiagramBody) : Prop
  /-- Nothing is said about the fault of a YAML text. -/
  | unreported {f : Yaml.Fault} (load : Graph.load body.language body.code = .error (.yaml f))
    (fault : isReported f = false)
  /-- What is said about the fault of a YAML text quotes half of a surrogate pair. -/
  | unsendable {f : Yaml.Fault} (load : Graph.load body.language body.code = .error (.yaml f))
    (message : f.message.isSendable = false)
  /-- A graph looks for references in a collection that holds itself. -/
  | endless {g : Graph} (load : Graph.load body.language body.code = .ok g)
    (draw : drawsForever body.language body.code = true)
  /-- An id, an agent or a reference of a graph holds half of a surrogate pair. -/
  | undrawable {g : Graph} (language : isGraphLanguage body.language = true)
    (load : Graph.load body.language body.code = .ok g) (shown : g.isShowable = true)
    (texts : g.isDrawable = false)

/-! ## What comes of a document -/

theorem isSendable_of_isGraphLanguage {language : Text} (h : isGraphLanguage language = true) :
    language.isSendable = true := by
  rw [isGraphLanguage, Bool.or_eq_true, beq_iff_eq, beq_iff_eq] at h
  rcases h with rfl | rfl <;> rfl

/-- The response with a flowchart. -/
theorem ofValue_diagram (chart : Text) :
    Response.ofValue (members [("mermaid", .str chart)])
      = if chart.isSendable then ⟨200, .value (members [("mermaid", .str chart)]), none⟩
        else .failure := by
  have hmembers : (members [("mermaid", .str chart)]).isSendable = chart.isSendable := by
    simp [members, Value.isSendable, Value.entriesSendable]
  rw [Response.ofValue, hmembers]

theorem drawDiagram_of_drawsForever {body : DiagramBody} {g : Graph}
    (hload : Graph.load body.language body.code = .ok g)
    (hforever : drawsForever body.language body.code = true) : drawDiagram body = .failure := by
  rw [drawDiagram, flowchartOf_eq_yaml_iff.2 (.inr ⟨rfl, hforever, g, hload⟩)]
  rfl

/-- **The service fails on a document that it is said to fail on.** -/
theorem drawDiagram_of_breaks {body : DiagramBody} (h : body.Breaks) :
    drawDiagram body = .failure := by
  cases h with
  | unreported hload hfault =>
    rw [drawDiagram, flowchartOf_eq_yaml_iff.2 (.inl hload)]
    simp [loadMessage?, hfault]
  | @unsendable f hload hmessage =>
    rw [drawDiagram, flowchartOf_eq_yaml_iff.2 (.inl hload)]
    cases hfault : isReported f <;>
      simp [loadMessage?, hfault, Response.reject, hmessage]
  | endless hload hforever => exact drawDiagram_of_drawsForever hload hforever
  | @undrawable g hlanguage hload hshown htexts =>
    cases hforever : drawsForever body.language body.code with
    | true => exact drawDiagram_of_drawsForever hload hforever
    | false =>
      rw [drawDiagram, flowchartOf_eq_ok_iff.2 (.inr ⟨hlanguage, g, hload, hforever, hshown, rfl⟩)]
      simp [ofValue_diagram, g.isSendable_flowchart, htexts]

section

variable {body : DiagramBody} (h : ¬ body.Breaks)

include h

theorem isSendable_of_not_breaks {chart : Text}
    (hdraw : flowchartOf body.language body.code = .ok chart) : chart.isSendable = true := by
  rcases flowchartOf_eq_ok_iff.1 hdraw with ⟨-, rfl⟩ | ⟨hlanguage, g, hload, -, hshown, rfl⟩
  · rfl
  · rw [g.isSendable_flowchart]
    cases htexts : g.isDrawable with
    | false => exact absurd (.undrawable hlanguage hload hshown htexts) h
    | true => rfl

theorem exists_message_of_not_breaks {e : LoadError}
    (hdraw : flowchartOf body.language body.code = .error e) :
    ∃ m, loadMessage? body.code e = some m ∧ m.isSendable = true := by
  by_cases hyaml : ∃ f, e = .yaml f
  · obtain ⟨f, rfl⟩ := hyaml
    rcases flowchartOf_eq_yaml_iff.1 hdraw with hload | ⟨-, hforever, g, hload⟩
    · cases hfault : isReported f with
      | false => exact absurd (.unreported hload hfault) h
      | true =>
        refine ⟨f.message, by simp [loadMessage?, hfault], ?_⟩
        cases hmessage : f.message.isSendable with
        | false => exact absurd (.unsendable hload hmessage) h
        | true => rfl
    · exact absurd (.endless hload hforever) h
  · exact exists_loadMessage _ fun f hf => hyaml ⟨f, hf⟩

/-- **The service fails on no other document.** -/
theorem drawDiagram_of_not_breaks :
    (∃ chart, flowchartOf body.language body.code = .ok chart ∧
      drawDiagram body = ⟨200, .value (members [("mermaid", .str chart)]), none⟩) ∨
    ∃ e m, flowchartOf body.language body.code = .error e ∧
      drawDiagram body
        = ⟨400, .detail ("Could not parse " ++ body.language ++ " document: " ++ m), none⟩ := by
  cases hdraw : flowchartOf body.language body.code with
  | ok chart =>
    refine .inl ⟨chart, rfl, ?_⟩
    simp [drawDiagram, hdraw, ofValue_diagram, isSendable_of_not_breaks h hdraw]
  | error e =>
    have hlanguage := isGraphLanguage_of_flowchartOf hdraw
    obtain ⟨m, hm, hsendable⟩ := exists_message_of_not_breaks h hdraw
    refine .inr ⟨e, m, rfl, ?_⟩
    simp [drawDiagram, hdraw, hm, Response.reject, hsendable,
      isSendable_of_isGraphLanguage hlanguage]

end

/-! ## What comes of a request -/

theorem share_failure (hs : Headers) : share hs .failure = .failure := rfl

theorem status_share (hs : Headers) (r : Response) : (share hs r).status = r.status := by
  rw [share]
  split <;> rfl

theorem content_share (hs : Headers) (r : Response) : (share hs r).content = r.content := by
  rw [share]
  split <;> rfl

/-- A request that is for a route with a body gets the response of that route. -/
theorem step_of_destination (parser : Script.Parser) {context : Context} {s : State}
    {request : Request} {r : Route}
    (hdest : destination (request.method.flatMap CodePoint.upper) request.path = .route r)
    (hpost : r.method = "POST") :
    step context s request parser = ((answerRoute parser context s request r).1,
      share request.headers (answerRoute parser context s request r).2) := by
  have hmethod : request.method.flatMap CodePoint.upper = "POST" :=
    (destination_eq_route_iff.1 hdest).2.trans hpost
  have hpreflight : isPreflight "POST" request.headers = false := rfl
  have hanswer : answer parser context s "POST" request
      = answerRoute parser context s request r := by
    rw [answer, ← hmethod, hdest]
  rw [step, hmethod, hpreflight, hanswer]
  rfl

/-- A request for a flowchart is answered without anything that is kept. -/
theorem step_diagram {context : Context} {s : State} {request : Request} {body : DiagramBody}
    (hdest : destination (request.method.flatMap CodePoint.upper) request.path = .route .diagram)
    (hbody : checkedBody DiagramBody.check request = .ok body) :
    step context s request = (s, share request.headers (drawDiagram body)) := by
  rw [step_of_destination _ hdest rfl]
  simp only [answerRoute, hbody]
  rfl

/-- **What comes of a request for a flowchart.** It changes nothing that is kept. Unless the service
fails on the document, it is answered with the flowchart, which is empty just if the language has
none, or refused with the reason why the document has no flowchart. -/
theorem diagram_answered {context : Context} {s : State} {request : Request} {body : DiagramBody}
    (hdest : destination (request.method.flatMap CodePoint.upper) request.path = .route .diagram)
    (hbody : checkedBody DiagramBody.check request = .ok body) :
    ∃ r, step context s request = (s, r) ∧
      (body.Breaks → r = .failure) ∧
      (¬ body.Breaks →
        (r.status = 200 ∧ ∃ chart, flowchartOf body.language body.code = .ok chart ∧
          r.content = .value (members [("mermaid", .str chart)]) ∧
          (chart = [] ↔ isGraphLanguage body.language = false)) ∨
        (r.status = 400 ∧ ∃ e m, flowchartOf body.language body.code = .error e ∧
          r.content = .detail ("Could not parse " ++ body.language ++ " document: " ++ m))) := by
  refine ⟨_, step_diagram hdest hbody, fun h => ?_, fun h => ?_⟩
  · rw [drawDiagram_of_breaks h, share_failure]
  · rw [status_share, content_share]
    rcases drawDiagram_of_not_breaks h with ⟨chart, hchart, hdraw⟩ | ⟨e, m, he, hdraw⟩
    · rw [hdraw]
      exact .inl ⟨rfl, chart, hchart, rfl, eq_nil_iff_of_flowchartOf hchart⟩
    · rw [hdraw]
      exact .inr ⟨rfl, e, m, he, rfl⟩

/-- A request for a flowchart with a body of JSON text. -/
def diagramRequest (body : String) : Request where
  method := "POST"
  path := "/api/mermaid"
  headers := [("content-type", "application/json")]
  body := utf8Bytes body.toList

/-- A request for the flowchart of a text that is no JSON text. -/
def unfinishedRequest : Request :=
  diagramRequest "\x7b\"code\": \"[\", \"language\": \"json\"\x7d"

/-- A request for the flowchart of a YAML text of a version that is not known. -/
def versionRequest : Request :=
  diagramRequest "\x7b\"code\": \"%YAML 1.3\\n\", \"language\": \"yaml\"\x7d"

theorem unfinishedRequest_answered :
    destination (unfinishedRequest.method.flatMap CodePoint.upper) unfinishedRequest.path
        = .route .diagram ∧
      checkedBody DiagramBody.check unfinishedRequest = .ok ⟨"[", "json"⟩ ∧
      ∀ context s, ∃ r, step context s unfinishedRequest = (s, r) ∧ r.status = 400 := by
  have hdest : destination (unfinishedRequest.method.flatMap CodePoint.upper)
      unfinishedRequest.path = .route .diagram := by decide +kernel
  have hbody : checkedBody DiagramBody.check unfinishedRequest = .ok ⟨"[", "json"⟩ :=
    eq_ok_of_toOption (by decide +kernel)
  have hload : (Graph.load "json" "[").toOption.isSome = false := by decide +kernel
  have hdraw : (flowchartOf "json" "[").toOption = none := by decide +kernel
  refine ⟨hdest, hbody, fun context s => ?_⟩
  obtain ⟨r, hstep, -, hanswer⟩ := @diagram_answered context s _ _ hdest hbody
  have hbreaks : ¬ DiagramBody.Breaks ⟨"[", "json"⟩ := by
    intro h
    cases h with
    | unreported hfault => exact absurd (Graph.load_eq_yaml_iff.1 hfault).1 (by decide)
    | unsendable hfault => exact absurd (Graph.load_eq_yaml_iff.1 hfault).1 (by decide)
    | endless hok => rw [hok] at hload; cases hload
    | undrawable _ hok => rw [hok] at hload; cases hload
  refine ⟨r, hstep, ?_⟩
  rcases hanswer hbreaks with ⟨-, chart, hchart, -⟩ | ⟨hstatus, -⟩
  · rw [hchart] at hdraw
    cases hdraw
  · exact hstatus

/-- The service fails on a YAML text of a version that is not known. -/
theorem versionRequest_fails :
    destination (versionRequest.method.flatMap CodePoint.upper) versionRequest.path
        = .route .diagram ∧
      checkedBody DiagramBody.check versionRequest = .ok ⟨"%YAML 1.3\n", "yaml"⟩ ∧
      ∀ context s, step context s versionRequest = (s, .failure) := by
  have hdest : destination (versionRequest.method.flatMap CodePoint.upper)
      versionRequest.path = .route .diagram := by decide +kernel
  have hbody : checkedBody DiagramBody.check versionRequest = .ok ⟨"%YAML 1.3\n", "yaml"⟩ :=
    eq_ok_of_toOption (by decide +kernel)
  have hread : Yaml.read "%YAML 1.3\n" = .error (.unsupportedVersion 1 3) :=
    eq_error_of_failure? (by decide +kernel)
  have hload : Graph.load "yaml" "%YAML 1.3\n" = .error (.yaml (.unsupportedVersion 1 3)) :=
    Graph.load_eq_yaml_iff.2 ⟨rfl, by rw [hread]; rfl⟩
  have hbreaks : DiagramBody.Breaks ⟨"%YAML 1.3\n", "yaml"⟩ := .unreported hload rfl
  refine ⟨hdest, hbody, fun context s => ?_⟩
  rw [step_diagram hdest hbody, drawDiagram_of_breaks hbreaks, share_failure]

end Service

end AgentFlow
