import AgentFlow.Graph.Document
import AgentFlow.Proofs.Outcome

/-!
# Flowcharts of texts

A text of a language that has flowcharts is drawn if it is a graph, the drawing comes to an end and
all agents of the graph can be shown, and refused otherwise; a text of any other language has the
empty flowchart.

* `flowchartOf_eq_ok_iff`: when a text is drawn, and how.
* `eq_nil_iff_of_flowchartOf`: which flowcharts are empty.
* `flowchartOf_eq_yaml_iff`: when a text is refused for a fault of YAML text.
-/

namespace AgentFlow

theorem Graph.flowchart_ne_nil (g : Graph) : g.flowchart ≠ [] := by
  rw [Graph.flowchart, Text.join, List.intercalate]
  cases h : (g.fragment []).lines ++ (g.fragment []).classLines <;>
    simp [h, Text.ofString, Text.ofChars]

theorem flowchart?_eq_ok_iff {g : Graph} {chart : Text} :
    g.flowchart? = .ok chart ↔ g.isShowable = true ∧ g.flowchart = chart := by
  rw [Graph.flowchart?]
  split <;> simp_all

theorem flowchartOf_eq_ok_iff {language code chart : Text} :
    flowchartOf language code = .ok chart ↔
      (isGraphLanguage language = false ∧ chart = []) ∨
      isGraphLanguage language = true ∧ ∃ g, Graph.load language code = .ok g ∧
        drawsForever language code = false ∧ g.isShowable = true ∧ g.flowchart = chart := by
  rw [flowchartOf]
  cases isGraphLanguage language with
  | false =>
    rw [if_neg (by simp), Except.ok.injEq]
    simp only [true_and, Bool.false_eq_true, false_and, or_false]
    exact eq_comm
  | true =>
    rw [if_pos rfl]
    refine bind_eq_ok_iff.trans ?_
    cases drawsForever language code <;> simp [flowchart?_eq_ok_iff]

/-- A flowchart is empty just if its language has none. -/
theorem eq_nil_iff_of_flowchartOf {language code chart : Text}
    (h : flowchartOf language code = .ok chart) :
    chart = [] ↔ isGraphLanguage language = false := by
  rcases flowchartOf_eq_ok_iff.1 h with ⟨hlanguage, hchart⟩ | ⟨hlanguage, g, -, -, -, rfl⟩
  · simp [hlanguage, hchart]
  · simp [hlanguage, g.flowchart_ne_nil]

/-- Only a text of a language that has flowcharts is refused. -/
theorem isGraphLanguage_of_flowchartOf {language code : Text} {e : LoadError}
    (h : flowchartOf language code = .error e) : isGraphLanguage language = true := by
  cases hlanguage : isGraphLanguage language with
  | false =>
    rw [flowchartOf_other hlanguage] at h
    cases h
  | true => rfl

theorem valueOfText_eq_yaml_iff {language code : Text} {f : Yaml.Fault} :
    valueOfText language code = .error (.yaml f) ↔
      language = "yaml" ∧ (Yaml.read code).bind Yaml.Document.graphValue = .error f := by
  rw [valueOfText]
  split
  case isTrue h => simp [h, mapError_eq_error_iff]
  case isFalse h => simp [h, mapError_eq_error_iff]

theorem Graph.load_eq_yaml_iff {language code : Text} {f : Yaml.Fault} :
    Graph.load language code = .error (.yaml f) ↔
      language = "yaml" ∧ (Yaml.read code).bind Yaml.Document.graphValue = .error f := by
  rw [← valueOfText_eq_yaml_iff, Graph.load]
  refine bind_eq_error_iff.trans (or_iff_left ?_)
  rintro ⟨v, -, hcheck⟩
  obtain ⟨ps, -, hps⟩ := mapError_eq_error_iff.1 hcheck
  cases hps

/-- The drawing comes to no end only for a document that YAML text spells. -/
theorem drawsForever_eq_true_iff {language code : Text} : drawsForever language code = true ↔
    language = "yaml" ∧ ∃ d, Yaml.read code = .ok d ∧ d.isEndless = true := by
  rw [drawsForever, Bool.and_eq_true, beq_iff_eq]
  cases Yaml.read code <;> simp [Except.toOption]

theorem drawsForever_of_ne {language : Text} (h : language ≠ "yaml") (code : Text) :
    drawsForever language code = false :=
  Bool.eq_false_iff.2 fun hforever => h (drawsForever_eq_true_iff.1 hforever).1

theorem isGraphLanguage_of_drawsForever {language code : Text}
    (h : drawsForever language code = true) : isGraphLanguage language = true := by
  obtain ⟨rfl, -⟩ := drawsForever_eq_true_iff.1 h
  rfl

theorem isGraphLanguage_of_load_eq_yaml {language code : Text} {f : Yaml.Fault}
    (h : Graph.load language code = .error (.yaml f)) : isGraphLanguage language = true := by
  obtain ⟨rfl, -⟩ := Graph.load_eq_yaml_iff.1 h
  rfl

/-- A graph is refused for a fault of YAML text just if the drawing comes to no end. -/
theorem draw_eq_yaml_iff {g : Graph} {forever : Bool} {f : Yaml.Fault} :
    (if forever then .error (.yaml .endless) else g.flowchart?) = .error (.yaml f) ↔
      f = .endless ∧ forever = true := by
  cases forever with
  | true => simp [eq_comm]
  | false =>
    rw [if_neg (by simp), Graph.flowchart?]
    split <;> simp

/-- A document is refused for a fault of YAML text just if it has this fault, or is a graph and the
drawing comes to no end. -/
theorem flowchartOf_eq_yaml_iff {language code : Text} {f : Yaml.Fault} :
    flowchartOf language code = .error (.yaml f) ↔
      Graph.load language code = .error (.yaml f) ∨
      f = .endless ∧ drawsForever language code = true ∧
        ∃ g, Graph.load language code = .ok g := by
  have hiff (hlanguage : isGraphLanguage language = true) :
      flowchartOf language code = .error (.yaml f) ↔
        Graph.load language code = .error (.yaml f) ∨
        f = .endless ∧ drawsForever language code = true ∧
          ∃ g, Graph.load language code = .ok g := by
    rw [flowchartOf, if_pos hlanguage]
    refine bind_eq_error_iff.trans (or_congr_right ?_)
    simp only [draw_eq_yaml_iff, exists_and_right]
    exact and_comm.trans and_assoc
  constructor
  · exact fun h => (hiff (isGraphLanguage_of_flowchartOf h)).1 h
  · intro h
    refine (hiff ?_).2 h
    rcases h with hload | ⟨-, hforever, -⟩
    · exact isGraphLanguage_of_load_eq_yaml hload
    · exact isGraphLanguage_of_drawsForever hforever

end AgentFlow
