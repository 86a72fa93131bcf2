import ExamSystem.Publish

/-!
# Validation of a question

The cross-field rules of the question contract, as the list of their issues.
-/

namespace ExamSystem

inductive PathSegment
  | field (name : String)
  | index (n : Nat)
  deriving DecidableEq, Repr

structure QuestionIssue where
  message : String
  path : List PathSegment
  deriving DecidableEq, Repr

structure OptionInput where
  id : JsString
  content : Option JsString
  contentDocument : Option Json
  deriving DecidableEq, Repr

structure QuestionInput where
  type : QuestionType
  content : Option JsString
  contentDocument : Option Json
  answerMode : Option ContentMode
  options : Option (List OptionInput)
  standardAnswer : Json
  deriving DecidableEq, Repr

def issueIf (c : Prop) [Decidable c] (message : String) (path : List PathSegment) :
    List QuestionIssue :=
  if c then [{ message := message, path := path }] else []

@[simp] theorem issueIf_eq_nil {c : Prop} [Decidable c] {message : String} {path : List PathSegment} :
    issueIf c message path = [] ↔ ¬ c := by
  unfold issueIf
  split <;> simp_all

def referencesOption (optionIds : List JsString) : Json → Bool
  | .str id => optionIds.contains id
  | _ => false

def validateStandardAnswer (type : QuestionType) (optionIds : List JsString) (standardAnswer : Json) :
    List QuestionIssue :=
  issueIf (type = .singleChoice ∧ referencesOption optionIds standardAnswer = false)
    "single choice standardAnswer must reference an option" [.field "standardAnswer"] ++
  issueIf (type = .multipleChoice ∧ referencesOptions standardAnswer = false)
    "multiple choice standardAnswer must reference options" [.field "standardAnswer"] ++
  issueIf (type = .trueFalse ∧ isBoolean standardAnswer = false)
    "true/false questions require a boolean standardAnswer" [.field "standardAnswer"] ++
  issueIf (type = .fillBlank ∧ isFilled standardAnswer = false)
    "fill blank questions require a non-empty standardAnswer" [.field "standardAnswer"]
where
  referencesOptions : Json → Bool
    | .arr elements => !elements.isEmpty && elements.all (referencesOption optionIds)
    | _ => false
  isBoolean : Json → Bool
    | .bool _ => true
    | _ => false
  isFilled : Json → Bool
    | .str s => trim s != []
    | _ => false

def validateOption (option : OptionInput) (index : Nat) : List QuestionIssue :=
  issueIf (option.contentDocument = none ∧ option.content = none) "plain option requires content"
    [.field "options", .index index, .field "content"]

section
variable [RichContent]

def validateContent (question : QuestionInput) : List QuestionIssue :=
  match question.contentDocument with
  | some document =>
    issueIf (trim (RichContent.plainTextProjection document) = [])
      "rich question content must not be empty"
      [.field "contentDocument"]
  | none => issueIf (question.content.getD [] = []) "content is required" [.field "content"]

def validateQuestionType (question : QuestionInput) : List QuestionIssue :=
  let options := question.options.getD []
  let optionIds := options.map (·.id)
  issueIf (question.type = .fillBlank ∧ question.contentDocument.isSome)
    "fill_blank questions do not support rich content" [.field "contentDocument"] ++
  issueIf (question.answerMode.isSome ∧ question.type ≠ .textResponse)
    "answerMode is only meaningful for text_response questions" [.field "answerMode"] ++
  validateContent question ++
  issueIf (¬ optionIds.Nodup) "option ids must be unique" [.field "options"] ++
  options.zipIdx.flatMap (fun entry => validateOption entry.1 entry.2) ++
  issueIf ((question.type = .singleChoice ∨ question.type = .multipleChoice) ∧ options.length < 2)
    "choice questions require at least two options" [.field "options"] ++
  issueIf (question.type = .fillBlank ∧ ∃ content ∈ question.content, includes content
      (js "____") = false)
    "fill blank questions require a ____ placeholder" [.field "content"] ++
  -- a missing standard answer ends the rules
  if question.standardAnswer = .null then
    issueIf (question.type ≠ .textResponse) "auto-graded questions require a standardAnswer"
      [.field "standardAnswer"]
  else validateStandardAnswer question.type optionIds question.standardAnswer

end

def Question.toInput (q : Question) : QuestionInput :=
  { type := q.type
    content := some q.content
    contentDocument := q.contentDocument
    answerMode := q.answerMode
    options := some (q.options.map fun o =>
      { id := o.id, content := some o.content, contentDocument := o.contentDocument })
    standardAnswer := q.standardAnswer }

/-! ## What a valid standard answer is -/

/-- The standard answers that are legal for a type, given the ids of the options. -/
def LegalStandard (optionIds : List JsString) (standardAnswer : Json) : QuestionType → Prop
  | .singleChoice => ∃ id ∈ optionIds, standardAnswer = .str id
  | .multipleChoice => ∃ ids : List JsString, ids ≠ [] ∧ (∀ id ∈ ids, id ∈ optionIds) ∧
      standardAnswer = .arr (ids.map .str)
  | .trueFalse => ∃ value, standardAnswer = .bool value
  | .fillBlank => ∃ text, trim text ≠ [] ∧ standardAnswer = .str text
  | .textResponse => True

theorem referencesOption_iff {optionIds : List JsString} {v : Json} :
    referencesOption optionIds v = true ↔ ∃ id ∈ optionIds, v = .str id := by
  cases v with
  | str id => simp [referencesOption]
  | null | bool _ | num _ | arr _ | obj _ => simp [referencesOption]

theorem references_all {optionIds : List JsString} {elements : List Json}
    (h : elements.all (referencesOption optionIds) = true) :
    ∃ ids : List JsString, (∀ id ∈ ids, id ∈ optionIds) ∧ elements = ids.map .str := by
  induction elements with
  | nil => exact ⟨[], fun id hid => absurd hid List.not_mem_nil, rfl⟩
  | cons v elements ih =>
    rw [List.all_cons, Bool.and_eq_true] at h
    obtain ⟨id, hid, rfl⟩ := referencesOption_iff.mp h.1
    obtain ⟨ids, hids, rfl⟩ := ih h.2
    exact ⟨id :: ids, List.forall_mem_cons.mpr ⟨hid, hids⟩, rfl⟩

theorem validateStandardAnswer_nil {type : QuestionType} {optionIds : List JsString}
    {standardAnswer : Json} (h : validateStandardAnswer type optionIds standardAnswer = []) :
    LegalStandard optionIds standardAnswer type := by
  simp only [validateStandardAnswer, List.append_eq_nil_iff, issueIf_eq_nil] at h
  obtain ⟨⟨⟨hsingle, hmultiple⟩, hbool⟩, hblank⟩ := h
  cases type with
  | singleChoice => exact referencesOption_iff.mp (by simpa using hsingle)
  | multipleChoice =>
    cases standardAnswer with
    | arr elements =>
      simp only [validateStandardAnswer.referencesOptions, true_and, Bool.not_eq_false,
        Bool.and_eq_true] at hmultiple
      obtain ⟨ids, hids, rfl⟩ := references_all hmultiple.2
      refine ⟨ids, ?_, hids, rfl⟩
      rintro rfl
      exact absurd hmultiple.1 (by decide)
    | null | bool _ | num _ | str _ | obj _ => simp [validateStandardAnswer.referencesOptions]
        at hmultiple
  | trueFalse =>
    cases standardAnswer with
    | bool value => exact ⟨value, rfl⟩
    | null | num _ | str _ | arr _ | obj _ => simp [validateStandardAnswer.isBoolean] at hbool
  | fillBlank =>
    cases standardAnswer with
    | str text => exact ⟨text, by simpa [validateStandardAnswer.isFilled] using hblank, rfl⟩
    | null | bool _ | num _ | arr _ | obj _ => simp [validateStandardAnswer.isFilled] at hblank
  | textResponse => trivial

theorem valid_standard [RichContent] {q : Question} (h : validateQuestionType q.toInput = []) :
    LegalStandard (q.options.map (·.id)) q.standardAnswer q.type := by
  simp only [validateQuestionType, List.append_eq_nil_iff] at h
  obtain ⟨-, h⟩ := h
  have hids : ((q.toInput.options.getD []).map (·.id)) = q.options.map (·.id) := by
    simp [Question.toInput]
  split at h
  · have htype : q.type = .textResponse := not_not.mp (issueIf_eq_nil.mp h)
    rw [htype]
    trivial
  · exact hids ▸ validateStandardAnswer_nil h

end ExamSystem
