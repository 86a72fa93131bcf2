import ExamSystem.AnswerProtocol

/-!
# Validation of an answer

The shape that an answer to a frozen question must have, by question type. Rich
answers are canonicalized by the content library, which is a parameter.
-/

namespace ExamSystem

open Tx

/-- The separators `____` from left to right, after a run of underscores. -/
def countSeparators : Nat → JsString → Nat
  | _, [] => 0
  | run, u :: rest =>
    if u ≠ 0x5F then countSeparators 0 rest
    else if run = 3 then countSeparators 0 rest + 1
    else countSeparators (run + 1) rest

def blankUniverse (content : JsString) : List JsString :=
  (List.range' 1 (countSeparators 0 content)).map fun i => js s!"blank-{i}"

def fillBlankEntry (allowed : List JsString) (e : JsString × Json) : Except String Unit := do
  require (e.2.isString = true) "fill_blank answer values must be strings"
  let key := String.ofList (e.1.map fun u => Char.ofNat u.toNat)
  require (e.1 ∈ allowed) s!"fill_blank answer key {key} is outside the question's blank universe"

def validateAnswerForQuestion (canonicalizeRichAnswer : CanonicalizeAnswer)
    (question : QuestionSnapshot) :
    CanonicalizeAnswer := fun answer =>
  let optionIds := question.options.map (·.id)
  match question.type, answer with
  | _, .null => .ok .null
  | .singleChoice, .str id =>
    if id ∈ optionIds then .ok answer else .error "single_choice answer must be an option id"
  | .singleChoice, _ => .error "single_choice answer must be an option id"
  | .multipleChoice, .arr elements =>
    if ¬ elements.all (·.isString) then .error "multiple_choice answer must be an array of option ids"
    else if ¬ elements.all fun e => optionIds.any fun id => e = .str id then
      .error "multiple_choice answer references an unknown option"
    else .ok answer
  | .multipleChoice, _ => .error "multiple_choice answer must be an array of option ids"
  | .trueFalse, .bool _ => .ok answer
  | .trueFalse, _ => .error "true_false answer must be a boolean"
  | .fillBlank, .str _ => .ok answer
  | .fillBlank, .obj entries => do
    forEach entries (fillBlankEntry (blankUniverse question.content))
    pure answer
  | .fillBlank, _ => .error "fill_blank answer must be a string or a Record<string,string>"
  | .textResponse, answer =>
    if question.answerMode = some .rich then canonicalizeRichAnswer answer
    else if answer.isString then .ok answer
    else .error "plain text_response answer must be a string"

theorem validateAnswerForQuestion_plain {canonicalizeRichAnswer : CanonicalizeAnswer}
    {question : QuestionSnapshot} {answer value : Json}
    (hplain : ¬ (question.type = .textResponse ∧ question.answerMode = some .rich))
    (h : validateAnswerForQuestion canonicalizeRichAnswer question answer = .ok value) :
    value = answer := by
  unfold validateAnswerForQuestion at h
  split at h
  case h_2 =>
    dsimp only at h
    split at h
    · cases h
      rfl
    · cases h
  case h_4 =>
    dsimp only at h
    split at h
    · cases h
    · split at h
      · cases h
      · cases h
        rfl
  case h_9 =>
    -- the entries are checked and the answer is kept
    obtain ⟨-, -, h⟩ := (bind_eq_ok _ _ _).mp h
    exact ((pure_eq_ok _ _).mp h).symm
  case h_11 htype _ =>
    rw [if_neg fun hrich => hplain ⟨htype, hrich⟩] at h
    split at h
    · cases h
      rfl
    · cases h
  all_goals
    cases h <;> rfl

/-- A run of six underscores holds one separator. -/
example : blankUniverse (js "A ____ and ______b____") = [js "blank-1", js "blank-2",
      js "blank-3"] := by decide

end ExamSystem
