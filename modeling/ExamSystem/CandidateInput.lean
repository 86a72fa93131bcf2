import ExamSystem.AnswerValidation
import ExamSystem.GradingSound
import ExamSystem.PublishSound
import ExamSystem.QuestionValidation

/-!
# The answers of the candidate's input

What each input component hands to `onChange`, and the questions that an answer
of theirs can solve.
-/

namespace ExamSystem

/-! ## The components -/

def normalizedBlanks (content : JsString) (blanks : List JsString) : List JsString :=
  if blanks ≠ [] then blanks else (List.range' 1 (max 1 (countSeparators 0 content))).map fun i =>
    js s!"blank-{i}"

def recordValue : Option Json → List (JsString × Json)
  | some (.obj entries) => entries
  | _ => []

/-- The change of the blank `id` of a fill-in-the-blank question: one blank is a
text, several are `{ ...recordValue, [id]: text }`. -/
def handleChange (blanks : List JsString) (value : Option Json) (id text : JsString) : Json :=
  if blanks.length = 1 then .str text else .obj (withEntry id (.str text) (recordValue value))

/-- The change of one checkbox; the value is a set, sorted on the way out. -/
def toggle (value : List JsString) (id : JsString) : Json :=
  .arr ((uniqueSorted (if value.contains id then value.filter (· ≠ id) else value ++ [id])).map .str)

/-- `next` is what the input of the question can report while it shows `answer`. -/
def OnChange (question : QuestionSnapshot) (answer : Option Json) (next : Json) : Prop :=
  let optionIds := question.options.map (·.id)
  match question.type with
  | .singleChoice => ∃ id ∈ optionIds, next = .str id
  | .multipleChoice => ∃ id ∈ optionIds, next = toggle (toStringArray answer) id
  | .trueFalse => ∃ value, next = .bool value
  | .fillBlank =>
    let blanks := normalizedBlanks question.content optionIds
    ∃ id ∈ blanks, ∃ text, next = handleChange blanks answer id text
  -- the two editors of text responses are graded by hand
  | .textResponse => False

inductive Entered (question : QuestionSnapshot) : Option Json → Prop
  | none : Entered question none
  | change {answer : Option Json} {next : Json} : Entered question answer →
      OnChange question answer next → Entered question (some next)

section
variable [Host]

def Solvable (canonicalizeRichAnswer : CanonicalizeAnswer) (question : QuestionSnapshot) : Prop :=
  ∃ answer value, Entered question (some answer) ∧
    validateAnswerForQuestion canonicalizeRichAnswer question answer = .ok value ∧
    (gradeQuestion question (some value)).score = question.score

structure Publishable [RichContent] (q : Question) : Prop where
  valid : validateQuestionType q.toInput = []
  checked : checkPublishable q = .ok ()

def acceptedBlanks (question : QuestionSnapshot) : List JsString :=
  match question.standardAnswer with
  | .str standard =>
    (standard.splitOn 0x7C).map fun accepted =>
      normalizeBlank accepted (question.gradingRule.fillBlankCaseSensitive.getD false)
  | _ => []

end

/-! ## Choices -/

theorem entered_selection {question : QuestionSnapshot} (htype : question.type = .multipleChoice) :
    ∀ ids : List JsString, ids ≠ [] → (∀ id ∈ ids, id ∈ question.options.map (·.id)) →
      Entered question (some (.arr ((uniqueSorted ids).map .str)))
  | [], hne, _ => absurd rfl hne
  | id :: rest, _, hids => by
    have hid := hids id List.mem_cons_self
    have hrest : ∀ i ∈ rest, i ∈ question.options.map (·.id) :=
      fun i hi => hids i (List.mem_cons_of_mem _ hi)
    -- checking one more box
    have hcheck : ∀ answer, Entered question answer → toStringArray answer = uniqueSorted rest →
        id ∉ rest → Entered question (some (.arr ((uniqueSorted (id :: rest)).map .str))) := by
      intro answer hentered hshown hnew
      refine hentered.change ?_
      simp only [OnChange, htype]
      refine ⟨id, hid, ?_⟩
      have hset : uniqueSorted (id :: rest) = uniqueSorted (uniqueSorted rest ++ [id]) := by
        rw [uniqueSorted_eq_iff]
        ext i
        simp
      rw [toggle, hshown, if_neg (by simpa using hnew), hset]
    by_cases hmem : id ∈ rest
    · have hset : uniqueSorted (id :: rest) = uniqueSorted rest := by
        rw [uniqueSorted_eq_iff]
        simp [hmem]
      rw [hset]
      exact entered_selection htype rest (List.ne_nil_of_mem hmem) hrest
    · cases rest with
      | nil => exact hcheck none .none rfl List.not_mem_nil
      | cons i rest =>
        refine hcheck _ (entered_selection htype (i :: rest) (List.cons_ne_nil _ _) hrest) ?_ hmem
        simp [toStringArray, List.filterMap_map]

theorem toStringArray_strings (ids : List JsString) :
    toStringArray (some (.arr (ids.map .str))) = ids := by
  simp [toStringArray, List.filterMap_map]

theorem gradePrecise_same (question : QuestionSnapshot) (hnull : question.standardAnswer.isNull = false)
    (heq : strictEq question.standardAnswer question.standardAnswer = true) :
    (gradePrecise question (some question.standardAnswer)).score = question.score := by
  simp [gradePrecise, makeResult, hnull, heq]

section
variable [Host] {canonicalizeRichAnswer : CanonicalizeAnswer} {question : QuestionSnapshot}

theorem solvable_multipleChoice {ids : List JsString} (htype : question.type = .multipleChoice)
    (hne : ids ≠ []) (hids : ∀ id ∈ ids, id ∈ question.options.map (·.id))
    (hstandard : question.standardAnswer = .arr (ids.map .str)) :
    Solvable canonicalizeRichAnswer question := by
  have hselected : selectedOptions (some (.arr ((uniqueSorted ids).map .str))) = selectedOptions
      (some question.standardAnswer) := by
    simp only [selectedOptions, hstandard, toStringArray_strings, uniqueSorted_toFinset]
  have hstandardNe : selectedOptions (some question.standardAnswer) ≠ ∅ := by
    simpa only [selectedOptions, hstandard, toStringArray_strings, ne_eq,
      List.toFinset_eq_empty_iff] using hne
  refine ⟨.arr ((uniqueSorted ids).map .str), .arr ((uniqueSorted ids).map .str),
    entered_selection htype ids hne hids, ?_, ?_⟩
  · have hstrings : ((uniqueSorted ids).map Json.str).all (·.isString) = true := by
      simp [Json.isString]
    have hknown : ((uniqueSorted ids).map Json.str).all
        (fun e => (question.options.map (·.id)).any fun id => e = .str id) = true := by
      simp only [List.all_map, List.all_eq_true, Function.comp_apply, List.any_eq_true,
        decide_eq_true_eq]
      exact fun id hid => ⟨id, hids id (by simpa using hid), rfl⟩
    simp only [validateAnswerForQuestion, htype]
    rw [if_neg (not_not.mpr hstrings), if_neg (not_not.mpr hknown)]
  · simp only [gradeQuestion, htype]
    rw [gradeMultipleChoice_score _ _ hstandardNe, if_pos hselected]

/-! ## Blanks -/

theorem matchesBlank_iff {text standard : JsString} {question : QuestionSnapshot}
    (hstandard : question.standardAnswer = .str standard) :
    matchesBlank (some (.str text)) (.str standard) question = true ↔
      ∃ accepted ∈ acceptedBlanks question, accepted ≠ [] ∧
        (if question.gradingRule.fillBlankMatchMode = .keyword then
          includes (normalizeBlank text (question.gradingRule.fillBlankCaseSensitive.getD false))
            accepted = true
        else normalizeBlank text (question.gradingRule.fillBlankCaseSensitive.getD false) =
          accepted) := by
  simp only [matchesBlank, acceptedBlanks, hstandard, List.any_eq_true, List.mem_map,
    exists_exists_and_eq_and]
  refine exists_congr fun accepted => and_congr_right fun _ => ?_
  by_cases hempty : normalizeBlank accepted
    (question.gradingRule.fillBlankCaseSensitive.getD false) = []
  · simp [hempty]
  · by_cases hmode : question.gradingRule.fillBlankMatchMode = .keyword
    · simp [hempty, hmode]
    · simp [hempty, hmode]

theorem gradeFillBlank_score {standard : JsString} {answer : Option Json}
    (hstandard : question.standardAnswer = .str standard) :
    (gradeFillBlank question answer).score = if matchesBlank answer
      (.str standard) question then question.score else 0 := by
  simp only [gradeFillBlank, makeResult, hstandard]

omit [Host] in
theorem entered_several {answer : Json} (htype : question.type = .fillBlank)
    (hblanks : (normalizedBlanks question.content (question.options.map (·.id))).length ≠ 1)
    (h : Entered question (some answer)) : ∃ entries, answer = .obj entries := by
  cases h with
  | change _ hnext =>
    simp only [OnChange, htype] at hnext
    obtain ⟨id, -, text, rfl⟩ := hnext
    rw [handleChange, if_neg hblanks]
    exact ⟨_, rfl⟩

/-- A fill-in-the-blank question can be solved exactly when it is shown with one
blank and one of its alternatives is not blank. -/
theorem solvable_fillBlank {standard : JsString} (htype : question.type = .fillBlank)
    (hscore : 0 < question.score) (hstandard : question.standardAnswer = .str standard) :
    Solvable canonicalizeRichAnswer question ↔
      (normalizedBlanks question.content (question.options.map (·.id))).length = 1 ∧
        ∃ accepted ∈ acceptedBlanks question, accepted ≠ [] := by
  have hgrade : ∀ answer, (gradeQuestion question answer).score =
      if matchesBlank answer (.str standard) question then question.score else 0 := by
    intro answer
    simp only [gradeQuestion, htype]
    exact gradeFillBlank_score hstandard
  have hplain : ¬ (question.type = .textResponse ∧ question.answerMode = some .rich) := by
    rw [htype]
    exact fun h => by cases h.1
  constructor
  · rintro ⟨answer, value, hentered, hvalid, hfull⟩
    obtain rfl := validateAnswerForQuestion_plain hplain hvalid
    have hmatch : matchesBlank (some value) (.str standard) question = true := by
      by_contra hno
      rw [hgrade, if_neg hno] at hfull
      exact hscore.ne hfull
    have hone : (normalizedBlanks question.content (question.options.map (·.id))).length = 1 := by
      by_contra hblanks
      -- a record never matches a text
      obtain ⟨entries, rfl⟩ := entered_several htype hblanks hentered
      exact absurd hmatch (by simp [matchesBlank])
    refine ⟨hone, ?_⟩
    cases value with
    | str text =>
      obtain ⟨accepted, hmem, hne, -⟩ := (matchesBlank_iff hstandard).mp hmatch
      exact ⟨accepted, hmem, hne⟩
    | null | bool _ | num _ | arr _ | obj _ => simp [matchesBlank] at hmatch
  · rintro ⟨hone, accepted, hmem, hne⟩
    obtain ⟨text, htext⟩ : ∃ text, normalizeBlank text
        (question.gradingRule.fillBlankCaseSensitive.getD false) = accepted := by
      simp only [acceptedBlanks, hstandard, List.mem_map] at hmem
      exact hmem.imp fun _ h => h.2
    obtain ⟨id, hid⟩ := List.exists_mem_of_length_pos (Nat.lt_of_lt_of_eq Nat.zero_lt_one hone.symm)
    refine ⟨.str text, .str text, .change .none ?_, ?_, ?_⟩
    · simp only [OnChange, htype]
      exact ⟨id, hid, text, by rw [handleChange, if_pos hone]⟩
    · simp only [validateAnswerForQuestion, htype]
    · have hmatch : matchesBlank (some (.str text)) (.str standard) question = true := by
        refine (matchesBlank_iff hstandard).mpr ⟨accepted, hmem, hne, ?_⟩
        split
        · rw [htext, includes, decide_eq_true_eq]
        · exact htext
      rw [hgrade, if_pos hmatch]

end

/-! ## Solvable questions -/

section
variable [Host] [RichContent]

/-- A publishable question that is graded automatically can be solved through its
input, unless it is a fill-in-the-blank question with several blanks or with
blank alternatives only. -/
theorem publishable_solvable_iff (canonicalizeRichAnswer : CanonicalizeAnswer) (q : Question)
    (index : Nat) (h : Publishable q)
    (hauto : isManualGradedQuestion (questionToSnapshot q index) = false) :
    Solvable canonicalizeRichAnswer (questionToSnapshot q index) ↔
      (q.type = .fillBlank → (normalizedBlanks q.content (q.options.map (·.id))).length = 1 ∧
        ∃ accepted ∈ acceptedBlanks (questionToSnapshot q index), accepted ≠ []) := by
  have hlegal := valid_standard h.valid
  cases htype : q.type with
  | textResponse => simp [isManualGradedQuestion, questionToSnapshot, htype] at hauto
  | singleChoice =>
    rw [htype] at hlegal
    obtain ⟨id, hid, hstandard⟩ := hlegal
    refine iff_of_true ⟨.str id, .str id, .change .none ?_, ?_, ?_⟩ (fun h => by cases h)
    · simp only [OnChange, questionToSnapshot, htype]
      exact ⟨id, hid, rfl⟩
    · simp only [validateAnswerForQuestion, questionToSnapshot, htype, if_pos hid]
    · simp only [gradeQuestion, questionToSnapshot, htype, ← hstandard]
      exact gradePrecise_same _ (by simp [hstandard, Json.isNull]) (by simp [hstandard, strictEq])
  | trueFalse =>
    rw [htype] at hlegal
    obtain ⟨value, hstandard⟩ := hlegal
    refine iff_of_true ⟨.bool value, .bool value, .change .none ?_, ?_, ?_⟩ (fun h => by cases h)
    · simp only [OnChange, questionToSnapshot, htype]
      exact ⟨value, rfl⟩
    · simp only [validateAnswerForQuestion, questionToSnapshot, htype]
    · simp only [gradeQuestion, questionToSnapshot, htype, ← hstandard]
      exact gradePrecise_same _ (by simp [hstandard, Json.isNull]) (by simp [hstandard, strictEq])
  | multipleChoice =>
    rw [htype] at hlegal
    obtain ⟨ids, hne, hids, hstandard⟩ := hlegal
    exact iff_of_true (solvable_multipleChoice htype hne hids hstandard) (fun h => by cases h)
  | fillBlank =>
    rw [htype] at hlegal
    obtain ⟨text, -, hstandard⟩ := hlegal
    have hblank : Solvable canonicalizeRichAnswer (questionToSnapshot q index) ↔ _ :=
      solvable_fillBlank htype q.score_pos hstandard
    exact hblank.trans (imp_iff_right rfl).symm

end

/-- A fill-in-the-blank question with the given content and standard answer. -/
def sampleBlank (content standard : String) : Question :=
  { id := "q1", courseId := "course", type := .fillBlank, content := js content, contentDocument := none
    answerMode := none, attachments := [], options := [], standardAnswer := .str (js standard)
    score := 2
    gradingRule := sampleRule, rubric := none, score_pos := by norm_num }

/-- Two blanks are entered as a record, which never matches the text "a|b". -/
theorem publishable_unsolvable :
    let q := sampleBlank "____ and ____" "a|b"
    @Publishable sampleHost sampleContent q ∧ isManualGradedQuestion (questionToSnapshot q 0) = false ∧
      ¬ @Solvable sampleHost .ok (questionToSnapshot q 0) := by
  let _ : Host := sampleHost
  let _ : RichContent := sampleContent
  refine ⟨⟨by decide +kernel, by decide +kernel⟩, by decide +kernel, fun h => ?_⟩
  have hone := ((solvable_fillBlank rfl (sampleBlank "____ and ____" "a|b").score_pos rfl).mp h).1
  exact absurd hone (by decide +kernel)

/-- One blank with an alternative that is not blank. -/
theorem publishable_solvable_iff_sample :
    @Solvable sampleHost .ok (questionToSnapshot (sampleBlank "____ and so on" "|b") 0) := by
  let _ : Host := sampleHost
  let _ : RichContent := sampleContent
  refine (publishable_solvable_iff .ok (sampleBlank "____ and so on" "|b") 0
      ⟨by decide +kernel, by decide +kernel⟩
    (by decide +kernel)).mpr fun _ => ⟨by decide +kernel, js "b", by decide +kernel, by decide +kernel⟩

end ExamSystem
