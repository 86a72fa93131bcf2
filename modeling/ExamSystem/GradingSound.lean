import Mathlib.Data.Finset.Card
import ExamSystem.GradingEngine
import ExamSystem.StoreLemmas

/-!
# The scores of automatic grading

Multiple choice compares sets: the order and the repetition of the selected
options do not matter.
-/

namespace ExamSystem

/-! ## Sorted sets -/

theorem uniqueSorted_perm (values : List JsString) : (uniqueSorted values).Perm values.dedup :=
  List.perm_insertionSort _ _

theorem uniqueSorted_nodup (values : List JsString) : (uniqueSorted values).Nodup :=
  (uniqueSorted_perm values).nodup_iff.mpr (List.nodup_dedup values)

@[simp] theorem uniqueSorted_toFinset (values : List JsString) :
    (uniqueSorted values).toFinset = values.toFinset := by
  rw [List.toFinset_eq_of_perm _ _ (uniqueSorted_perm values)]
  ext value
  simp

@[simp] theorem mem_uniqueSorted {value : JsString} {values : List JsString} :
    value ∈ uniqueSorted values ↔ value ∈ values.toFinset := by
  rw [← List.mem_toFinset, uniqueSorted_toFinset]

theorem uniqueSorted_length (values : List JsString) :
    (uniqueSorted values).length = values.toFinset.card := by
  rw [← List.toFinset_card_of_nodup (uniqueSorted_nodup values), uniqueSorted_toFinset]

theorem uniqueSorted_eq_iff {a b : List JsString} :
    uniqueSorted a = uniqueSorted b ↔ a.toFinset = b.toFinset := by
  constructor
  · intro h
    rw [← uniqueSorted_toFinset a, h, uniqueSorted_toFinset]
  · intro h
    have hperm : (uniqueSorted a).Perm (uniqueSorted b) :=
      List.perm_of_nodup_nodup_toFinset_eq (uniqueSorted_nodup a) (uniqueSorted_nodup b)
        (by simpa using h)
    exact hperm.eq_of_pairwise (fun _ _ _ _ hab hba => List.le_antisymm hab hba)
      (List.pairwise_insertionSort _ _)
      (List.pairwise_insertionSort _ _)

theorem zip_all_eq {a b : List JsString} (h : a.length = b.length) :
    ((a.zip b).all fun p => p.1 == p.2) = true ↔ a = b := by
  induction a generalizing b with
  | nil =>
    cases b with
    | nil => simp
    | cons y b => simp at h
  | cons x a ih =>
    cases b with
    | nil => simp at h
    | cons y b => simp [ih (Nat.succ.inj h)]

/-! ## Multiple choice -/

def selectedOptions (answer : Option Json) : Finset JsString := (toStringArray answer).toFinset

theorem selectedOptions_congr {xs ys : List Json} (h : ∀ v, v ∈ xs ↔ v ∈ ys) :
    selectedOptions (some (.arr xs)) = selectedOptions (some (.arr ys)) := by
  ext value
  simp only [selectedOptions, toStringArray, List.mem_toFinset, List.mem_filterMap, h]

section
variable (question : QuestionSnapshot) (candidateAnswer : Option Json)

/-- The score of multiple choice by the sets that are compared. -/
theorem gradeMultipleChoice_score (hstandard : selectedOptions (some question.standardAnswer) ≠ ∅) :
    (gradeMultipleChoice question candidateAnswer).score =
      if selectedOptions candidateAnswer = selectedOptions (some question.standardAnswer) then
        question.score
      else if (selectedOptions candidateAnswer ≠ ∅ ∧
          selectedOptions candidateAnswer ⊂ selectedOptions (some question.standardAnswer)) ∧
          question.gradingRule.multiSelectScoring = .partialHalf then question.score / 2
      else 0 := by
  let candidate := uniqueSorted (toStringArray candidateAnswer)
  let standard := uniqueSorted (toStringArray (some question.standardAnswer))
  have hcandidate : candidate.length = (selectedOptions candidateAnswer).card := uniqueSorted_length _
  have hlength : standard.length = (selectedOptions (some question.standardAnswer)).card :=
    uniqueSorted_length _
  have hpos : 0 < standard.length :=
    hlength ▸ Finset.card_pos.mpr (Finset.nonempty_iff_ne_empty.mpr hstandard)
  have hcomplete : (0 < standard.length && candidate.length == standard.length &&
      (candidate.zip standard).all fun p => p.1 == p.2) = true ↔
      selectedOptions candidateAnswer = selectedOptions (some question.standardAnswer) := by
    rw [selectedOptions, selectedOptions, ← uniqueSorted_eq_iff]
    simp only [Bool.and_eq_true, decide_eq_true_eq, beq_iff_eq]
    constructor
    · rintro ⟨⟨-, hlen⟩, hall⟩
      exact (zip_all_eq hlen).mp hall
    · intro h
      have hlen : candidate.length = standard.length := congrArg List.length h
      exact ⟨⟨hpos, hlen⟩, (zip_all_eq hlen).mpr h⟩
  have hright : (candidate.any fun answer => !standard.contains answer) = false ↔
      selectedOptions candidateAnswer ⊆ selectedOptions (some question.standardAnswer) := by
    simp [candidate, standard, Finset.subset_iff, selectedOptions]
  have hpartial : (0 < candidate.length && candidate.length < standard.length &&
      !(candidate.any fun answer => !standard.contains answer)) = true ↔
      selectedOptions candidateAnswer ≠ ∅ ∧ selectedOptions candidateAnswer ⊂ selectedOptions
        (some question.standardAnswer) := by
    simp only [Bool.and_eq_true, decide_eq_true_eq, Bool.not_eq_true', hright, hcandidate, hlength,
      Finset.card_pos, Finset.nonempty_iff_ne_empty]
    constructor
    · rintro ⟨⟨hne, hlt⟩, hsub⟩
      exact ⟨hne, Finset.ssubset_iff_subset_ne.mpr ⟨hsub,
          fun heq => Nat.ne_of_lt hlt (congrArg Finset.card heq)⟩⟩
    · rintro ⟨hne, hss⟩
      exact ⟨⟨hne, Finset.card_lt_card hss⟩, hss.subset⟩
  simp only [gradeMultipleChoice, makeResult]
  refine if_congr hcomplete rfl (if_congr ?_ rfl rfl)
  rw [Bool.and_eq_true, hpartial, beq_iff_eq]

theorem score_iff_cases {full half : Prop} [Decidable full] [Decidable half] {score s : ℚ}
    (hscore : 0 < score) (hne : half → ¬ full)
    (hs : s = if full then score else if half then score / 2 else 0) :
    (s = score ↔ full) ∧ (s = score / 2 ↔ half) ∧ (s ≠ score → s ≠ score / 2 → s = 0) := by
  have hhalf : score / 2 ≠ score := by linarith
  have hzero : (0 : ℚ) ≠ score / 2 := by linarith
  by_cases hfull : full
  · rw [if_pos hfull] at hs
    refine ⟨iff_of_true hs hfull,
      iff_of_false (fun h => hhalf (h.symm.trans hs)) fun h => hne h hfull, fun h => absurd hs h⟩
  by_cases hpart : half
  · rw [if_neg hfull, if_pos hpart] at hs
    exact ⟨iff_of_false (fun h => hhalf (hs.symm.trans h)) hfull, iff_of_true hs hpart,
      fun _ h => absurd hs h⟩
  · rw [if_neg hfull, if_neg hpart] at hs
    exact ⟨iff_of_false (fun h => hscore.ne (hs.symm.trans h)) hfull,
      iff_of_false (fun h => hzero (hs.symm.trans h)) hpart,
      fun _ _ => hs⟩

/-- A question that is graded automatically, with a positive maximum, gets a
score within its bounds that is full exactly when the answer is correct. -/
theorem auto_graded_score [Host] (hscore : 0 < question.score)
    (hauto : isManualGradedQuestion question = false) :
    (0 ≤ (gradeQuestion question candidateAnswer).score ∧
      (gradeQuestion question candidateAnswer).score ≤ question.score) ∧
    ((gradeQuestion question candidateAnswer).correct = true ↔
      (gradeQuestion question candidateAnswer).score = question.score) ∧
    (question.type = .multipleChoice → selectedOptions (some question.standardAnswer) ≠ ∅ →
      (∀ xs ys : List Json, (∀ v, v ∈ xs ↔ v ∈ ys) →
        (gradeQuestion question (some (.arr xs))).score = (gradeQuestion question
            (some (.arr ys))).score) ∧
      ((gradeQuestion question candidateAnswer).score = question.score ↔
        selectedOptions candidateAnswer = selectedOptions (some question.standardAnswer)) ∧
      ((gradeQuestion question candidateAnswer).score = question.score / 2 ↔
        (selectedOptions candidateAnswer ≠ ∅ ∧ selectedOptions candidateAnswer ⊂ selectedOptions
            (some question.standardAnswer)) ∧
          question.gradingRule.multiSelectScoring = .partialHalf) ∧
      ((gradeQuestion question candidateAnswer).score ≠ question.score →
        (gradeQuestion question candidateAnswer).score ≠ question.score / 2 →
        (gradeQuestion question candidateAnswer).score = 0)) := by
  refine ⟨gradeQuestion_score_bounds question candidateAnswer hscore.le, ?_, ?_⟩
  · unfold gradeQuestion
    cases htype : question.type with
    | textResponse => simp [isManualGradedQuestion, htype] at hauto
    | singleChoice | trueFalse | multipleChoice | fillBlank => exact beq_iff_eq
  · intro htype hstandard
    have hgrade : ∀ answer, gradeQuestion question answer = gradeMultipleChoice question answer := by
      intro answer
      unfold gradeQuestion
      rw [htype]
    simp only [hgrade]
    refine ⟨fun xs ys h => ?_,
      score_iff_cases hscore (fun hpart hfull => ?_) (gradeMultipleChoice_score question _ hstandard)⟩
    · rw [gradeMultipleChoice_score question _ hstandard,
        gradeMultipleChoice_score question _ hstandard, selectedOptions_congr h]
    · exact (Finset.ssubset_iff_subset_ne.mp hpart.1.2).2 hfull

end

/-! ## Half of a selection -/

def samplePartial : QuestionSnapshot :=
  { sampleChoice with
    type := .multipleChoice, standardAnswer := .arr [.str (js "a"), .str (js "b")]
    gradingRule := { sampleRule with multiSelectScoring := .partialHalf } }

theorem auto_graded_score_sample :
    (@gradeQuestion sampleHost samplePartial
        (some (.arr [.str (js "b"), .str (js "b"), .null]))).score = 2 / 2 := by
  let _ : Host := sampleHost
  have hlaw := (auto_graded_score samplePartial (some (.arr [.str (js "b"), .str (js "b"), .null]))
      (by decide) (by decide)).2.2
    rfl (by decide +kernel)
  exact hlaw.2.2.1.mpr (by decide +kernel)

end ExamSystem
