import ExamSystem.GradingWorkset
import ExamSystem.StoreLemmas

/-!
# Terminal aggregation

A workset with one terminal entry for each question aggregates, and the totals
are the sums over its entries.
-/

namespace ExamSystem

open Tx

/-! ## The shape of a workset -/

def entryShape (e : AttemptGradingEntry) : String × GradingEntryMode × ℚ :=
  (e.questionId, e.gradingMode, e.maxScore)

def questionShape (q : QuestionSnapshot) : String × GradingEntryMode × ℚ :=
  (q.originalQuestionId, questionMode q, q.score)

theorem questionIds_of_shape {entries : List AttemptGradingEntry} {questions : List QuestionSnapshot}
    (h : entries.map entryShape = questions.map questionShape) :
    entries.map (·.questionId) = questions.map (·.originalQuestionId) := by
  have hids := congrArg (List.map Prod.fst) h
  rw [List.map_map, List.map_map] at hids
  exact hids

theorem maxScores_of_shape {entries : List AttemptGradingEntry} {questions : List QuestionSnapshot}
    (h : entries.map entryShape = questions.map questionShape) :
    entries.map (·.maxScore) = questions.map (·.score) := by
  have hmax := congrArg (List.map fun s => s.2.2) h
  rw [List.map_map, List.map_map] at hmax
  exact hmax

/-! ## Indexing by question -/

theorem lastEntry_of_mem {entries : List AttemptGradingEntry} (hn : (entries.map (·.questionId)).Nodup)
    {e : AttemptGradingEntry} (he : e ∈ entries) : lastEntry entries e.questionId = some e := by
  have hrev : (entries.reverse.map (·.questionId)).Nodup := by
    rw [List.map_reverse]
    exact List.nodup_reverse.mpr hn
  exact Rows.row_of_mem (·.questionId) hrev (List.mem_reverse.mpr he)

theorem filterMap_lastEntry {entries : List AttemptGradingEntry}
    (hn : (entries.map (·.questionId)).Nodup) :
    (entries.map (·.questionId)).filterMap (lastEntry entries) = entries := by
  rw [List.filterMap_map]
  have hsome : ∀ e ∈ entries, (lastEntry entries ∘ (·.questionId)) e = some e :=
    fun e he => lastEntry_of_mem hn he
  rw [List.filterMap_congr hsome, List.filterMap_some]

theorem checkDuplicates_eq_ok {attemptId : String} :
    ∀ {entries : List AttemptGradingEntry} {seen : List String},
    checkDuplicates attemptId seen entries = .ok () ↔
      (entries.map (·.questionId)).Nodup ∧ ∀ e ∈ entries, e.questionId ∉ seen
  | [], seen => by simp [checkDuplicates, pure, Except.pure]
  | e :: entries, seen => by
    simp only [checkDuplicates, bind_eq_ok, require_eq_ok, exists_const, checkDuplicates_eq_ok,
      List.map_cons, List.nodup_cons, List.mem_cons, forall_eq_or_imp, List.mem_map, not_exists,
      not_and, not_or]
    constructor
    · rintro ⟨hseen, hn, hrest⟩
      exact ⟨⟨fun x hx => (hrest x hx).1, hn⟩, hseen, fun x hx => (hrest x hx).2⟩
    · rintro ⟨⟨hne, hn⟩, hseen, hrest⟩
      exact ⟨hseen, hn, fun x hx => ⟨hne x hx, hrest x hx⟩⟩

/-! ## Aggregation -/

structure Terminal (e : AttemptGradingEntry) : Prop where
  status : e.status = expectedTerminalStatus e.gradingMode
  earned : ∃ s, e.earnedScore = some s ∧ 0 ≤ s ∧ s ≤ e.maxScore

theorem validateTerminalEntry_eq_ok {attemptId : String} {entries : List AttemptGradingEntry}
    {q : QuestionSnapshot} {e : AttemptGradingEntry}
    (he : lastEntry entries q.originalQuestionId = some e) (hshape : entryShape e = questionShape q) :
    validateTerminalEntry attemptId entries q = .ok () ↔ Terminal e := by
  have hmode : e.gradingMode = questionMode q := congrArg (·.2.1) hshape
  have hmax : e.maxScore = q.score := congrArg (·.2.2) hshape
  simp only [validateTerminalEntry, bind_eq_ok, orThrow_eq_ok, require_eq_ok, exists_const, he,
    Option.some.injEq, exists_eq_left', hmode, hmax, true_and]
  constructor
  · rintro ⟨hs, s, hearned, hb⟩
    exact ⟨by rw [hmode]; exact hs, s, hearned, by rw [hmax]; exact hb⟩
  · rintro ⟨hs, s, hearned, hb⟩
    rw [hmode] at hs
    rw [hmax] at hb
    exact ⟨hs, s, hearned, hb⟩

section
variable [Host]

def earnedTotal (entries : List AttemptGradingEntry) : ℚ :=
  sumScores (entries.map fun e => e.earnedScore.getD 0)

variable {a : ExamAttempt} {entries : List AttemptGradingEntry} {passingScore : ℚ}

theorem aggregate_eq_ok (hshape : entries.map entryShape = a.questionSnapshot.map questionShape)
    (hn : (a.questionSnapshot.map (·.originalQuestionId)).Nodup) :
    (∃ aggregated, aggregateGradingEntries a entries passingScore = .ok aggregated) ↔
    ∀ e ∈ entries, Terminal e := by
  have hids := questionIds_of_shape hshape
  have hlen : entries.length = a.questionSnapshot.length := by
    have hmap : (entries.map entryShape).length = entries.length := List.length_map _
    rw [← hmap, hshape, List.length_map]
  have hentry : ∀ q ∈ a.questionSnapshot, ∃ e ∈ entries, entryShape e = questionShape q := by
    intro q hq
    have hmem : questionShape q ∈ entries.map entryShape := hshape ▸ List.mem_map_of_mem hq
    exact List.mem_map.mp hmem
  have hquestion : ∀ e ∈ entries, ∃ q ∈ a.questionSnapshot, questionShape q = entryShape e := by
    intro e he
    have hmem : entryShape e ∈ a.questionSnapshot.map questionShape := hshape ▸ List.mem_map_of_mem he
    exact List.mem_map.mp hmem
  rw [← hids] at hn
  have hlast : ∀ {q : QuestionSnapshot} {e : AttemptGradingEntry}, e ∈ entries →
      entryShape e = questionShape q → lastEntry entries q.originalQuestionId = some e := by
    intro q e he heq
    have hid : e.questionId = q.originalQuestionId := congrArg Prod.fst heq
    rw [← hid]
    exact lastEntry_of_mem hn he
  simp only [aggregateGradingEntries, bind_eq_ok, require_eq_ok, exists_const, hlen, true_and,
    pure_eq_ok]
  constructor
  · rintro ⟨aggregated, _, -, _, hall, -⟩ e he
    rw [forEach_eq_ok] at hall
    obtain ⟨q, hq, heq⟩ := hquestion e he
    exact (validateTerminalEntry_eq_ok (hlast he heq.symm) heq.symm).mp (hall q hq)
  · intro hterm
    refine ⟨_, (), checkDuplicates_eq_ok.mpr ⟨hn, by simp⟩, (), forEach_eq_ok.mpr ?_, rfl⟩
    intro q hq
    obtain ⟨e, he, heq⟩ := hentry q hq
    exact (validateTerminalEntry_eq_ok (hlast he heq) heq).mpr (hterm e he)

/-- The totals of an aggregate are the sums over the entries. -/
theorem aggregate_totals (hshape : entries.map entryShape = a.questionSnapshot.map questionShape)
    (hn : (a.questionSnapshot.map (·.originalQuestionId)).Nodup) {aggregated : GradingEntryAggregate}
    (h : aggregateGradingEntries a entries passingScore = .ok aggregated) :
    aggregated.totalScore = earnedTotal entries ∧
      aggregated.maxScore = sumScores (a.questionSnapshot.map (·.score)) ∧
      aggregated.passed = decide (passingScore ≤ earnedTotal entries) := by
  have hids := questionIds_of_shape hshape
  rw [← hids] at hn
  have hlookup : a.questionSnapshot.filterMap (fun q => lastEntry entries q.originalQuestionId) =
      entries := by
    have hentries := filterMap_lastEntry hn
    rw [hids, List.filterMap_map] at hentries
    exact hentries
  -- a result keeps the scores of its entry, so its column is the column of the entries
  have hcolumn : ∀ (f : QuestionScoreResult → ℚ) (g : AttemptGradingEntry → ℚ),
      (∀ q e, f (aggregateResult q e) = g e) →
      (a.questionSnapshot.filterMap fun q => (lastEntry entries q.originalQuestionId).map
          (aggregateResult q)).map f =
        entries.map g := by
    intro f g hfg
    rw [List.map_filterMap]
    conv_rhs => rw [← hlookup, List.map_filterMap]
    refine List.filterMap_congr fun q _ => ?_
    rw [Option.map_map]
    exact congrArg (Option.map · _) (funext fun e => hfg q e)
  simp only [aggregateGradingEntries, bind_eq_ok, require_eq_ok, exists_const, pure_eq_ok] at h
  obtain ⟨-, -, -, -, -, rfl⟩ := h
  have hscore := hcolumn (·.score) (fun e => e.earnedScore.getD 0) fun _ _ => rfl
  have hmax := hcolumn (·.maxScore) (·.maxScore) fun _ _ => rfl
  refine ⟨?_, ?_, ?_⟩
  · exact congrArg sumScores hscore
  · rw [maxScores_of_shape hshape] at hmax
    exact congrArg sumScores hmax
  · exact congrArg (fun l : List ℚ => decide (passingScore ≤ sumScores l)) hscore

theorem aggregate_maxScore {aggregated : GradingEntryAggregate}
    (h : aggregateGradingEntries a entries passingScore = .ok aggregated) :
    aggregated.maxScore = sumScores (aggregated.questionResults.map (·.maxScore)) := by
  simp only [aggregateGradingEntries, bind_eq_ok, pure_eq_ok] at h
  obtain ⟨-, -, -, -, -, -, rfl⟩ := h
  rfl

end

/-! ## Fresh entries -/

section
variable [Host]

theorem expectedEntry_shape (submitted : SubmittedAnswersSnapshot) (attemptId : String)
    (q : QuestionSnapshot) :
    entryShape ((expectedEntry submitted q).toRow attemptId) = questionShape q := by
  simp only [ExpectedGradingEntry.toRow, entryShape, questionShape, expectedEntry, questionMode]
  split <;> rfl

theorem expectedEntry_checks (submitted : SubmittedAnswersSnapshot) (attemptId : String)
    {q : QuestionSnapshot} (hq : 0 ≤ q.score) :
    Db.entryChecks ((expectedEntry submitted q).toRow attemptId) = .ok () := by
  have hmax := congrArg (·.2.2) (expectedEntry_shape submitted attemptId q)
  have hearned : ∀ s ∈ ((expectedEntry submitted q).toRow attemptId).earnedScore, 0 ≤ s ∧
      s ≤ q.score := by
    intro s hs
    by_cases hm : isManualGradedQuestion q
    · simp [expectedEntry, hm, ExpectedGradingEntry.toRow] at hs
    · simp only [expectedEntry, hm, ExpectedGradingEntry.toRow, Bool.false_eq_true, if_false,
        Option.mem_def, Option.some.injEq] at hs
      subst hs
      exact gradeQuestion_score_bounds q _ hq
  refine Db.entryChecks_eq_ok.mpr ⟨?_, fun s hs => (hearned s hs).1, fun s hs => ?_⟩
  · exact hq.trans_eq hmax.symm
  · exact (hearned s hs).2.trans_eq hmax.symm

/-- A fresh entry is terminal when it is automatic, and pending when it is not. -/
theorem expectedEntry_fresh (submitted : SubmittedAnswersSnapshot) (attemptId : String)
    {q : QuestionSnapshot} (hq : 0 ≤ q.score) :
    (isManualGradedQuestion q = false → Terminal ((expectedEntry submitted q).toRow attemptId)) ∧
      (isManualGradedQuestion q = true →
        ((expectedEntry submitted q).toRow attemptId).gradingMode = .manual ∧
          ((expectedEntry submitted q).toRow attemptId).status = .pendingManual) := by
  constructor
  · intro hm
    simp only [expectedEntry, hm, Bool.false_eq_true, if_false, ExpectedGradingEntry.toRow]
    exact ⟨rfl, _, rfl, gradeQuestion_score_bounds q _ hq⟩
  · intro hm
    simp only [expectedEntry, hm, if_true, ExpectedGradingEntry.toRow]
    exact ⟨trivial, trivial⟩

end

end ExamSystem
