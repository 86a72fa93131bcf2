import ExamSystem.Binary64
import ExamSystem.Store

/-!
# What the repository operations do

One lemma per operation: when it succeeds, and the store it leaves. The other
tables are untouched by definition.
-/

namespace ExamSystem

open Tx

namespace Db

/-! ## Attempts -/

section
variable (db : Db) (attemptId : String) {f : ExamAttempt → ExamAttempt}

theorem findAttempt_id {db : Db} {attemptId : String} {a : ExamAttempt}
    (h : db.findAttempt attemptId = some a) :
    a.id = attemptId :=
  Rows.key_of_row _ h

theorem findAttempt_mem {db : Db} {attemptId : String} {a : ExamAttempt}
    (h : db.findAttempt attemptId = some a) :
    a ∈ db.attempts :=
  Rows.mem_of_row _ h

theorem findAttempt_updateAttempt (hf : ∀ a, (f a).id = a.id) (attemptId' : String) :
    (db.updateAttempt attemptId f).findAttempt attemptId' =
      if attemptId' = attemptId then (db.findAttempt attemptId).map f else db.findAttempt attemptId' :=
  Rows.row_modify _ hf _ _ _

theorem findAttempt_updateAttempt_self (hf : ∀ a, (f a).id = a.id) {a : ExamAttempt}
    (h : db.findAttempt attemptId = some a) :
    (db.updateAttempt attemptId f).findAttempt attemptId = some (f a) := by
  rw [findAttempt_updateAttempt db attemptId hf, if_pos rfl, h]; rfl

end

section
variable {db db' : Db}

theorem createAttempt_eq_ok {a : ExamAttempt} : db.createAttempt a = .ok db' ↔
    db.findAttempt a.id = none ∧
      (∀ b ∈ db.attempts, ¬ (b.enrollmentId = a.enrollmentId ∧ b.attemptNo = a.attemptNo)) ∧
      db' = { db with attempts := db.attempts ++ [a] } := by
  simp only [createAttempt, bind_eq_ok, require_eq_ok, pure_eq_ok, exists_const]
  exact and_congr_right fun _ => and_congr_right fun _ => eq_comm

theorem findAttempt_append {a : ExamAttempt} (h : db.findAttempt a.id = none) (attemptId : String) :
    ({ db with attempts := db.attempts ++ [a] } : Db).findAttempt attemptId =
      if attemptId = a.id then some a else db.findAttempt attemptId :=
  Rows.row_concat_fresh _ h attemptId

/-! ## Replay receipts -/

theorem appendAnswerReceipt_eq_ok {attemptId : String} {r : AnswerReceipt} :
    db.appendAnswerReceipt attemptId r = .ok db' ↔
      FitsInteger r.clientSeq ∧ 0 ≤ r.clientSeq ∧
      db.findAnswerReceipt attemptId r.questionId r.clientSeq = none ∧
      db' = { db with answerReceipts := db.answerReceipts ++
        [{ attemptId := attemptId, receipt := r }] } := by
  simp only [appendAnswerReceipt, bind_eq_ok, require_eq_ok, pure_eq_ok, exists_const]
  exact and_congr_right fun _ => and_congr_right fun _ => and_congr_right fun _ => eq_comm

theorem findAnswerReceiptByKey_eq_ok {attemptId questionId : String} {clientSeq : Int}
    {receipt : Option AnswerReceipt} :
    db.findAnswerReceiptByKey attemptId questionId clientSeq = .ok receipt ↔
      FitsInteger clientSeq ∧ receipt = db.findAnswerReceipt attemptId questionId clientSeq := by
  simp only [findAnswerReceiptByKey, bind_eq_ok, require_eq_ok, pure_eq_ok, exists_const]
  exact and_congr_right fun _ => eq_comm

theorem findAnswerReceipt_eq_none {attemptId questionId : String} {clientSeq : Int} :
    db.findAnswerReceipt attemptId questionId clientSeq = none ↔
      Rows.row receiptKey db.answerReceipts (attemptId, questionId, clientSeq) = none := by
  simp [findAnswerReceipt]

theorem findAnswerReceipt_append {attemptId : String} {r : AnswerReceipt}
    (h : db.findAnswerReceipt attemptId r.questionId r.clientSeq = none) (a q : String) (s : Int) :
    ({ db with answerReceipts := db.answerReceipts ++ [{ attemptId := attemptId, receipt := r }] } :
        Db).findAnswerReceipt a q s =
      if (a, q, s) = (attemptId, r.questionId, r.clientSeq) then some r
        else db.findAnswerReceipt a q s := by
  have h' := findAnswerReceipt_eq_none.mp h
  simp only [findAnswerReceipt]
  rw [Rows.row_concat_fresh receiptKey h']
  by_cases hk : (a, q, s) = (attemptId, r.questionId, r.clientSeq) <;> simp [receiptKey, hk]

theorem mem_receiptsOf {attemptId q : String} {r : AnswerReceipt} :
    r ∈ db.receiptsOf attemptId q ↔
      ({ attemptId := attemptId, receipt := r } : AnswerReceiptRow) ∈ db.answerReceipts ∧
      r.questionId = q := by
  simp only [receiptsOf, List.mem_map, List.mem_filter, decide_eq_true_eq]
  constructor
  · rintro ⟨⟨b, x⟩, ⟨hrow, rfl, hq⟩, rfl⟩
    exact ⟨hrow, hq⟩
  · rintro ⟨hrow, hq⟩
    exact ⟨_, ⟨hrow, rfl, hq⟩, rfl⟩

theorem receiptsOf_append (db : Db) (attemptId : String) (receipt : AnswerReceipt) (b q : String) :
    ({ db with answerReceipts := db.answerReceipts ++
      [{ attemptId := attemptId, receipt := receipt }] } :
        Db).receiptsOf b q =
      db.receiptsOf b q ++ if attemptId = b ∧ receipt.questionId = q then [receipt] else [] := by
  simp only [receiptsOf, List.filter_append, List.map_append, List.filter_singleton]
  by_cases h : attemptId = b ∧ receipt.questionId = q <;> simp [h]

theorem receiptsOf_known {attemptId q : String} {s : Int}
    (h : db.findAnswerReceipt attemptId q s = none) :
    ∀ r ∈ db.receiptsOf attemptId q, r.clientSeq ≠ s := by
  intro r hr he
  obtain ⟨hrow, rfl⟩ := mem_receiptsOf.mp hr
  refine (Rows.row_eq_none _).mp (findAnswerReceipt_eq_none.mp h) _ hrow ?_
  simp [receiptKey, he]

theorem receiptsOf_found {attemptId q : String} {s : Int} {r : AnswerReceipt}
    (h : db.findAnswerReceipt attemptId q s = some r) :
    r ∈ db.receiptsOf attemptId q ∧ r.clientSeq = s := by
  obtain ⟨⟨b, x⟩, hrow, rfl⟩ := Option.map_eq_some_iff.mp h
  have hkey := Rows.key_of_row receiptKey hrow
  simp only [receiptKey, Prod.mk.injEq] at hkey
  obtain ⟨rfl, rfl, rfl⟩ := hkey
  exact ⟨mem_receiptsOf.mpr ⟨Rows.mem_of_row _ hrow, rfl⟩, rfl⟩

/-! ## Grading entries -/

theorem entryChecks_eq_ok {e : AttemptGradingEntry} {u : Unit} : entryChecks e = .ok u ↔
    0 ≤ e.maxScore ∧ (∀ s ∈ e.earnedScore, 0 ≤ s) ∧ ∀ s ∈ e.earnedScore, s ≤ e.maxScore := by
  simp only [entryChecks, bind_eq_ok, require_eq_ok, exists_const]

theorem insertEntry_eq_ok {e : AttemptGradingEntry} : db.insertEntry e = .ok db' ↔
    entryChecks e = .ok () ∧ db.findEntry e.attemptId e.questionId = none ∧
      db' = { db with gradingEntries := db.gradingEntries ++ [e] } := by
  simp only [insertEntry, bind_eq_ok, require_eq_ok, pure_eq_ok, exists_const]
  constructor
  · rintro ⟨_, hc, hf, rfl⟩; exact ⟨hc, hf, rfl⟩
  · rintro ⟨hc, hf, rfl⟩; exact ⟨(), hc, hf, rfl⟩

theorem bulkCreateEntries_eq_ok : ∀ {es : List AttemptGradingEntry} {db db' : Db},
    db.bulkCreateEntries es = .ok db' ↔
      (∀ e ∈ es, entryChecks e = .ok ()) ∧ (es.map entryKey).Nodup ∧
      (∀ e ∈ es, db.findEntry e.attemptId e.questionId = none) ∧
      db' = { db with gradingEntries := db.gradingEntries ++ es }
  | [], db, db' => by rw [bulkCreateEntries, pure_eq_ok]; simpa using eq_comm
  | e :: es, db, db' => by
    have hfind : ∀ x : AttemptGradingEntry, db.findEntry e.attemptId e.questionId = none →
        (({ db with gradingEntries := db.gradingEntries ++ [e] } : Db).findEntry x.attemptId
            x.questionId = none ↔
          entryKey x ≠ entryKey e ∧ db.findEntry x.attemptId x.questionId = none) := by
      intro x he
      rw [findEntry, Rows.row_concat_fresh entryKey he]
      by_cases hk : entryKey x = entryKey e
      · have : (x.attemptId, x.questionId) = entryKey e := hk
        simp [this, hk]
      · have : (x.attemptId, x.questionId) ≠ entryKey e := hk
        simp [this, hk, findEntry]
    simp only [bulkCreateEntries, bind_eq_ok, insertEntry_eq_ok, bulkCreateEntries_eq_ok]
    constructor
    · rintro ⟨_, ⟨hc, he, rfl⟩, hcs, hn, hfresh, rfl⟩
      refine ⟨by simpa using ⟨hc, hcs⟩, ?_, ?_, by simp⟩
      · refine List.nodup_cons.mpr ⟨?_, hn⟩
        intro hmem
        obtain ⟨x, hx, hk⟩ := List.mem_map.mp hmem
        exact ((hfind x he).mp (hfresh x hx)).1 hk
      · intro x hx
        rcases List.mem_cons.mp hx with rfl | hx
        · exact he
        · exact ((hfind x he).mp (hfresh x hx)).2
    · rintro ⟨hcs, hn, hfresh, rfl⟩
      obtain ⟨hne, hn⟩ := List.nodup_cons.mp hn
      have he := hfresh e (by simp)
      refine ⟨_, ⟨hcs e (by simp), he, rfl⟩, fun x hx => hcs x (by simp [hx]), hn, ?_, by simp⟩
      intro x hx
      refine (hfind x he).mpr ⟨?_, hfresh x (by simp [hx])⟩
      intro hk
      exact hne (hk ▸ List.mem_map_of_mem hx)

/-! ## Interruptions and adjustments -/

theorem createInterruption_eq_ok {i : AttemptInterruption} : db.createInterruption i = .ok db' ↔
    (∀ j ∈ db.interruptions, j.id ≠ i.id) ∧
    db' = { db with interruptions := db.interruptions ++ [i] } := by
  simp only [createInterruption, bind_eq_ok, require_eq_ok, pure_eq_ok, exists_const]
  exact and_congr_right fun _ => eq_comm

theorem insertInterruptionEvent_eq_ok {e : AttemptInterruptionEvent} :
    db.insertInterruptionEvent e = .ok db' ↔
    (e.eventType = .detected → db.findDetected e.interruptionId = none) ∧
      (isOutcome e → db.findOutcome e.interruptionId = none) ∧
      (∃ i ∈ db.interruptions, i.id = e.interruptionId ∧ i.attemptId = e.attemptId) ∧
      (∀ s ∈ e.eligibleSeconds, 0 ≤ s) ∧
      db' = { db with interruptionEvents := db.interruptionEvents ++ [e] } := by
  simp only [insertInterruptionEvent, bind_eq_ok, require_eq_ok, pure_eq_ok, exists_const]
  exact and_congr_right fun _ => and_congr_right fun _ => and_congr_right fun _ =>
    and_congr_right fun _ => eq_comm

theorem insertAdjustment_eq_ok {a : AttemptTimeAdjustment} : db.insertAdjustment a = .ok db' ↔
    db.findAdjustment a.id = none ∧ db.findByOperationId a.operationId = none ∧
      (a.source = .boundedGrace → ∀ i ∈ a.interruptionId, db.findBoundedByInterruption i = none) ∧
      0 < a.addedSeconds ∧ a.beforeDeadline < a.afterDeadline ∧
      a.afterDeadline = a.beforeDeadline + a.addedSeconds * 1000 ∧
      db' = { db with timeAdjustments := db.timeAdjustments ++ [a] } := by
  simp only [insertAdjustment, bind_eq_ok, require_eq_ok, pure_eq_ok, exists_const]
  exact and_congr_right fun _ => and_congr_right fun _ => and_congr_right fun _ =>
    and_congr_right fun _ =>
    and_congr_right fun _ => and_congr_right fun _ => eq_comm

end

end Db

/-! ## A sample store -/

/-- The digests of the JSON texts of "a" and "b"; ASCII lower case. -/
@[reducible] def sampleHost : Host where
  add := Binary64.add
  sha256 s :=
    if s = js "\"a\"" then "ac8d8342bbb2362d13f0a559a3621bb407011368895164b628a54f7fc33fc43c"
    else if s = js "\"b\"" then "c100f95c1913f9c72fc1f4ef0847e1e723ffe0bde0b36e5f36c13f81fe8c26ed"
    else ""
  numberToString q := js (toString q.num)
  toLocaleLowerCase s := s.map fun u => if 0x41 ≤ u ∧ u ≤ 0x5A then u + 0x20 else u
  toLowerCase s := s.map fun u => if 0x41 ≤ u ∧ u ≤ 0x5A then u + 0x20 else u

def sampleRule : GradingRule :=
  { multiSelectScoring := .allCorrectFull, fillBlankMatchMode := .exact,
    fillBlankCaseSensitive := none }

def sampleChoice : QuestionSnapshot :=
  { originalQuestionId := "q1", type := .singleChoice, content := js "Pick one", contentDocument := none
    answerMode := none, attachments := [], options := [], standardAnswer := .str (js "a")
    score := 2, gradingRule := sampleRule
    order := 0, rubric := none }

def sampleText : QuestionSnapshot :=
  { sampleChoice with
    originalQuestionId := "q2", type := .textResponse, standardAnswer := .null, score := 3, order := 1
    rubric := some (js "Any reason") }

def sampleFlags : ControlFlags :=
  { shuffleQuestions := false, shuffleOptions := false, detectTabSwitch := false,
    disableCopyPaste := false
    requireQueue := false, batchSize := 1, batchInterval := 1, restrictIp := false
    requireLockdown := false }

def sampleExam : Exam :=
  { id := "exam", courseId := "course", status := .open, timingMode := .timedWindow,
    durationMinutes := some 1
    openAt := 0, closeAt := some 600000, passingScore := 3, totalScore := 5
    questionSelectionMode := .manual
    questionIds := ["q1", "q2"], questionSnapshot := [sampleChoice, sampleText]
    controlFlags := sampleFlags
    retakePolicy := .unlimited, scoreStrategy := .highest, maxAttempts := 1
    latestStartOffsetMinutes := none
    minSubmitAfterStartMinutes := none, resultPublicationMode := .immediate, resultsPublishedAt := none
    syncStartedAt := none, interruptionTimePolicy := none, interruptionGracePerIncidentSeconds := none
    interruptionGracePerAttemptSeconds := none }

def sampleEnrollment : ExamEnrollment :=
  { id := "enrollment", examId := "exam", candidateId := "candidate", status := .started,
      attemptCount := 1
    finalScore := none, finalPassed := none, finalAttemptId := none }

def sampleAttempt : ExamAttempt :=
  { id := "attempt", examId := "exam", enrollmentId := "enrollment", candidateId := "candidate",
    attemptNo := 1
    status := .inProgress, questionSnapshot := [sampleChoice, sampleText], answers := []
    gradingResult := none
    score := none, passed := none, startedAt := some 0, submittedAt := none, gradedAt := none
    deadlineAt := some 60000, lastActivityAt := some 0
    interruptionTimingPolicySnapshot :=
      some { policy := .strict, perIncidentCapSeconds := none, perAttemptAggregateCapSeconds := none }
    currentInterruptionId := none, interruptedAt := none, gradingStatus := some .autoGraded
    submittedAnswers := none
    submissionReason := none }

def sampleDb : Db :=
  { exam := sampleExam, enrollment := sampleEnrollment, attempts := [sampleAttempt],
    answerReceipts := []
    gradingEntries := [], interruptions := [], interruptionEvents := [], timeAdjustments := [] }

end ExamSystem
