import ExamSystem.WedgeSound
import Mathlib.Algebra.Order.BigOperators.Group.List

/-!
# The grading workset over its life

Materializing the workset and aggregating its entries grades like the legacy
path, which grades the snapshot against the answers in one pass. A submitted
attempt keeps a consistent workset through every manual score, and it aggregates
once no entry waits for a grader.
-/

namespace ExamSystem

open Tx

section
variable [Host]

/-! ## The rows of a submit -/

def ExamAttempt.frozenRows (a : ExamAttempt) (submitted : SubmittedAnswersSnapshot) :
    List AttemptGradingEntry :=
  a.questionSnapshot.map fun q => (expectedEntry submitted q).toRow a.id

section
variable {db db' : Db} {a : ExamAttempt} {submitted : SubmittedAnswersSnapshot}

theorem frozenRows_shape (a : ExamAttempt) (submitted : SubmittedAnswersSnapshot) :
    (a.frozenRows submitted).map entryShape = a.questionSnapshot.map questionShape := by
  rw [ExamAttempt.frozenRows, List.map_map]
  exact List.map_congr_left fun q _ => expectedEntry_shape submitted a.id q

theorem frozenRows_attemptId {e : AttemptGradingEntry} (h : e ∈ a.frozenRows submitted) :
    e.attemptId = a.id := by
  obtain ⟨q, -, rfl⟩ := List.mem_map.mp h
  rfl

theorem frozenRows_keys (hn : (a.questionSnapshot.map (·.originalQuestionId)).Nodup) :
    ((a.frozenRows submitted).map Db.entryKey).Nodup := by
  have hkeys : (a.frozenRows submitted).map Db.entryKey = (a.questionSnapshot.map
      (·.originalQuestionId)).map (Prod.mk a.id) := by
    simp [ExamAttempt.frozenRows, ExpectedGradingEntry.toRow, Db.entryKey]
  rw [hkeys]
  exact (List.nodup_map_iff fun _ _ h => (Prod.mk.inj h).2).mpr hn

theorem frozenRows_checks :
    (∀ e ∈ a.frozenRows submitted, Db.entryChecks e = .ok ()) ↔ ∀ q ∈ a.questionSnapshot,
      0 ≤ q.score := by
  constructor
  · intro h q hq
    have hmax : ((expectedEntry submitted q).toRow a.id).maxScore = q.score :=
      congrArg (·.2.2) (expectedEntry_shape submitted a.id q)
    exact hmax ▸ (Db.entryChecks_eq_ok.mp (h _ (List.mem_map_of_mem hq))).1
  · intro h e he
    obtain ⟨q, hq, rfl⟩ := List.mem_map.mp he
    exact expectedEntry_checks submitted a.id (h q hq)

theorem frozenRows_sound (hscore : ∀ q ∈ a.questionSnapshot, 0 ≤ q.score) :
    ∀ e ∈ a.frozenRows submitted, EntrySound e := by
  intro e he
  obtain ⟨q, hq, rfl⟩ := List.mem_map.mp he
  exact expectedEntry_sound submitted a.id (hscore q hq)

/-- Materializing a fresh workset of distinct questions. -/
theorem materialize_frozen (hfrozen : a.submittedAnswers = some submitted)
    (hnone : db.entriesOf a.id = []) (hn : (a.questionSnapshot.map (·.originalQuestionId)).Nodup) :
    materializeGradingWorkset db a = .ok db' ↔
      (∀ q ∈ a.questionSnapshot, 0 ≤ q.score) ∧
      db' = { db with gradingEntries := db.gradingEntries ++ a.frozenRows submitted } := by
  have hrows : materializeGradingWorkset db a = db.bulkCreateEntries (a.frozenRows submitted) := by
    simp [materializeGradingWorkset, computeExpectedGradingEntries, hfrozen, ExamAttempt.frozenRows,
      pure, Except.pure, Function.comp_def]
  rw [hrows, Db.bulkCreateEntries_eq_ok, frozenRows_checks]
  constructor
  · rintro ⟨hc, -, -, rfl⟩
    exact ⟨hc, rfl⟩
  · rintro ⟨hc, rfl⟩
    refine ⟨hc, frozenRows_keys hn, fun e he => ?_, rfl⟩
    rw [frozenRows_attemptId he]
    exact Db.findEntry_eq_none hnone

theorem entriesOf_frozen (hnone : db.entriesOf a.id = []) :
    ({ db with gradingEntries := db.gradingEntries ++ a.frozenRows submitted } : Db).entriesOf
      a.id = a.frozenRows submitted := by
  have hall : (a.frozenRows submitted).filter (fun e => decide (e.attemptId = a.id)) = a.frozenRows
      submitted :=
    List.filter_eq_self.mpr fun e he => by simp [frozenRows_attemptId he]
  rw [Db.entriesOf, List.filter_append, hall, show db.gradingEntries.filter _ = [] from hnone,
    List.nil_append]

end

/-! ## The two grading paths -/

theorem gradeQuestion_orNull (q : QuestionSnapshot) (answer : Option Json) :
    gradeQuestion q (some (orNull answer)) =
      { gradeQuestion q answer with candidateAnswer := some (orNull answer) } := by
  cases answer with
  | some answer =>
    show gradeQuestion q (some answer) = _
    unfold gradeQuestion
    cases q.type <;> rfl
  | none =>
    show gradeQuestion q (some .null) = _
    unfold gradeQuestion
    cases q.type with
    | fillBlank =>
      simp only [gradeFillBlank, makeResult]
      cases q.standardAnswer <;> rfl
    | _ => rfl

/-- The result as the workset keeps it, where a missing answer is `null`. -/
def QuestionScoreResult.withNull (r : QuestionScoreResult) : QuestionScoreResult :=
  { r with candidateAnswer := some (orNull r.candidateAnswer) }

theorem computeGradingResult_frozen {a : ExamAttempt} {submitted : SubmittedAnswersSnapshot}
    (hfrozen : a.submittedAnswers = some submitted) (exam : Exam) (now : Int) :
    computeGradingResult a exam now =
      let questionResults := a.questionSnapshot.map fun q => gradeQuestion q
        (frozenAnswer submitted q.originalQuestionId)
      { attemptId := a.id, totalScore := sumScores (questionResults.map (·.score))
        passed := exam.passingScore ≤ sumScores (questionResults.map (·.score))
        questionResults := questionResults, gradedAt := now } := by
  have hanswer : ∀ questionId, lastAnswer (submitted.answers.map fun x => ⟨x.questionId, x.value, 0,
      now⟩) questionId = frozenAnswer submitted questionId := by
    intro questionId
    rw [lastAnswer, frozenAnswer, ← List.map_reverse, List.find?_map, Option.map_map]
    rfl
  simp only [computeGradingResult, hfrozen, gradeAnswers, hanswer]

theorem aggregateResult_expected {q : QuestionSnapshot} (hq : isManualGradedQuestion q = false)
    (submitted : SubmittedAnswersSnapshot) (attemptId : String) :
    aggregateResult q ((expectedEntry submitted q).toRow attemptId) =
      (gradeQuestion q (frozenAnswer submitted q.originalQuestionId)).withNull := by
  have hnull := gradeQuestion_orNull q (frozenAnswer submitted q.originalQuestionId)
  have hid := gradeQuestion_questionId q (frozenAnswer submitted q.originalQuestionId)
  have hmax := gradeQuestion_maxScore q (frozenAnswer submitted q.originalQuestionId)
  have hanswers := gradeQuestion_answers q (frozenAnswer submitted q.originalQuestionId)
  simp only [expectedEntry, hq, Bool.false_eq_true, if_false, ExpectedGradingEntry.toRow,
    aggregateResult, QuestionScoreResult.withNull, hnull, Option.getD_some, hid, hmax, hanswers.1,
    hanswers.2]

section
variable {a : ExamAttempt} {entries rows : List AttemptGradingEntry} {passingScore : ℚ}

omit [Host] in
theorem lastEntry_perm (hp : entries.Perm rows) (hn : (rows.map (·.questionId)).Nodup) :
    lastEntry entries = lastEntry rows := by
  have hn' : (entries.map (·.questionId)).Nodup := (hp.map _).nodup_iff.mpr hn
  funext questionId
  cases hrow : lastEntry rows questionId with
  | some e =>
    have he : e ∈ entries := hp.mem_iff.mpr (List.mem_reverse.mp (List.mem_of_find?_eq_some hrow))
    have hid : e.questionId = questionId := by simpa using List.find?_some hrow
    rw [← hid]
    exact lastEntry_of_mem hn' he
  | none =>
    rw [lastEntry, List.find?_eq_none] at hrow ⊢
    exact fun e he => hrow e (List.mem_reverse.mpr (hp.mem_iff.mp (List.mem_reverse.mp he)))

theorem aggregate_perm (hp : entries.Perm rows) (hn : (rows.map (·.questionId)).Nodup) :
    aggregateGradingEntries a entries passingScore = aggregateGradingEntries a rows passingScore := by
  have hn' : (entries.map (·.questionId)).Nodup := (hp.map _).nodup_iff.mpr hn
  have hchecked : ∀ {l : List AttemptGradingEntry}, (l.map (·.questionId)).Nodup →
      checkDuplicates a.id [] l = .ok () :=
    fun hl => checkDuplicates_eq_ok.mpr ⟨hl, fun _ _ => List.not_mem_nil⟩
  have hvalidate : validateTerminalEntry a.id entries = validateTerminalEntry a.id rows := by
    funext q
    simp only [validateTerminalEntry, lastEntry_perm hp hn]
  simp only [aggregateGradingEntries, hp.length_eq, hchecked hn, hchecked hn', hvalidate,
    lastEntry_perm hp hn]

/-- The results of an aggregate, question by question. -/
theorem aggregate_results {aggregated : GradingEntryAggregate}
    (h : aggregateGradingEntries a rows passingScore = .ok aggregated) :
    aggregated.questionResults =
      (a.questionSnapshot.filterMap fun q => (lastEntry rows q.originalQuestionId).map
          (aggregateResult q)) ∧
    aggregated.totalScore = sumScores (aggregated.questionResults.map (·.score)) ∧
    aggregated.passed = decide (passingScore ≤ aggregated.totalScore) := by
  simp only [aggregateGradingEntries, bind_eq_ok, pure_eq_ok] at h
  obtain ⟨-, -, -, -, -, -, rfl⟩ := h
  exact ⟨rfl, rfl, rfl⟩

end

/-- For a frozen attempt of distinct automatic questions and a store with none of
its entries: the workset can be stored exactly when no question is worth less than
nothing, and then its entries, read in any order, aggregate to the results, the
total and the decision of the legacy path. -/
theorem grading_paths_agree (db : Db) (a : ExamAttempt) (exam : Exam) (now : Int)
    (submitted : SubmittedAnswersSnapshot) (hfrozen : a.submittedAnswers = some submitted)
    (hnone : db.entriesOf a.id = []) (hn : (a.questionSnapshot.map (·.originalQuestionId)).Nodup)
    (hauto : ∀ q ∈ a.questionSnapshot, q.type ≠ .textResponse) :
    ((∃ db', materializeGradingWorkset db a = .ok db') ↔ ∀ q ∈ a.questionSnapshot, 0 ≤ q.score) ∧
    ∀ db', materializeGradingWorkset db a = .ok db' → ∀ entries, entries.Perm (db'.entriesOf a.id) →
      ∃ aggregated, aggregateGradingEntries a entries exam.passingScore = .ok aggregated ∧
        aggregated.questionResults = (computeGradingResult a exam now).questionResults.map
          (·.withNull) ∧
        aggregated.totalScore = (computeGradingResult a exam now).totalScore ∧
        aggregated.passed = (computeGradingResult a exam now).passed := by
  refine ⟨?_, fun db' h entries hp => ?_⟩
  · constructor
    · rintro ⟨db', h⟩
      exact ((materialize_frozen hfrozen hnone hn).mp h).1
    · exact fun hscore => ⟨_, (materialize_frozen hfrozen hnone hn).mpr ⟨hscore, rfl⟩⟩
  · obtain ⟨hscore, rfl⟩ := (materialize_frozen hfrozen hnone hn).mp h
    rw [entriesOf_frozen hnone] at hp
    have hshape := frozenRows_shape a submitted
    have hids : ((a.frozenRows submitted).map (·.questionId)).Nodup := questionIds_of_shape hshape ▸ hn
    have hmanual : ∀ q ∈ a.questionSnapshot, isManualGradedQuestion q = false := by
      intro q hq
      simpa [isManualGradedQuestion] using hauto q hq
    have hterm : ∀ e ∈ a.frozenRows submitted, Terminal e := by
      intro e he
      obtain ⟨q, hq, rfl⟩ := List.mem_map.mp he
      exact (expectedEntry_fresh submitted a.id (hscore q hq)).1 (hmanual q hq)
    obtain ⟨aggregated, hagg⟩ : ∃ aggregated, aggregateGradingEntries a
        (a.frozenRows submitted) exam.passingScore = .ok aggregated :=
      (aggregate_eq_ok hshape hn).mpr hterm
    obtain ⟨hresults, htotal, hpassed⟩ := aggregate_results hagg
    have hrows : aggregated.questionResults = (computeGradingResult a exam now).questionResults.map
        (·.withNull) := by
      rw [hresults, computeGradingResult_frozen hfrozen, List.map_map]
      rw [← List.filterMap_eq_map]
      refine List.filterMap_congr fun q hq => ?_
      have hrow : (expectedEntry submitted q).toRow a.id ∈ a.frozenRows submitted :=
        List.mem_map_of_mem hq
      have hlast := lastEntry_of_mem hids hrow
      rw [show ((expectedEntry submitted q).toRow a.id).questionId = q.originalQuestionId
          from expectedEntry_questionId submitted q] at hlast
      rw [hlast]
      exact congrArg some (aggregateResult_expected (hmanual q hq) submitted a.id)
    have hscores : aggregated.totalScore = (computeGradingResult a exam now).totalScore := by
      rw [htotal, hrows, List.map_map, computeGradingResult_frozen hfrozen]
      rfl
    refine ⟨aggregated, (aggregate_perm hp hids).trans hagg, hrows, hscores, ?_⟩
    rw [hpassed, hscores, computeGradingResult_frozen hfrozen]

end

/-- A choice answered right, one answered wrong, a blank, and a question without an answer. -/
def sampleAutomatic : List QuestionSnapshot :=
  [sampleChoice, { sampleChoice with originalQuestionId := "q2", type := .trueFalse, score := 1 },
    { sampleChoice with originalQuestionId := "q3", type := .fillBlank, score := 3 },
    { sampleChoice with originalQuestionId := "q4", score := 4 }]

def sampleAutomaticAnswers : SubmittedAnswersSnapshot :=
  ⟨[⟨"q1", .str (js "a")⟩, ⟨"q2", .str (js "b")⟩, ⟨"q3", .str (js " A ")⟩]⟩

theorem grading_paths_agree_sample :
    let a := { sampleAttempt with
               questionSnapshot := sampleAutomatic, submittedAnswers := some sampleAutomaticAnswers }
    ∃ db' aggregated, @materializeGradingWorkset sampleHost sampleDb a = .ok db' ∧
      @aggregateGradingEntries sampleHost a
        (db'.entriesOf "attempt").reverse sampleExam.passingScore = .ok aggregated ∧
        aggregated.questionResults.map (·.score) = [2, 0, 3, 0] ∧ aggregated.totalScore = 5 := by
  let _ : Host := sampleHost
  intro a
  obtain ⟨hstored, hagree⟩ :=
    grading_paths_agree sampleDb a sampleExam 1000 sampleAutomaticAnswers rfl rfl (by decide)
      (by decide)
  obtain ⟨db', hdb'⟩ := hstored.mpr (by decide)
  obtain ⟨aggregated, hagg, hresults, htotal, -⟩ := hagree db' hdb' _ (List.reverse_perm _)
  refine ⟨db', aggregated, hdb', hagg, ?_, htotal.trans (by decide +kernel)⟩
  rw [hresults]
  decide +kernel

/-! ## The workset under grading -/

section
variable [Host]

/-- The entry is the row of the submit, or a manual row of it that was scored. -/
inductive Progresses (row : AttemptGradingEntry) : AttemptGradingEntry → Prop
  | fresh : Progresses row row
  | scored {score : ℚ} {comment graderId : String} {gradedAt : Int} (hm : row.gradingMode = .manual)
      (hb : 0 ≤ score ∧ score ≤ row.maxScore) : Progresses row
        (row.complete score comment graderId gradedAt)

/-- The entries of a submitted attempt are the rows of its submit, each as it was
inserted or scored, and its questions are distinct and of possible scores. -/
structure InProgress (db : Db) (a : ExamAttempt) (submitted : SubmittedAnswersSnapshot)
    (f : AttemptGradingEntry → AttemptGradingEntry) : Prop where
  frozen : a.submittedAnswers = some submitted
  distinct : (a.questionSnapshot.map (·.originalQuestionId)).Nodup
  scores : ∀ q ∈ a.questionSnapshot, 0 ≤ q.score
  entries : db.entriesOf a.id = (a.frozenRows submitted).map f
  rows : ∀ row ∈ a.frozenRows submitted, Progresses row (f row)

def WorksetsProgress (attemptId : String) (db : Db) : Prop :=
  ∀ a, db.findAttempt attemptId = some a → a.Frozen → ∃ submitted f, InProgress db a submitted f

section
omit [Host]
variable {row e : AttemptGradingEntry}

theorem Progresses.key (h : Progresses row e) : Db.entryKey e = Db.entryKey row := by
  cases h <;> rfl

theorem Progresses.shape (h : Progresses row e) : entryShape e = entryShape row := by
  cases h <;> rfl

theorem Progresses.sound (h : Progresses row e) (hrow : EntrySound row) : EntrySound e := by
  cases h with
  | fresh => exact hrow
  | scored hm hb => exact .complete hm hb

theorem Progresses.pending (h : Progresses row e) (hs : e.status = .pendingManual) : e = row := by
  cases h with
  | fresh => rfl
  | scored hm hb => cases hs

end

namespace InProgress

variable {db db' : Db} {a b : ExamAttempt} {submitted : SubmittedAnswersSnapshot}
    {f : AttemptGradingEntry → AttemptGradingEntry}

theorem keys (h : InProgress db a submitted f) : ((db.entriesOf a.id).map Db.entryKey).Nodup := by
  have hkeys : (db.entriesOf a.id).map Db.entryKey = (a.frozenRows submitted).map Db.entryKey := by
    rw [h.entries, List.map_map]
    exact List.map_congr_left fun row hrow => (h.rows row hrow).key
  exact hkeys ▸ frozenRows_keys h.distinct

theorem shape (h : InProgress db a submitted f) :
    (db.entriesOf a.id).map entryShape = a.questionSnapshot.map questionShape := by
  rw [h.entries, List.map_map, ← frozenRows_shape a submitted]
  exact List.map_congr_left fun row hrow => (h.rows row hrow).shape

theorem sound (h : InProgress db a submitted f) : ∀ e ∈ db.entriesOf a.id, EntrySound e := by
  intro e he
  rw [h.entries] at he
  obtain ⟨row, hrow, rfl⟩ := List.mem_map.mp he
  exact (h.rows row hrow).sound (frozenRows_sound h.scores row hrow)

theorem of_row (h : InProgress db a submitted f) (hs : SameSubmission a b) (hid : b.id = a.id)
    (he : db'.entriesOf a.id = db.entriesOf a.id) : InProgress db' b submitted f := by
  have hrows : b.frozenRows submitted = a.frozenRows submitted := by
    simp only [ExamAttempt.frozenRows, hs.questionSnapshot, hid]
  refine ⟨hs.submittedAnswers.trans h.frozen, ?_, ?_, ?_, ?_⟩
  · exact hs.questionSnapshot ▸ h.distinct
  · exact hs.questionSnapshot ▸ h.scores
  · rw [hid, hrows, he, h.entries]
  · exact hrows ▸ h.rows

theorem score {entry : AttemptGradingEntry} {score : ℚ} (h : InProgress db a submitted f)
    (comment graderId : String) (now : Int) (hs : Scores db b entry score) :
    ∃ f', InProgress (db.updateEntry b.id entry.questionId (·.complete score comment graderId now))
      a submitted f' := by
  refine ⟨fun row => if Db.entryKey (f row) = (b.id,
      entry.questionId) then (f row).complete score comment graderId now else f row,
    h.frozen, h.distinct, h.scores, ?_, fun row hrow => ?_⟩
  · rw [entriesOf_updateEntry (f := (·.complete _ _ _ _)) db a.id b.id entry.questionId
        (fun _ => rfl), h.entries, Rows.modify,
      List.map_map]
    rfl
  · split
    · rename_i hkey
      have hmem : f row ∈ db.entriesOf a.id := h.entries ▸ List.mem_map_of_mem hrow
      have hat : (f row).attemptId = a.id := by simpa using (List.mem_filter.mp hmem).2
      have hid : b.id = a.id := (congrArg Prod.fst hkey).symm.trans hat
      -- the stored entry is one of the attempt, and keys are distinct
      have hentry : entry ∈ db.entriesOf a.id := by
        refine List.mem_filter.mpr ⟨Rows.mem_of_row _ hs.stored, ?_⟩
        have hk := Rows.key_of_row Db.entryKey hs.stored
        simpa [Db.entryKey, hid] using congrArg Prod.fst hk
      have heq : f row = entry :=
        List.inj_on_of_nodup_map h.keys hmem hentry
          (hkey.trans (Rows.key_of_row Db.entryKey hs.stored).symm)
      have hrow' : f row = row := (h.rows row hrow).pending (heq ▸ hs.pending)
      rw [hrow']
      rw [hrow'] at heq
      exact .scored (heq ▸ hs.manual) (heq ▸ hs.bounds)
    · exact h.rows row hrow

end InProgress

/-- A change keeps the entries of an attempt, or freezes it, or scores an entry. -/
theorem Change.entriesOf {now : Int} {db db' : Db} (h : Change now db db') (attemptId : String) :
    db'.entriesOf attemptId = db.entriesOf attemptId ∨
      (∃ a submittedAt reason events, a.id = attemptId ∧ Freezes db a events ∧
        db' = db.freeze a submittedAt reason events) ∨
      ∃ b entry score comment graderId, Scores db b entry score ∧
        db' = db.updateEntry b.id entry.questionId (·.complete score comment graderId now) := by
  rcases h with h | h | h
  case adjust => exact .inl rfl
  case examWrite => exact .inl rfl
  cases h with
  | @freeze a submittedAt reason events h =>
    by_cases hid : attemptId = a.id
    · exact .inr (.inl ⟨a, submittedAt, reason, events, hid.symm, h, rfl⟩)
    · left
      rw [entriesOf_freeze, if_neg hid, List.append_nil]
  | @score b entry score comment graderId h =>
    exact .inr (.inr ⟨b, entry, score, comment, graderId, h, rfl⟩)
  | save _ | touch _ _ | detect _ _ _ _ | restore _ _ _ _ | close _ | create _ => exact .inl rfl

theorem worksetsProgress_change {attemptId : String} {now : Int} {db db' : Db}
    (h : WorksetsProgress attemptId db) (hc : Change now db db') :
    WorksetsProgress attemptId db' := by
  intro a' ha' hf'
  rcases hc.row_cases ha' with ⟨input, hcr, -⟩ | ⟨a, ha, hstep⟩
  · rw [ExamAttempt.Frozen, hcr.status] at hf'; simp at hf'
  obtain rfl := Db.findAttempt_id ha
  by_cases hf : a.Frozen
  · have hs := hstep.frozen hf
    have hid : a'.id = a.id := Db.findAttempt_id ha'
    obtain ⟨submitted, f, hp⟩ := h a ha hf
    rcases hc.entriesOf a.id with he | ⟨b, _, _, _, hb, hfr, -⟩ | ⟨b, entry, score, comment,
      graderId, hscores, rfl⟩
    · exact ⟨submitted, f, hp.of_row hs hid he⟩
    · obtain rfl : a = b := Option.some.inj (ha.symm.trans (hb ▸ hfr.found))
      rcases hfr.events.active with hs | hs <;> simp [ExamAttempt.Frozen, hs] at hf
    · obtain rfl : a = a' := Option.some.inj (ha.symm.trans ha')
      obtain ⟨f', hp'⟩ := hp.score comment graderId now hscores
      exact ⟨submitted, f', hp'⟩
  · cases hstep with
    | @freeze events submittedAt reason hfr hdb =>
      subst hdb
      have hchecks : ∀ e ∈ a.frozenRows
          (buildSubmittedAnswersSnapshot a.answers a.questionSnapshot), Db.entryChecks e = .ok () :=
        hfr.checks
      refine ⟨_, id, rfl, hfr.distinct, frozenRows_checks.mp hchecks, ?_, fun _ _ => .fresh⟩
      rw [List.map_id]
      show (db.freeze a submittedAt reason events).entriesOf a.id = a.workset
      rw [entriesOf_freeze, hfr.unmaterialized, if_pos rfl, List.nil_append]
    | close h _ => exact absurd (.inl h.submitted) hf
    | same | save _ _ _ _ _ | extend _ _ => exact absurd hf' hf
    | touch hs | restore hs | detect _ hs =>
      simp [ExamAttempt.Frozen, ExamAttempt.touch, ExamAttempt.restore,
        ExamAttempt.markDisrupted, hs] at hf'

/-! ## Consistency -/

theorem expectedEntry_valid (attemptId : String) (submitted : SubmittedAnswersSnapshot)
    (q : QuestionSnapshot) :
    let exp := expectedEntry submitted q
    (if exp.gradingMode = .auto then validateAutoEntry attemptId exp (exp.toRow attemptId)
      else validateManualEntry attemptId (exp.toRow attemptId)) = .ok () := by
  intro exp
  cases hm : isManualGradedQuestion q with
  | false =>
    have hmode : exp.gradingMode = .auto := by simp [exp, expectedEntry, hm]
    have hstatus : exp.status = .completedAuto := by simp [exp, expectedEntry, hm]
    rw [if_pos hmode]
    simp only [validateAutoEntry, bind_eq_ok, require_eq_ok, exists_const]
    exact ⟨hstatus, rfl, rfl⟩
  | true =>
    have hmode : exp.gradingMode ≠ .auto := by simp [exp, expectedEntry, hm]
    have hstatus : exp.status = .pendingManual := by simp [exp, expectedEntry, hm]
    have hearned : exp.earnedScore = none := by simp [exp, expectedEntry, hm]
    have hcorrect : exp.correct = none := by simp [exp, expectedEntry, hm]
    rw [if_neg hmode]
    simp only [validateManualEntry, bind_eq_ok, require_eq_ok, exists_const]
    simp [ExpectedGradingEntry.toRow, hstatus, hearned, hcorrect]

omit [Host] in
theorem complete_valid {row : AttemptGradingEntry} {attemptId : String} {score : ℚ}
    {comment graderId : String} {gradedAt : Int} (hb : 0 ≤ score ∧ score ≤ row.maxScore) :
    validateManualEntry attemptId (row.complete score comment graderId gradedAt) = .ok () := by
  simp only [validateManualEntry, bind_eq_ok, require_eq_ok, exists_const]
  refine ⟨.inr rfl, (fun h => by cases h), (fun h => by cases h), fun _ => rfl, fun _ s hs => ?_,
    fun _ s hs => ?_⟩
  · obtain rfl := Option.some.inj hs
    exact hb
  · obtain rfl := Option.some.inj hs
    exact congrArg some (decide_eq_decide.mpr Iff.rfl)

/-- The entry of a question in progress passes every check against its question. -/
theorem validateExpectedEntry_progresses {attemptId : String} {submitted : SubmittedAnswersSnapshot}
    {q : QuestionSnapshot} {entries : List AttemptGradingEntry} {e : AttemptGradingEntry}
    (he : lastEntry entries q.originalQuestionId = some e)
    (hp : Progresses ((expectedEntry submitted q).toRow attemptId) e) :
    validateExpectedEntry attemptId entries (expectedEntry submitted q) = .ok () := by
  have hid : (expectedEntry submitted q).questionId = q.originalQuestionId :=
    expectedEntry_questionId submitted q
  simp only [validateExpectedEntry, bind_eq_ok, orThrow_eq_ok, require_eq_ok, exists_const, hid, he,
    Option.some.injEq, exists_eq_left']
  cases hp with
  | fresh => exact ⟨rfl, rfl, beq_self_eq_true _, beq_self_eq_true _,
      expectedEntry_valid attemptId submitted q⟩
  | scored hm hb =>
    have hmode : (expectedEntry submitted q).gradingMode ≠ .auto := by
      rw [show (expectedEntry submitted q).gradingMode = .manual from hm]
      exact fun h => by cases h
    refine ⟨rfl, rfl, beq_self_eq_true _, beq_self_eq_true _, ?_⟩
    rw [if_neg hmode]
    exact complete_valid hb

namespace InProgress

variable {db : Db} {a : ExamAttempt} {submitted : SubmittedAnswersSnapshot}
    {f : AttemptGradingEntry → AttemptGradingEntry} {entries : List AttemptGradingEntry}

theorem consistent (h : InProgress db a submitted f) (hp : entries.Perm (db.entriesOf a.id)) :
    validateGradingWorksetConsistency a entries = .ok () := by
  have hids : ((db.entriesOf a.id).map (·.questionId)).Nodup :=
    questionIds_of_shape h.shape ▸ h.distinct
  have hlen : entries.length = (a.questionSnapshot.map (expectedEntry submitted)).length := by
    rw [hp.length_eq, h.entries]
    simp [ExamAttempt.frozenRows]
  have hcompute : computeExpectedGradingEntries a = .ok
      (a.questionSnapshot.map (expectedEntry submitted)) := by
    simp [computeExpectedGradingEntries, h.frozen, pure, Except.pure]
  simp only [validateGradingWorksetConsistency, hcompute, bind_eq_ok, require_eq_ok, forEach_eq_ok,
    Except.ok.injEq, exists_eq_left']
  refine ⟨(), hlen, (), fun exp hexp => ?_, fun e he => ?_⟩
  · obtain ⟨q, hq, rfl⟩ := List.mem_map.mp hexp
    have hrow : (expectedEntry submitted q).toRow a.id ∈ a.frozenRows submitted :=
      List.mem_map_of_mem hq
    have hprog := h.rows _ hrow
    have hmem : f ((expectedEntry submitted q).toRow a.id) ∈ db.entriesOf a.id :=
      h.entries ▸ List.mem_map_of_mem hrow
    have hlast := lastEntry_of_mem hids hmem
    have hquestion : (f ((expectedEntry submitted q).toRow a.id)).questionId = q.originalQuestionId :=
      (congrArg Prod.snd hprog.key).trans (expectedEntry_questionId submitted q)
    rw [hquestion, ← lastEntry_perm hp hids] at hlast
    exact validateExpectedEntry_progresses hlast hprog
  · have hmem := hp.mem_iff.mp he
    rw [h.entries] at hmem
    obtain ⟨row, hrow, rfl⟩ := List.mem_map.mp hmem
    obtain ⟨q, hq, rfl⟩ := List.mem_map.mp hrow
    exact ⟨_, List.mem_map_of_mem hq, (congrArg Prod.snd (h.rows _ hrow).key).symm⟩

theorem countPendingManual (h : InProgress db a submitted f) :
    db.countPendingManual a.id = 0 ↔ ∀ e ∈ db.entriesOf a.id, Terminal e := by
  rw [Db.countPendingManual, List.length_eq_zero_iff, List.filter_eq_nil_iff]
  constructor
  · intro hnone e he
    refine (h.sound e he).terminal fun hs => ?_
    have hm := (h.sound e he).manual_of_pending hs
    exact hnone e he (by simp [hs, hm])
  · intro hterm e he hpending
    obtain ⟨hm, hs⟩ : e.gradingMode = .manual ∧ e.status = .pendingManual := by simpa using hpending
    have hstatus := (hterm e he).status
    rw [hs, hm] at hstatus
    cases hstatus

theorem earnedTotal_bounds (h : InProgress db a submitted f)
    (hterm : ∀ e ∈ db.entriesOf a.id, Terminal e) (hexact : ExactSums) :
    0 ≤ earnedTotal (db.entriesOf a.id) ∧
    earnedTotal (db.entriesOf a.id) ≤ (a.questionSnapshot.map (·.score)).sum := by
  have hbounds : ∀ e ∈ db.entriesOf a.id, 0 ≤ e.earnedScore.getD 0 ∧
      e.earnedScore.getD 0 ≤ e.maxScore := by
    intro e he
    obtain ⟨s, hs, hb⟩ := (hterm e he).earned
    rw [hs]
    exact hb
  rw [earnedTotal, sumScores_exact hexact]
  constructor
  · refine List.sum_nonneg fun s hs => ?_
    obtain ⟨e, he, rfl⟩ := List.mem_map.mp hs
    exact (hbounds e he).1
  · rw [← maxScores_of_shape h.shape]
    exact List.sum_le_sum fun e he => (hbounds e he).2

end InProgress

/-- From every store in which the attempt is not submitted, after every run of
commands that leaves it submitted: its workset is consistent, aggregates exactly
when no entry waits for a grader, and then, where scores are added as rationals, to
a total between nothing and the worth of its questions. -/
theorem workset_consistent (db : Db) (attemptId : String)
    (hopen : ∀ a, db.findAttempt attemptId = some a → ¬ a.Frozen) (cs : List Command)
    (a : ExamAttempt) (ha : (run Command.step db cs).findAttempt attemptId = some a) (hf : a.Frozen)
    (entries : List AttemptGradingEntry)
    (hp : entries.Perm ((run Command.step db cs).entriesOf attemptId)) :
    validateGradingWorksetConsistency a entries = .ok () ∧
    ∀ passingScore,
      ((∃ aggregated, aggregateGradingEntries a entries passingScore = .ok aggregated) ↔
        (run Command.step db cs).countPendingManual attemptId = 0) ∧
      ∀ aggregated, aggregateGradingEntries a entries passingScore = .ok aggregated → ExactSums →
        0 ≤ aggregated.totalScore ∧ aggregated.totalScore ≤ (a.questionSnapshot.map (·.score)).sum := by
  have hend : WorksetsProgress attemptId (run Command.step db cs) :=
    closure_invariant (fun _ _ h hc => hc.elim fun _ hc => worksetsProgress_change h hc)
      (run_changes cs db)
      fun a ha hf => absurd hf (hopen a ha)
  obtain ⟨submitted, f, h⟩ := hend a ha hf
  obtain rfl := Db.findAttempt_id ha
  have hids : (((run Command.step db cs).entriesOf a.id).map (·.questionId)).Nodup :=
    questionIds_of_shape h.shape ▸ h.distinct
  refine ⟨h.consistent hp, fun passingScore => ?_⟩
  rw [aggregate_perm hp hids, h.countPendingManual]
  refine ⟨aggregate_eq_ok h.shape h.distinct, fun aggregated hagg hexact => ?_⟩
  rw [(aggregate_totals h.shape h.distinct hagg).1]
  exact h.earnedTotal_bounds ((aggregate_eq_ok h.shape h.distinct).mp ⟨aggregated, hagg⟩) hexact

end

def sampleGraded : List Command := [.submit "attempt" "candidate" 2000,
      .grade "attempt" "q2" 3 "" "grader" 80000]

@[reducible] def exactHost : Host := { sampleHost with add := (· + ·) }

theorem workset_consistent_sample :
    ∃ a, (run (@Command.step exactHost) sampleDb sampleGraded).findAttempt "attempt" = some a ∧
      @validateGradingWorksetConsistency exactHost a
        ((run (@Command.step exactHost) sampleDb sampleGraded).entriesOf "attempt") = .ok () ∧
      ∃ aggregated, @aggregateGradingEntries exactHost a
          ((run (@Command.step exactHost) sampleDb sampleGraded).entriesOf "attempt") 3 =
            .ok aggregated ∧
        aggregated.totalScore ≤ (a.questionSnapshot.map (·.score)).sum := by
  let _ : Host := exactHost
  obtain ⟨a, ha⟩ : ∃ a, (run Command.step sampleDb sampleGraded).findAttempt "attempt" = some a :=
    Option.isSome_iff_exists.mp (by decide +kernel)
  have hfrozen : a.Frozen := by
    have hstatus : ((run Command.step sampleDb sampleGraded).findAttempt "attempt").map
      (·.status) = some .graded := by decide +kernel
    rw [ha] at hstatus
    exact .inr (Option.some.inj hstatus)
  obtain ⟨hvalid, hagg⟩ := workset_consistent sampleDb "attempt" (fun b hb hf => by
    obtain rfl := Option.some.inj hb
    simp [ExamAttempt.Frozen, sampleAttempt] at hf) sampleGraded a ha hfrozen _ (.refl _)
  obtain ⟨hterminal, hbounds⟩ := hagg 3
  obtain ⟨aggregated, haggregated⟩ := hterminal.mpr (by decide +kernel)
  exact ⟨a, ha, hvalid, aggregated, haggregated, (hbounds aggregated haggregated fun _ _ => rfl).2⟩

end ExamSystem
