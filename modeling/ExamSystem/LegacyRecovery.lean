import ExamSystem.WorksetSound

/-!
# Recovery of a missing workset

An operator's script rebuilds the grading workset of a submitted attempt that has
none, from the frozen answers alone. It writes the entries and the grading status
and no terminal fact, a second call finds nothing to do, and the attempt is then
graded as after a submit.
-/

namespace ExamSystem

open Tx

/-! ## The script -/

inductive LegacyWorksetRecoveryAction
  | materialized | validatedNoOp | wouldMaterialize | wouldValidate
  deriving DecidableEq, Repr

structure GradingStatusAlignment where
  source : Option GradingStatus
  target : GradingStatus
  deriving DecidableEq, Repr

structure LegacyWorksetRecoveryResult where
  attemptId : String
  action : LegacyWorksetRecoveryAction
  entryCount : Nat
  gradingStatusAlignment : Option GradingStatusAlignment
  deriving DecidableEq, Repr

def ExamAttempt.terminalFacts (a : ExamAttempt) : List String :=
  ([("score", a.score.isSome), ("passed", a.passed.isSome), ("grading_result", a.gradingResult.isSome),
    ("graded_at", a.gradedAt.isSome)].filter (·.2)).map (·.1)

def recoverError (attemptId detail : String) : EngineError :=
  .error s!"recover: attempt {attemptId} {detail}"

def recoveryPreflight (db : Db) (attemptId : String) : Result ExamAttempt := do
  let fail := recoverError attemptId
  let attempt ← orThrow (db.findAttempt attemptId) (fail "not found")
  require (attempt.status = .submitted)
    (fail (s!"has status='{attempt.status.text}'. Refusing: the script only accepts the post-disposition shape " ++
      "status='submitted'. Disposition unresolved legacy 'grading' rows per the 0043 operator runbook first, then re-run."))
  require (attempt.terminalFacts = [])
    (fail ("already carries terminal fact(s): " ++ String.intercalate ", " attempt.terminalFacts ++
          ". " ++
      "Refusing: contradictory data is not proven crash residue — investigate its origin first (0043 runbook)."))
  require (attempt.gradingStatus ≠ some .fullyGraded)
    (fail ("carries grading_status='fully_graded' while status='submitted'. Refusing: contradictory terminal grading " ++
      "lifecycle data is not proven crash residue."))
  require attempt.submittedAnswers.isSome
    (fail ("has no frozen submitted_answers. Refusing: run `pnpm --filter @exam/api backfill:submitted-answers` first — " ++
      "the workset is derived ONLY from frozen submitted truth."))
  require (attempt.questionSnapshot ≠ [])
    (fail ("has an absent or empty questionSnapshot. Refusing: canonical derivation requires the frozen question universe."))
  pure attempt

def gradingStatusAlignment (a : ExamAttempt) : Option GradingStatusAlignment :=
  if a.gradingStatus = some (freezeStatus a.questionSnapshot) then none
  else some { source := a.gradingStatus, target := freezeStatus a.questionSnapshot }

def ExamAttempt.align (alignment : Option GradingStatusAlignment) (a : ExamAttempt) : ExamAttempt :=
  match alignment with
  | none => a
  | some alignment => { a with gradingStatus := some alignment.target }

def recoverInTx [Host] (db : Db) (attemptId : String) (dryRun : Bool) :
    Result (LegacyWorksetRecoveryResult × Db) := do
  let attempt ← recoveryPreflight db attemptId
  let existingEntries := db.entriesOf attemptId
  if existingEntries = [] then
    let expected ← computeExpectedGradingEntries attempt
    let alignment := gradingStatusAlignment attempt
    let result (action : LegacyWorksetRecoveryAction) : LegacyWorksetRecoveryResult :=
      { attemptId := attemptId, action := action, entryCount := expected.length,
        gradingStatusAlignment := alignment }
    if dryRun then pure (result .wouldMaterialize, db)
    else
      let db ← db.bulkCreateEntries (expected.map (·.toRow attempt.id))
      pure (result .materialized, db.updateAttempt attemptId (·.align alignment))
  else
    validateGradingWorksetConsistency attempt existingEntries
    require (attempt.gradingStatus = some (freezeStatus attempt.questionSnapshot))
      (recoverError attemptId
          ("workset is structurally valid but grading_status does not match the canonical frozen " ++
        "classification ('" ++ (attempt.gradingStatus.map (·.text)).getD "NULL" ++ "' != '" ++
          (freezeStatus attempt.questionSnapshot).text ++ "'). " ++
        "Refusing to return validated_no_op: a non-zero workset with a mismatched lifecycle label is contradictory data, " ++
        "not proven crash residue — investigate before recovery."))
    pure ({ attemptId := attemptId, action := if dryRun then .wouldValidate else .validatedNoOp,
            entryCount := existingEntries.length, gradingStatusAlignment := none }, db)

def recoverLegacyGradingWorkset [Host] (db : Db) (attemptId : String) (dryRun : Bool) :
    Result (LegacyWorksetRecoveryResult × Db) := recoverInTx db attemptId dryRun

def Db.loseWorkset (db : Db) (attemptId : String) (label : Option GradingStatus) : Db :=
  { db.updateAttempt attemptId (fun a => { a with gradingStatus := label }) with
    gradingEntries := db.gradingEntries.filter fun e => e.attemptId ≠ attemptId }

def sampleSubmitted : Db := run (@Command.step sampleHost) sampleDb [.submit "attempt" "candidate" 2000]

def sampleLegacy : Db := sampleSubmitted.loseWorkset "attempt" (some .autoGraded)

/-! ## What a call does -/

structure Recoverable (db : Db) (a : ExamAttempt) (submitted : SubmittedAnswersSnapshot) : Prop where
  found : db.findAttempt a.id = some a
  status : a.status = .submitted
  ungraded : a.terminalFacts = []
  label : a.gradingStatus ≠ some .fullyGraded
  frozen : a.submittedAnswers = some submitted
  questions : a.questionSnapshot ≠ []

theorem recoveryPreflight_eq_ok {db : Db} {attemptId : String} {a : ExamAttempt} :
    recoveryPreflight db attemptId = .ok a ↔ a.id = attemptId ∧
    ∃ submitted, Recoverable db a submitted := by
  simp only [recoveryPreflight, bind_eq_ok, orThrow_eq_ok, require_eq_ok, exists_const, pure_eq_ok,
    Option.isSome_iff_exists]
  constructor
  · rintro ⟨b, hb, hs, hu, hl, ⟨submitted, hf⟩, hq, rfl⟩
    obtain rfl := Db.findAttempt_id hb
    exact ⟨rfl, submitted, hb, hs, hu, hl, hf, hq⟩
  · rintro ⟨rfl, submitted, h⟩
    exact ⟨a, h.found, h.status, h.ungraded, h.label, ⟨submitted, h.frozen⟩, h.questions, rfl⟩

def ExamAttempt.relabel (a : ExamAttempt) : ExamAttempt :=
  { a with gradingStatus := some (freezeStatus a.questionSnapshot) }

theorem align_eq (a : ExamAttempt) : a.align (gradingStatusAlignment a) = a.relabel := by
  unfold gradingStatusAlignment ExamAttempt.align ExamAttempt.relabel
  by_cases h : a.gradingStatus = some (freezeStatus a.questionSnapshot)
  · rw [if_pos h]
    simp [← h]
  · rw [if_neg h]

section
variable [Host]

def Db.recovered (db : Db) (a : ExamAttempt) (submitted : SubmittedAnswersSnapshot) : Db :=
  { db.updateAttempt a.id (·.align (gradingStatusAlignment a)) with
    gradingEntries := db.gradingEntries ++ a.frozenRows submitted }

inductive Recovers (db : Db) (a : ExamAttempt) (submitted : SubmittedAnswersSnapshot) :
    Bool → LegacyWorksetRecoveryResult → Db → Prop
  | previewed (hnone : db.entriesOf a.id = []) :
      Recovers db a submitted true ⟨a.id, .wouldMaterialize, a.questionSnapshot.length,
        gradingStatusAlignment a⟩ db
  | materialized (hnone : db.entriesOf a.id = []) (hscores : ∀ q ∈ a.questionSnapshot, 0 ≤ q.score)
      (hn : (a.questionSnapshot.map (·.originalQuestionId)).Nodup) :
      Recovers db a submitted false ⟨a.id, .materialized, a.questionSnapshot.length,
        gradingStatusAlignment a⟩
        (db.recovered a submitted)
  | validated {dryRun : Bool} (hsome : db.entriesOf a.id ≠ [])
      (hvalid : validateGradingWorksetConsistency a (db.entriesOf a.id) = .ok ())
      (hlabel : a.gradingStatus = some (freezeStatus a.questionSnapshot)) :
      Recovers db a submitted dryRun
        ⟨a.id, if dryRun then .wouldValidate else .validatedNoOp, (db.entriesOf a.id).length, none⟩ db

section
variable {db db' : Db} {a : ExamAttempt} {submitted : SubmittedAnswersSnapshot} {attemptId : String}
    {dryRun : Bool} {r : LegacyWorksetRecoveryResult}

theorem bulkCreate_frozen (hnone : db.entriesOf a.id = []) :
    db.bulkCreateEntries (a.frozenRows submitted) = .ok db' ↔
    (∀ q ∈ a.questionSnapshot, 0 ≤ q.score) ∧ (a.questionSnapshot.map (·.originalQuestionId)).Nodup ∧
      db' = { db with gradingEntries := db.gradingEntries ++ a.frozenRows submitted } := by
  rw [Db.bulkCreateEntries_eq_ok, frozenRows_checks]
  constructor
  · rintro ⟨hc, hn, -, rfl⟩
    have hids : (a.frozenRows submitted).map Db.entryKey = (a.questionSnapshot.map
        (·.originalQuestionId)).map (Prod.mk a.id) := by
      simp [ExamAttempt.frozenRows, ExpectedGradingEntry.toRow, Db.entryKey]
    rw [hids] at hn
    exact ⟨hc, hn.of_map _, rfl⟩
  · rintro ⟨hc, hn, rfl⟩
    refine ⟨hc, frozenRows_keys hn, fun e he => ?_, rfl⟩
    rw [frozenRows_attemptId he]
    exact Db.findEntry_eq_none hnone

theorem recoverInTx_eq_ok : recoverInTx db attemptId dryRun = .ok (r, db') ↔
    ∃ a submitted, a.id = attemptId ∧ Recoverable db a submitted ∧
    Recovers db a submitted dryRun r db' := by
  have hcompute : ∀ {a : ExamAttempt} {submitted : SubmittedAnswersSnapshot},
      a.submittedAnswers = some submitted →
      computeExpectedGradingEntries a = .ok (a.questionSnapshot.map (expectedEntry submitted)) := by
    intro a submitted hf
    simp [computeExpectedGradingEntries, hf, pure, Except.pure]
  have hrows : ∀ (a : ExamAttempt) (submitted : SubmittedAnswersSnapshot),
      (a.questionSnapshot.map (expectedEntry submitted)).map
        (·.toRow a.id) = a.frozenRows submitted := fun a submitted => by
    simp [ExamAttempt.frozenRows]
  simp only [recoverInTx, bind_eq_ok, recoveryPreflight_eq_ok]
  constructor
  · rintro ⟨a, ⟨rfl, submitted, ha⟩, h⟩
    refine ⟨a, submitted, rfl, ha, ?_⟩
    by_cases hnone : db.entriesOf a.id = []
    · rw [if_pos hnone] at h
      simp only [bind_eq_ok, hcompute ha.frozen, Except.ok.injEq, exists_eq_left', List.length_map,
        hrows] at h
      cases dryRun with
      | true =>
        simp only [if_true, pure_eq_ok, Prod.mk.injEq] at h
        obtain ⟨rfl, rfl⟩ := h
        exact .previewed hnone
      | false =>
        simp only [Bool.false_eq_true, if_false, bind_eq_ok, pure_eq_ok, Prod.mk.injEq,
          bulkCreate_frozen hnone] at h
        obtain ⟨_, ⟨hscores, hn, rfl⟩, rfl, rfl⟩ := h
        exact .materialized hnone hscores hn
    · rw [if_neg hnone] at h
      simp only [bind_eq_ok, require_eq_ok, exists_const, pure_eq_ok, Prod.mk.injEq] at h
      obtain ⟨⟨⟩, hvalid, hlabel, rfl, rfl⟩ := h
      exact .validated hnone hvalid hlabel
  · rintro ⟨a, submitted, rfl, ha, h⟩
    refine ⟨a, ⟨rfl, submitted, ha⟩, ?_⟩
    cases h with
    | previewed hnone =>
      simp [hnone, hcompute ha.frozen, pure, Except.pure]
    | materialized hnone hscores hn =>
      have hcreated : db.bulkCreateEntries (a.frozenRows submitted) = .ok _ :=
        (bulkCreate_frozen hnone).mpr ⟨hscores, hn, rfl⟩
      simp only [if_pos hnone, hcompute ha.frozen, ok_bind, hrows, hcreated, List.length_map]
      rfl
    | validated hsome hvalid hlabel =>
      simp only [if_neg hsome, hvalid, ok_bind, hlabel, Tx.require_true]
      rfl

/-! ## The workset after a call -/

theorem findAttempt_recovered (db : Db) (a : ExamAttempt) (submitted : SubmittedAnswersSnapshot)
    (attemptId : String) :
    (db.recovered a submitted).findAttempt attemptId =
      if attemptId = a.id then (db.findAttempt a.id).map (·.align (gradingStatusAlignment a))
        else db.findAttempt attemptId := by
  refine Db.findAttempt_updateAttempt db a.id (fun b => ?_) attemptId
  unfold ExamAttempt.align
  cases gradingStatusAlignment a <;> rfl

theorem entriesOf_recovered (db : Db) (a : ExamAttempt) (submitted : SubmittedAnswersSnapshot)
    (attemptId : String) :
    (db.recovered a submitted).entriesOf attemptId =
      db.entriesOf attemptId ++ if attemptId = a.id then a.frozenRows submitted else [] := by
  simp only [Db.recovered, Db.entriesOf, List.filter_append]
  congr 1
  by_cases hid : attemptId = a.id
  · rw [if_pos hid]
    exact List.filter_eq_self.mpr fun e he => by simp [frozenRows_attemptId he, hid]
  · rw [if_neg hid]
    exact List.filter_eq_nil_iff.mpr fun e he => by simp [frozenRows_attemptId he, Ne.symm hid]

theorem Recoverable.recovered_row (h : Recoverable db a submitted) :
    (db.recovered a submitted).findAttempt a.id = some a.relabel := by
  rw [findAttempt_recovered, if_pos rfl, h.found, Option.map_some, align_eq]

theorem frozenRows_relabel (a : ExamAttempt) (submitted : SubmittedAnswersSnapshot) :
    a.relabel.frozenRows submitted = a.frozenRows submitted := rfl

theorem Recoverable.inProgress (h : Recoverable db a submitted) (hnone : db.entriesOf a.id = [])
    (hscores : ∀ q ∈ a.questionSnapshot, 0 ≤ q.score)
    (hn : (a.questionSnapshot.map (·.originalQuestionId)).Nodup) :
    InProgress (db.recovered a submitted) a.relabel submitted id := by
  refine ⟨h.frozen, hn, hscores, ?_, fun _ _ => .fresh⟩
  rw [List.map_id, frozenRows_relabel]
  show (db.recovered a submitted).entriesOf a.id = _
  rw [entriesOf_recovered, hnone, if_pos rfl, List.nil_append]

/-- The attempt stays recoverable, and the next call finds a consistent workset. -/
theorem Recovers.again (ha : Recoverable db a submitted) (h : Recovers db a submitted false r db') :
    ∃ a', a'.id = a.id ∧ Recoverable db' a' submitted ∧ ∀ dryRun, Recovers db' a' submitted dryRun
      ⟨a.id, if dryRun then .wouldValidate else .validatedNoOp, r.entryCount, none⟩ db' := by
  cases h with
  | materialized hnone hscores hn =>
    have hprog := ha.inProgress hnone hscores hn
    have hentries : (db.recovered a submitted).entriesOf a.id = a.frozenRows submitted := by
      rw [entriesOf_recovered, hnone, if_pos rfl, List.nil_append]
    have hlen : ((db.recovered a submitted).entriesOf a.id).length = a.questionSnapshot.length := by
      rw [hentries, ExamAttempt.frozenRows, List.length_map]
    refine ⟨a.relabel, rfl, ⟨ha.recovered_row, ha.status, ha.ungraded, ?_, ha.frozen, ha.questions⟩,
      fun dryRun => ?_⟩
    · unfold ExamAttempt.relabel freezeStatus
      by_cases hm : requiresManualGrading a.questionSnapshot = true <;> simp [hm]
    · have hsome : (db.recovered a submitted).entriesOf a.relabel.id ≠ [] := by
        intro hnil
        have hzero : a.questionSnapshot.length = 0 := by
          rw [← hlen]
          exact congrArg List.length hnil
        exact ha.questions (List.length_eq_zero_iff.mp hzero)
      have hvalidated : Recovers _ a.relabel submitted dryRun _ _ :=
        .validated hsome (hprog.consistent (.refl _)) rfl
      rw [show ((db.recovered a submitted).entriesOf a.relabel.id).length = _ from hlen] at hvalidated
      exact hvalidated
  | validated hsome hvalid hlabel => exact ⟨a, rfl, ha, fun _ => .validated hsome hvalid hlabel⟩

/-- What the same call reports when it only looks. -/
theorem Recovers.preview (h : Recovers db a submitted false r db') :
    ∃ action, (r.action, action) ∈ [(.materialized, .wouldMaterialize),
      (.validatedNoOp, .wouldValidate)] ∧
      Recovers db a submitted true { r with action := action } db := by
  cases h with
  | materialized hnone hscores hn => exact ⟨.wouldMaterialize, by simp, .previewed hnone⟩
  | validated hsome hvalid hlabel => exact ⟨.wouldValidate, by simp, .validated hsome hvalid hlabel⟩

end

/-! ## One call -/

/-- A call that succeeds writes the entries and the label of its attempt alone,
the same call again finds nothing to do, and a dry run foretells it. -/
theorem legacy_recovery_settles (db : Db) (attemptId : String) (r : LegacyWorksetRecoveryResult)
    (db' : Db) (h : recoverLegacyGradingWorkset db attemptId false = .ok (r, db')) :
    (∃ a, db.findAttempt attemptId = some a ∧ a.status = .submitted ∧ a.terminalFacts = [] ∧
      db'.findAttempt attemptId =
        some { a with gradingStatus := some (freezeStatus a.questionSnapshot) }) ∧
    (∀ other, other ≠ attemptId →
      db'.findAttempt other = db.findAttempt other ∧ db'.entriesOf other = db.entriesOf other) ∧
    { db' with attempts := db.attempts, gradingEntries := db.gradingEntries } = db ∧
    recoverLegacyGradingWorkset db' attemptId false =
      .ok (⟨attemptId, .validatedNoOp, r.entryCount, none⟩, db') ∧
    ∃ action, (r.action, action) ∈ [(.materialized, .wouldMaterialize),
      (.validatedNoOp, .wouldValidate)] ∧
      recoverLegacyGradingWorkset db attemptId true = .ok ({ r with action := action }, db) := by
  obtain ⟨a, submitted, rfl, ha, hr⟩ := recoverInTx_eq_ok.mp h
  obtain ⟨a', hid, ha', hagain⟩ := hr.again ha
  obtain ⟨action, haction, hpreview⟩ := hr.preview
  refine ⟨⟨a, ha.found, ha.status, ha.ungraded, ?_⟩, ?_, ?_, ?_, action, haction, ?_⟩
  · cases hr with
    | materialized _ _ _ => exact ha.recovered_row
    | validated _ _ hlabel => rw [ha.found, ← hlabel]
  · intro other hne
    cases hr with
    | materialized _ _ _ =>
      rw [findAttempt_recovered, entriesOf_recovered, if_neg hne, if_neg hne, List.append_nil]
      exact ⟨rfl, rfl⟩
    | validated _ _ _ => exact ⟨rfl, rfl⟩
  · cases hr <;> rfl
  · exact recoverInTx_eq_ok.mpr ⟨a', submitted, hid, ha', hagain false⟩
  · exact recoverInTx_eq_ok.mpr ⟨a, submitted, rfl, ha, hpreview⟩

end

theorem legacy_recovery_settles_sample :
    ∃ r db', @recoverLegacyGradingWorkset sampleHost sampleLegacy "attempt" false = .ok (r, db') ∧
      r.gradingStatusAlignment = some ⟨some .autoGraded, .pendingManual⟩ ∧
      @recoverLegacyGradingWorkset sampleHost db' "attempt" false = .ok (⟨"attempt", .validatedNoOp,
          2, none⟩, db') := by
  let _ : Host := sampleHost
  obtain ⟨⟨r, db'⟩, h, hr⟩ : ∃ p, recoverLegacyGradingWorkset sampleLegacy "attempt" false = .ok p ∧
      decide (p.1 = ⟨"attempt", .materialized, 2, some ⟨some .autoGraded, .pendingManual⟩⟩) = true :=
    succeeds_iff.mp (by decide +kernel)
  obtain rfl := of_decide_eq_true hr
  exact ⟨_, db', h, rfl, (legacy_recovery_settles sampleLegacy "attempt" _ db' h).2.2.2.1⟩

/-! ## Runs with recoveries -/

inductive MaintenanceCommand
  | command (c : Command)
  | recover (attemptId : String) (dryRun : Bool)

section
variable [Host]

def MaintenanceCommand.step (m : MaintenanceCommand) (db : Db) : Result (Unit × Db) :=
  match m with
  | .command c => c.step db
  | .recover attemptId dryRun => do
    let (_, db) ← recoverLegacyGradingWorkset db attemptId dryRun
    pure ((), db)

/-- A submitted attempt on its way to its result: its entries are the rows of its
submit, each as inserted or scored, and its score is the sum of them. -/
structure Regrades (attemptId : String) (db : Db) (a : ExamAttempt) : Prop where
  found : db.findAttempt attemptId = some a
  questions : a.questionSnapshot ≠ []
  workset : ∃ submitted f, InProgress db a submitted f
  stage : (a.status = .submitted ∧ a.terminalFacts = [] ∧
    a.gradingStatus = some (freezeStatus a.questionSnapshot)) ∨
    (a.status = .graded ∧ a.score = some (earnedTotal (db.entriesOf attemptId)) ∧
      ∀ e ∈ db.entriesOf attemptId, Terminal e)

section
variable {db db' : Db} {a : ExamAttempt} {submitted : SubmittedAnswersSnapshot} {attemptId : String}
    {dryRun : Bool} {r : LegacyWorksetRecoveryResult}

theorem Regrades.frozen (h : Regrades attemptId db a) : a.Frozen := h.stage.imp And.left And.left

theorem Regrades.materialized (h : Regrades attemptId db a) : db.entriesOf attemptId ≠ [] := by
  obtain ⟨submitted, f, hp⟩ := h.workset
  obtain rfl := Db.findAttempt_id h.found
  intro hnil
  have hrows := hp.entries
  rw [hnil] at hrows
  exact h.questions (List.map_eq_nil_iff.mp (List.map_eq_nil_iff.mp hrows.symm))

omit [Host] in
theorem ExamAttempt.Frozen.inactive (h : a.Frozen)
    (ha : a.status = .inProgress ∨ a.status = .disrupted) : False := by
  rcases h with h | h <;> rcases ha with ha | ha <;> simp [h] at ha

omit [Host] in
theorem entriesOf_updateEntry_other (db : Db) {k questionId : String}
    {f : AttemptGradingEntry → AttemptGradingEntry} (hf : ∀ e, (f e).attemptId = e.attemptId)
    (hne : attemptId ≠ k) :
    (db.updateEntry k questionId f).entriesOf attemptId = db.entriesOf attemptId := by
  rw [entriesOf_updateEntry db attemptId k questionId hf, Rows.modify]
  have hsame : ∀ e ∈ db.entriesOf attemptId, (if Db.entryKey e = (k, questionId) then f e
      else e) = id e := by
    intro e he
    have hid : e.attemptId = attemptId := by simpa using (List.mem_filter.mp he).2
    refine if_neg fun hkey => hne ?_
    rw [← hid]
    exact congrArg Prod.fst hkey
  rw [List.map_congr_left hsame, List.map_id]

theorem Regrades.change {now : Int} (h : Regrades attemptId db a) (hc : Change now db db') :
    ∃ a', Regrades attemptId db' a' := by
  obtain ⟨submitted, f, hp⟩ := h.workset
  obtain ⟨a', ha', hstep⟩ := hc.row h.found
  obtain rfl := Db.findAttempt_id h.found
  have hs := hstep.frozen h.frozen
  have hid : a'.id = a.id := Db.findAttempt_id ha'
  have hq : a'.questionSnapshot ≠ [] := by
    rw [hs.questionSnapshot]
    exact h.questions
  rcases hc.entriesOf a.id with he | ⟨b, _, _, _, hb, hfr, -⟩ | ⟨b, entry, score, comment, graderId,
    hscores, rfl⟩
  · refine ⟨a', ha', hq, ⟨submitted, f, hp.of_row hs hid he⟩, ?_⟩
    rw [he]
    cases hstep with
    | same => exact h.stage
    | @close aggregated hcl hdb =>
      right
      have hagg := hcl.aggregate
      refine ⟨rfl, ?_, (aggregate_eq_ok hp.shape hp.distinct).mp ⟨aggregated, hagg⟩⟩
      exact congrArg some (aggregate_totals hp.shape hp.distinct hagg).1
    | save _ _ hns hng _ => exact (h.frozen.elim hns hng).elim
    | extend hadj _ => exact (h.frozen.inactive hadj.active).elim
    | freeze _ _ hfr _ => exact (h.frozen.inactive hfr.events.active).elim
    | touch hst => exact (h.frozen.inactive (.inl hst)).elim
    | detect _ hst => exact (h.frozen.inactive (.inl hst)).elim
    | restore hst => exact (h.frozen.inactive (.inr hst)).elim
  · obtain rfl : a = b := Option.some.inj (h.found.symm.trans (hb ▸ hfr.found))
    exact (h.frozen.inactive hfr.events.active).elim
  · obtain ⟨f', hp'⟩ := hp.score comment graderId now hscores
    refine ⟨a, h.found, h.questions, ⟨submitted, f', hp'⟩, ?_⟩
    by_cases hba : a.id = b.id
    · -- only a submitted attempt is scored
      obtain rfl : a = b := Option.some.inj (h.found.symm.trans (hba ▸ hscores.found))
      refine .inl (h.stage.resolve_right fun hg => ?_)
      have hsub := hscores.submitted
      rw [hg.1] at hsub
      cases hsub
    · rw [entriesOf_updateEntry_other (f := (·.complete _ _ _ _)) db (fun _ => rfl) hba]
      exact h.stage

theorem Regrades.recovers {b : ExamAttempt} (h : Regrades attemptId db a)
    (hb : Recovers db b submitted dryRun r db') :
    Regrades attemptId db' a := by
  cases hb with
  | previewed _ => exact h
  | validated _ _ _ => exact h
  | materialized hnone _ _ =>
    have hne : attemptId ≠ b.id := by
      rintro rfl
      exact h.materialized hnone
    have he : (db.recovered b submitted).entriesOf attemptId = db.entriesOf attemptId := by
      rw [entriesOf_recovered, if_neg hne, List.append_nil]
    obtain ⟨submitted', f, hp⟩ := h.workset
    obtain rfl := Db.findAttempt_id h.found
    refine ⟨?_, h.questions, ⟨submitted', f, hp.frozen, hp.distinct, hp.scores, he.trans hp.entries,
        hp.rows⟩, ?_⟩
    · rw [findAttempt_recovered, if_neg hne]
      exact h.found
    · rw [he]
      exact h.stage

theorem Regrades.step {m : MaintenanceCommand} {u : Unit} (h : ∃ a, Regrades attemptId db a)
    (hm : m.step db = .ok (u, db')) :
    ∃ a, Regrades attemptId db' a := by
  cases m with
  | command c =>
    have hchanges := run_changes [c] db
    rw [run_cons, run_nil, show c.step db = _ from hm] at hchanges
    refine closure_invariant (P := fun db => ∃ a, Regrades attemptId db a)
      (fun s t hs hc => ?_) hchanges h
    obtain ⟨now, hc⟩ := hc
    obtain ⟨a, ha⟩ := hs
    exact ha.change hc
  | recover k dryRun =>
    simp only [MaintenanceCommand.step, bind_eq_ok, pure_eq_ok, Prod.mk.injEq] at hm
    obtain ⟨⟨r, _⟩, hrec, -, rfl⟩ := hm
    obtain ⟨b, submitted, -, -, hb⟩ := recoverInTx_eq_ok.mp hrec
    exact h.imp fun _ h => h.recovers hb

end

/-- After a call that wrote the workset, through every run of commands and further
calls: the workset is consistent and aggregates once no entry waits for a grader,
and the attempt has no terminal fact until it is graded, by the sum of its entries. -/
theorem recovered_workset_grades (db : Db) (attemptId : String) (r : LegacyWorksetRecoveryResult)
    (db₁ : Db) (h : recoverLegacyGradingWorkset db attemptId false = .ok (r, db₁))
    (hr : r.action = .materialized) (ms : List MaintenanceCommand) :
    let db₂ := run MaintenanceCommand.step db₁ ms
    ∃ a, db₂.findAttempt attemptId = some a ∧
      (∀ entries, entries.Perm (db₂.entriesOf attemptId) →
        validateGradingWorksetConsistency a entries = .ok () ∧
        ∀ passingScore,
          (∃ aggregated, aggregateGradingEntries a entries passingScore = .ok aggregated) ↔
          db₂.countPendingManual attemptId = 0) ∧
      ((a.status = .submitted ∧ a.terminalFacts = [] ∧
          a.gradingStatus = some (freezeStatus a.questionSnapshot)) ∨
        (a.status = .graded ∧ a.score = some (earnedTotal (db₂.entriesOf attemptId)) ∧
          db₂.countPendingManual attemptId = 0)) := by
  intro db₂
  have hstart : ∃ a, Regrades attemptId db₁ a := by
    obtain ⟨a, submitted, rfl, ha, hrec⟩ := recoverInTx_eq_ok.mp h
    cases hrec with
    | validated _ _ _ => simp at hr
    | materialized hnone hscores hn =>
      exact ⟨a.relabel, ha.recovered_row, ha.questions, ⟨submitted, id, ha.inProgress hnone hscores hn⟩,
        .inl ⟨ha.status, ha.ungraded, rfl⟩⟩
  obtain ⟨a, hend⟩ : ∃ a, Regrades attemptId db₂ a :=
    run_invariant MaintenanceCommand.step (fun _ _ _ _ hs hm => Regrades.step hs hm) ms db₁ hstart
  obtain ⟨submitted, f, hp⟩ := hend.workset
  obtain rfl := Db.findAttempt_id hend.found
  have hids : ((db₂.entriesOf a.id).map (·.questionId)).Nodup :=
    questionIds_of_shape hp.shape ▸ hp.distinct
  refine ⟨a, hend.found, fun entries hperm => ⟨hp.consistent hperm, fun passingScore => ?_⟩, ?_⟩
  · rw [aggregate_perm hperm hids, hp.countPendingManual]
    exact aggregate_eq_ok hp.shape hp.distinct
  · exact hend.stage.imp id fun hg => ⟨hg.1, hg.2.1, hp.countPendingManual.mpr hg.2.2⟩

end

def sampleMaintenance : List MaintenanceCommand :=
  [.command (.grade "attempt" "q2" 3 "" "grader" 80000), .recover "attempt" false]

theorem recovered_workset_grades_sample :
    ∃ r db₁, @recoverLegacyGradingWorkset sampleHost sampleLegacy "attempt" false = .ok (r, db₁) ∧
      ∃ a, (run (@MaintenanceCommand.step sampleHost) db₁ sampleMaintenance).findAttempt
        "attempt" = some a ∧ a.status = .graded ∧
        a.score = some (@earnedTotal sampleHost
            ((run (@MaintenanceCommand.step sampleHost) db₁ sampleMaintenance).entriesOf
              "attempt")) := by
  let _ : Host := sampleHost
  obtain ⟨⟨r, db₁⟩, h, hr⟩ : ∃ p, recoverLegacyGradingWorkset sampleLegacy "attempt" false = .ok p ∧
      (decide (p.1.action = .materialized) && decide
          (((run MaintenanceCommand.step p.2 sampleMaintenance).findAttempt "attempt").map
        (·.status) = some .graded)) = true :=
    succeeds_iff.mp (by decide +kernel)
  obtain ⟨haction, hstatus⟩ := Bool.and_eq_true_iff.mp hr
  obtain ⟨a, ha, -, hstage⟩ := recovered_workset_grades sampleLegacy "attempt" r db₁ h
    (of_decide_eq_true haction) sampleMaintenance
  have hgraded : a.status = .graded := by
    have hstatus' := of_decide_eq_true hstatus
    rw [ha] at hstatus'
    exact Option.some.inj hstatus'
  refine ⟨r, db₁, h, a, ha, hgraded, (hstage.resolve_left fun hs => ?_).2.1⟩
  rw [hgraded] at hs
  cases hs.1

section
variable [Host]

/-! ## Stores that lost nothing -/

/-- Only a graded attempt has terminal facts, and a submitted one has the label of its freeze. -/
def RowsLabeled (db : Db) : Prop :=
  ∀ attemptId a, db.findAttempt attemptId = some a → (a.status ≠ .graded → a.terminalFacts = []) ∧
    (a.status = .submitted → a.gradingStatus = some (freezeStatus a.questionSnapshot))

theorem rowsLabeled_change (now : Int) (db db' : Db) (h : RowsLabeled db) (hc : Change now db db') :
    RowsLabeled db' := by
  intro attemptId a' ha'
  rcases hc.row_cases ha' with ⟨input, hcr, -⟩ | ⟨a, ha, hstep⟩
  · obtain ⟨_, _, hnew⟩ := hcr.row
    rw [hnew]
    exact ⟨fun _ => rfl, fun hs => by cases hs⟩
  · obtain ⟨hfacts, hlabel⟩ := h attemptId a ha
    cases hstep with
    | same => exact ⟨hfacts, hlabel⟩
    | save answers checkedAt _ hg _ => exact ⟨fun _ => hfacts hg, hlabel⟩
    | touch hs => exact ⟨fun _ => hfacts (by simp [hs]), hlabel⟩
    | detect _ hs => exact ⟨fun _ => hfacts (by simp [hs]), fun hs' => by cases hs'⟩
    | restore hs => exact ⟨fun _ => hfacts (by simp [hs]), fun hs' => by cases hs'⟩
    | extend _ _ => exact ⟨hfacts, hlabel⟩
    | freeze _ _ hfr _ =>
      refine ⟨fun _ => hfacts fun hg => ?_, fun _ => rfl⟩
      rcases hfr.events.active with hs | hs <;> simp [hg] at hs
    | close _ _ => exact ⟨fun hg => absurd rfl hg, fun hs => by cases hs⟩

theorem Reachable.rowsLabeled {db : Db} (h : Reachable db) : RowsLabeled db :=
  h.invariant (fun db hi attemptId a ha => by rw [hi.findAttempt] at ha; cases ha) rowsLabeled_change

theorem Reachable.worksetsProgress {db : Db} (h : Reachable db) (attemptId : String) :
    WorksetsProgress attemptId db :=
  h.invariant (fun db hi a ha => by rw [hi.findAttempt] at ha; cases ha) fun _ _ _ =>
    worksetsProgress_change

theorem Reachable.regrades {db : Db} {a : ExamAttempt} (h : Reachable db)
    (ha : db.findAttempt a.id = some a) (hs : a.status = .submitted) (hq : a.questionSnapshot ≠ []) :
    Regrades a.id db a := by
  obtain ⟨hfacts, hlabel⟩ := h.rowsLabeled a.id a ha
  exact ⟨ha, hq, h.worksetsProgress a.id a ha (.inl hs), .inl ⟨hs, hfacts (by simp [hs]), hlabel hs⟩⟩

/-- In a reachable store no call writes, and every submitted attempt with questions passes. -/
theorem recovery_finds_nothing (db : Db) (hreach : Reachable db) (attemptId : String) (dryRun : Bool) :
    commit (recoverLegacyGradingWorkset db attemptId dryRun) db = db ∧
    ∀ a, db.findAttempt attemptId = some a → a.status = .submitted → a.questionSnapshot ≠ [] →
      recoverLegacyGradingWorkset db attemptId dryRun =
        .ok (⟨attemptId, if dryRun then .wouldValidate else .validatedNoOp,
            a.questionSnapshot.length, none⟩, db) := by
  constructor
  · rcases commit_cases (recoverLegacyGradingWorkset db attemptId dryRun) db with he | ⟨r, db', hx, he⟩
    · exact he
    · rw [he]
      obtain ⟨a, submitted, rfl, ha, hrec⟩ := recoverInTx_eq_ok.mp hx
      cases hrec with
      | previewed _ => rfl
      | validated _ _ _ => rfl
      | materialized hnone _ _ =>
        exact absurd hnone (hreach.regrades ha.found ha.status ha.questions).materialized
  · intro a ha hs hq
    obtain rfl := Db.findAttempt_id ha
    have hgrades := hreach.regrades ha hs hq
    obtain ⟨hfacts, hlabel⟩ := hreach.rowsLabeled a.id a ha
    obtain ⟨submitted, f, hp⟩ := hgrades.workset
    have hrec : Recoverable db a submitted := by
      refine ⟨ha, hs, hfacts (by simp [hs]), ?_, hp.frozen, hq⟩
      rw [hlabel hs]
      unfold freezeStatus
      by_cases hm : requiresManualGrading a.questionSnapshot = true <;> simp [hm]
    have hlen : (db.entriesOf a.id).length = a.questionSnapshot.length := by
      rw [hp.entries, List.length_map, ExamAttempt.frozenRows, List.length_map]
    have hvalidated : Recovers _ a submitted dryRun _ _ :=
      .validated hgrades.materialized (hp.consistent (.refl _)) (hlabel hs)
    rw [hlen] at hvalidated
    exact recoverInTx_eq_ok.mpr ⟨a, submitted, rfl, hrec, hvalidated⟩

/-! ## What was lost -/

section
omit [Host]
variable {db : Db} {attemptId : String} {label : Option GradingStatus}

theorem findAttempt_lose (k : String) : (db.loseWorkset attemptId label).findAttempt k =
    if k = attemptId then (db.findAttempt attemptId).map fun a => { a with gradingStatus := label }
      else db.findAttempt k :=
  Db.findAttempt_updateAttempt (f := fun a => { a with gradingStatus := label }) db attemptId
    (fun _ => rfl) k

theorem entriesOf_lose (k : String) : (db.loseWorkset attemptId label).entriesOf k =
    if k = attemptId then [] else db.entriesOf k := by
  simp only [Db.loseWorkset, Db.entriesOf, List.filter_filter]
  by_cases hk : k = attemptId
  · rw [if_pos hk]
    exact List.filter_eq_nil_iff.mpr fun e _ => by simp [hk]
  · rw [if_neg hk]
    refine List.filter_congr fun e _ => ?_
    by_cases he : e.attemptId = k
    · simp [he, hk]
    · simp [he]

end

/-- A submit whose workset and label were lost, before anything was scored by hand,
gets both back: after the call the store reads as before the loss. -/
theorem recovery_restores_workset (db : Db) (hreach : Reachable db) (a : ExamAttempt)
    (ha : db.findAttempt a.id = some a) (hs : a.status = .submitted) (hq : a.questionSnapshot ≠ [])
    (hscored : ∀ e ∈ db.entriesOf a.id, e.status ≠ .completedManual) (label : Option GradingStatus)
    (hl : label ≠ some .fullyGraded) :
    ∃ r db', recoverLegacyGradingWorkset (db.loseWorkset a.id label) a.id false = .ok (r, db') ∧
      r.action = .materialized ∧ r.entryCount = (db.entriesOf a.id).length ∧
      (∀ k, db'.findAttempt k = db.findAttempt k ∧ db'.entriesOf k = db.entriesOf k) ∧
      { db' with attempts := db.attempts, gradingEntries := db.gradingEntries } = db := by
  obtain ⟨hfacts, hlabel⟩ := hreach.rowsLabeled a.id a ha
  obtain ⟨submitted, f, hp⟩ := (hreach.regrades ha hs hq).workset
  -- no row was scored, so the entries are the rows of the submit
  have hrows : db.entriesOf a.id = a.frozenRows submitted := by
    have hid : ∀ row ∈ a.frozenRows submitted, f row = row := by
      intro row hrow
      have hmem : f row ∈ db.entriesOf a.id := hp.entries ▸ List.mem_map_of_mem hrow
      generalize hfr : f row = e at hmem
      have hprog := hp.rows row hrow
      rw [hfr] at hprog
      cases hprog with
      | fresh => rfl
      | scored _ _ => exact absurd rfl (hscored _ hmem)
    rw [hp.entries, List.map_congr_left hid, List.map_id']
  let lost : ExamAttempt := { a with gradingStatus := label }
  have hfound : (db.loseWorkset a.id label).findAttempt a.id = some lost := by
    rw [findAttempt_lose, if_pos rfl, ha, Option.map_some]
  have hrec : Recoverable (db.loseWorkset a.id label) lost submitted :=
    ⟨hfound, hs, hfacts (by simp [hs]), hl, hp.frozen, hq⟩
  have hnone : (db.loseWorkset a.id label).entriesOf a.id = [] := by
    rw [entriesOf_lose, if_pos rfl]
  refine ⟨_, _, recoverInTx_eq_ok.mpr ⟨lost, submitted, rfl, hrec,
      .materialized hnone hp.scores hp.distinct⟩, rfl, ?_,
    fun k => ⟨?_, ?_⟩, rfl⟩
  · rw [hrows, ExamAttempt.frozenRows, List.length_map]
  · by_cases hk : k = a.id
    · subst hk
      rw [ha]
      refine hrec.recovered_row.trans (congrArg some ?_)
      show { a with gradingStatus := some (freezeStatus a.questionSnapshot) } = a
      rw [← hlabel hs]
    · rw [findAttempt_recovered, if_neg hk, findAttempt_lose, if_neg hk]
  · rw [entriesOf_recovered, entriesOf_lose]
    by_cases hk : k = a.id
    · rw [if_pos hk, if_pos hk, List.nil_append, hk, hrows]
      rfl
    · rw [if_neg hk, if_neg hk, List.append_nil]

end

theorem sampleSubmitted_row :
    ∃ a, sampleSubmitted.findAttempt "attempt" = some a ∧ a.status = .submitted ∧
    a.questionSnapshot.length = 2 := by
  obtain ⟨a, ha⟩ : ∃ a, sampleSubmitted.findAttempt "attempt" = some a :=
    Option.isSome_iff_exists.mp (by decide +kernel)
  have hrow : (sampleSubmitted.findAttempt "attempt").map (fun a => (a.status,
      a.questionSnapshot.length)) = some (.submitted, 2) := by
    decide +kernel
  rw [ha] at hrow
  exact ⟨a, ha, Prod.mk.inj (Option.some.inj hrow)⟩

theorem recovery_finds_nothing_sample :
    @recoverLegacyGradingWorkset sampleHost sampleSubmitted "attempt" false =
      .ok (⟨"attempt", .validatedNoOp, 2, none⟩, sampleSubmitted) := by
  let _ : Host := sampleHost
  obtain ⟨a, ha, hs, hlen⟩ := sampleSubmitted_row
  have hq : a.questionSnapshot ≠ [] := fun hq => by simp [hq] at hlen
  rw [(recovery_finds_nothing sampleSubmitted (reachable_run sampleDb_reachable _) "attempt"
        false).2 a ha hs hq, hlen]
  rfl

theorem recovery_restores_workset_sample :
    ∃ r db', @recoverLegacyGradingWorkset sampleHost sampleLegacy "attempt" false = .ok (r, db') ∧
    ∀ k, db'.entriesOf k = sampleSubmitted.entriesOf k := by
  let _ : Host := sampleHost
  obtain ⟨a, ha, hs, hlen⟩ := sampleSubmitted_row
  have hq : a.questionSnapshot ≠ [] := fun hq => by simp [hq] at hlen
  have hid : a.id = "attempt" := Db.findAttempt_id ha
  obtain ⟨r, db', h, -, -, hsame, -⟩ :=
    recovery_restores_workset sampleSubmitted (reachable_run sampleDb_reachable _) a
    (by rw [hid]; exact ha) hs hq (by rw [hid]; decide +kernel) (some .autoGraded) (by simp)
  rw [hid] at h
  exact ⟨r, db', h, fun k => (hsame k).2⟩

end ExamSystem
