import ExamSystem.Deadline

/-!
# Restores and operator time grants

The two commands that append to the time-adjustment ledger and move the
deadline of an attempt: the composed restore of a disrupted attempt, and the
operator's grant. Database defaults (the ids of new rows) are inputs.
-/

namespace ExamSystem

open Tx

def ExamAttempt.extend (a : ExamAttempt) (afterDeadline : Int) : ExamAttempt :=
  { a with deadlineAt := some afterDeadline }

/-! ## Restore -/

structure RestoreCompensation where
  policy : InterruptionTimePolicy
  interruptionId : Option String
  eligibleSeconds : Int
  addedSeconds : Int
  adjustmentId : Option String
  deriving DecidableEq, Repr

structure RestoreInterruptionResult where
  attempt : ExamAttempt
  lifecycle : RestoreLifecycleOutcome
  compensation : RestoreCompensation
  deriving DecidableEq

def plainCompensation (attempt : ExamAttempt) : RestoreCompensation :=
  { policy := (attempt.interruptionTimingPolicySnapshot.map (·.policy)).getD .strict
    interruptionId := none
    eligibleSeconds := 0
    addedSeconds := 0
    adjustmentId := none }

/-- The compensation an outcome event recorded. A recorded adjustment must be
the bounded-grace row of the same episode. -/
def recordedCompensation (db : Db) (attempt : ExamAttempt) (outcome : AttemptInterruptionEvent)
    (failure : String) :
    Result RestoreCompensation :=
  match outcome.timeAdjustmentId with
  | none =>
    pure { policy := outcome.policy
           interruptionId := some outcome.interruptionId
           eligibleSeconds := outcome.eligibleSeconds.getD 0
           addedSeconds := 0
           adjustmentId := none }
  | some adjustmentId => do
    let adjustment ← orThrow (db.findAdjustment adjustmentId) (.validation failure)
    require (adjustment.attemptId = attempt.id ∧
      adjustment.interruptionId = some outcome.interruptionId ∧
        adjustment.source = .boundedGrace ∧ adjustment.policy = .boundedGrace)
      (.validation failure)
    pure { policy := outcome.policy
           interruptionId := some outcome.interruptionId
           eligibleSeconds := adjustment.eligibleSeconds.getD 0
           addedSeconds := adjustment.addedSeconds
           adjustmentId := some adjustmentId }

def reconstructInProgressOutcome (db : Db) (attempt : ExamAttempt) : Result RestoreInterruptionResult :=
  match db.findLatestOutcome attempt.id with
  | none =>
    pure { attempt := attempt, lifecycle := .alreadyInProgress,
            compensation := plainCompensation attempt }
  | some latestOutcome => do
    require (latestOutcome.eventType ≠ .terminalized)
      (.validation "Attempt is in_progress but latest outcome is terminalized (identity violation)")
    require (∀ latestEpisode ∈ db.findLatestInterruption attempt.id,
      latestOutcome.interruptionId = latestEpisode.id)
      (.validation "Latest outcome interruptionId does not match latest episode")
    require (latestOutcome.attemptId = attempt.id) (.validation "Latest outcome attemptId mismatch")
    let compensation ← recordedCompensation db attempt latestOutcome
      "Restored outcome adjustment failed identity validation"
    pure { attempt := attempt, lifecycle := .alreadyInProgress, compensation := compensation }

def reconstructTerminalOutcome (db : Db) (attempt : ExamAttempt) : Result RestoreInterruptionResult :=
  match (db.findLatestOutcome attempt.id).filter fun e => e.eventType = .terminalized with
  | some latestOutcome => do
    let compensation ← recordedCompensation db attempt latestOutcome
      "Terminalized outcome adjustment failed identity validation"
    pure { attempt := attempt, lifecycle := .terminal, compensation := compensation }
  | none =>
    pure { attempt := attempt, lifecycle := .terminal, compensation := plainCompensation attempt }

structure FreshAdjustment where
  id : String
  operationId : String
  deriving DecidableEq, Repr

/-- What a restore decides about time: the adjustment it relies on, if any. -/
structure RestoreDecision where
  eligibleSeconds : Int
  addedSeconds : Int
  adjustmentId : Option String
  reasonCode : String
  deriving DecidableEq, Repr

def boundedGraceRow (fresh : FreshAdjustment) (attempt : ExamAttempt) (interruptionId : String)
    (beforeDeadline afterDeadline : Int) (decision : InterruptionPolicyDecision) :
    AttemptTimeAdjustment :=
  { id := fresh.id
    operationId := fresh.operationId
    attemptId := attempt.id
    interruptionId := some interruptionId
    incidentId := none
    policy := .boundedGrace
    source := .boundedGrace
    beforeDeadline := beforeDeadline
    afterDeadline := afterDeadline
    addedSeconds := decision.addedSeconds
    eligibleSeconds := some decision.eligibleSeconds
    reasonCode := decision.reasonCode
    reasonText := none
    actorId := none }

/-- The policy step of a restore: reuse the episode's adjustment, or evaluate
the policy and append a row when it grants time. -/
def compensateInterruption (db : Db) (attempt : ExamAttempt) (exam : Exam)
    (snapshot : AttemptTimingPolicySnapshot) (interruptionId : String) (detectedAt now : Int)
    (fresh : FreshAdjustment) : Result (RestoreDecision × Db) :=
  let evaluate prior := evaluateInterruptionTimePolicy
    { snapshot := snapshot
      detectedAt := detectedAt
      decisionNow := now
      beforeDeadline := attempt.deadlineAt
      examCloseAt := exam.closeAt
      priorBoundedGraceAddedSeconds := prior }
  if snapshot.policy = .boundedGrace then
    match db.findBoundedByInterruption interruptionId with
    | some existing => do
      require (existing.attemptId = attempt.id ∧ existing.interruptionId = some interruptionId ∧
          existing.source = .boundedGrace ∧ existing.policy = .boundedGrace ∧ 0 < existing.addedSeconds)
        (.validation "Existing bounded_grace adjustment failed identity validation")
      pure ({ eligibleSeconds := existing.eligibleSeconds.getD 0
              addedSeconds := existing.addedSeconds
              adjustmentId := some existing.id
              reasonCode := existing.reasonCode }, db)
    | none => do
      let decision ← evaluate (db.sumBoundedGraceSeconds attempt.id)
      if 0 < decision.addedSeconds then
        let beforeDeadline ← orThrow attempt.deadlineAt
          (.validation "Cannot grant bounded_grace time without a deadline")
        let afterDeadline ← orThrow decision.afterDeadline
          (.checkViolation "attempt_time_adjustments_after_deadline_not_null")
        let db ← db.insertAdjustment
          (boundedGraceRow fresh attempt interruptionId beforeDeadline afterDeadline decision)
        pure ({ eligibleSeconds := decision.eligibleSeconds
                addedSeconds := decision.addedSeconds
                adjustmentId := some fresh.id
                reasonCode := decision.reasonCode },
              db.updateAttempt attempt.id (·.extend afterDeadline))
      else
        pure ({ eligibleSeconds := decision.eligibleSeconds
                addedSeconds := decision.addedSeconds
                adjustmentId := none
                reasonCode := decision.reasonCode }, db)
  else do
    let decision ← evaluate 0
    pure ({ eligibleSeconds := decision.eligibleSeconds
            addedSeconds := decision.addedSeconds
            adjustmentId := none
            reasonCode := decision.reasonCode }, db)

def restoredEvent (attemptId interruptionId : String) (now : Int) (policy : InterruptionTimePolicy)
    (decision : RestoreDecision) : AttemptInterruptionEvent :=
  { attemptId := attemptId
    interruptionId := interruptionId
    eventType := .restored
    occurredAt := now
    observedLastActivityAt := none
    detectionSource := none
    timeoutSeconds := none
    policy := policy
    eligibleSeconds := some decision.eligibleSeconds
    timeAdjustmentId := decision.adjustmentId
    actorId := none
    reasonCode := decision.reasonCode }

section
variable [Host]

def restoreInterruptedAttempt (db : Db) (capability : LockedEnrollmentAttemptIdentity) (now : Int)
    (fresh : FreshAdjustment) : Result (RestoreInterruptionResult × Db) := do
  let attempt ← orThrow (db.findAttempt capability.attemptId) (.notFound "Attempt not found")
  let exam ← orThrow (db.findExam attempt.examId) (.notFound "Exam not found")
  match attempt.status with
  | .inProgress => pure (← reconstructInProgressOutcome db attempt, db)
  | .submitted | .graded | .voided => pure (← reconstructTerminalOutcome db attempt, db)
  | .disrupted =>
    let interruptionId ← orThrow attempt.currentInterruptionId
      (.validation "Disrupted attempt has no active interruption pointer")
    let interruptedAt ← orThrow attempt.interruptedAt
      (.validation "Disrupted attempt has no interruptedAt timestamp")
    let snapshot ← orThrow attempt.interruptionTimingPolicySnapshot
      (.validation "Disrupted attempt has no interruption timing policy snapshot")
    let detectedEvent ← openInterruption db attempt interruptionId interruptedAt
    let (decision, db) ←
      compensateInterruption db attempt exam snapshot interruptionId detectedEvent.occurredAt now fresh
    let (reconciled, db) ← ensureAttemptDeadlineReconciled db capability now <| .activeInterruption
      { policy := snapshot.policy
        eligibleSeconds := some decision.eligibleSeconds
        adjustmentId := decision.adjustmentId
        reasonCode := decision.reasonCode }
    if reconciled.status = .submitted ∨ reconciled.status = .graded then
      pure (← reconstructTerminalOutcome db reconciled, db)
    else
      let (lifecycle, db) ← restoreAttemptState db attempt now
      let db ← db.insertInterruptionEvent
        (restoredEvent attempt.id interruptionId now snapshot.policy decision)
      let restoredAttempt ← orThrow (db.findAttempt attempt.id)
        (.notFound "Attempt not found after restore")
      pure ({ attempt := restoredAttempt
              lifecycle := lifecycle
              compensation :=
                { policy := snapshot.policy
                  interruptionId := some interruptionId
                  eligibleSeconds := decision.eligibleSeconds
                  addedSeconds := decision.addedSeconds
                  adjustmentId := decision.adjustmentId } }, db)
  | status => .error (.validation s!"Cannot restore attempt in {status.text} state")

end

/-! ## The operator's grant -/

def POSTGRES_INTEGER_MAX : Int := 2147483647

def OPERATOR_GRANT_DEADLINE_RECONCILIATION_REASON : String := "operator_grant_deadline_reconciliation"

def MAX_SAFE_INTEGER : Int := 9007199254740991

def MAX_DATE : Int := 8640000000000000

def isHexDigit (c : Char) : Bool :=
  ('0' ≤ c && c ≤ '9') || ('a' ≤ c && c ≤ 'f') || ('A' ≤ c && c ≤ 'F')

/-- Five groups of 8, 4, 4, 4 and 12 hexadecimal digits, joined by hyphens. -/
def isUuid (s : String) : Bool :=
  let groups := s.toList.splitOn '-'
  groups.map List.length == [8, 4, 4, 4, 12] && groups.all fun g => g.all isHexDigit

/-- The text a `uuid` column gives back: the digits in lower case. -/
def uuidText (s : String) : String := String.ofList (s.toList.map Char.toLower)

theorem toLower_of_not {c : Char} (h : ¬ (c.val ≥ 'A'.val ∧ c.val ≤ 'Z'.val)) :
    c.toLower = c := dif_neg h

theorem toLower_val {c : Char} (h : c.val ≥ 'A'.val ∧ c.val ≤ 'Z'.val) :
    c.toLower.val = c.val + 32 := by
  unfold Char.toLower
  rw [dif_pos h]
  rfl

theorem toLower_toLower (c : Char) : c.toLower.toLower = c.toLower := by
  by_cases h : c.val ≥ 'A'.val ∧ c.val ≤ 'Z'.val
  · apply toLower_of_not
    rw [toLower_val h]
    have hA : 'A'.val.toNat = 65 := rfl
    have hZ : 'Z'.val.toNat = 90 := rfl
    have h32 : (32 : UInt32).toNat = 32 := rfl
    obtain ⟨hlo, hhi⟩ := h
    intro ⟨_, hhi'⟩
    rw [ge_iff_le, UInt32.le_iff_toNat_le] at hlo
    rw [UInt32.le_iff_toNat_le] at hhi hhi'
    rw [UInt32.toNat_add] at hhi'
    omega
  · rw [toLower_of_not h, toLower_of_not h]

@[simp] theorem uuidText_uuidText (s : String) : uuidText (uuidText s) = uuidText s := by
  unfold uuidText
  rw [String.toList_ofList, List.map_map]
  exact congrArg String.ofList (List.map_congr_left fun c _ => toLower_toLower c)

theorem uuidText_ofList {cs : List Char} (h : ∀ c ∈ cs, c.toLower = c) :
    uuidText (String.ofList cs) = String.ofList cs := by
  have hmap : cs.map Char.toLower = cs := by
    rw [List.map_congr_left h, List.map_id']
  simp [uuidText, hmap]

/-- `text.trim()`. -/
def trimText (s : String) : String :=
  let blank (c : Char) : Bool := c.val < 0x10000 && isWhitespace c.val.toUInt16
  String.ofList ((s.toList.dropWhile blank).reverse.dropWhile blank).reverse

structure GrantAttemptTimeInput where
  attemptId : String
  operationId : String
  addedSeconds : Int
  reasonCode : String
  reasonText : String
  interruptionId : Option String
  incidentId : Option String
  actorId : String
  now : Int
  deriving DecidableEq, Repr

structure IncidentScope where
  examId : String
  attemptId : Option String
  candidateId : Option String
  deriving DecidableEq, Repr

abbrev IncidentGrantValidator := String → Option IncidentScope

inductive GrantOutcome
  | granted | terminal | idempotentReplay
  deriving DecidableEq, Repr

structure GrantAttemptTimeResult where
  attempt : ExamAttempt
  outcome : GrantOutcome
  adjustment : Option AttemptTimeAdjustment
  addedSeconds : Int
  deriving DecidableEq

def isSameOperatorGrantOperation (existing : AttemptTimeAdjustment) (input : GrantAttemptTimeInput)
    (reasonCode reasonText : String) : Bool :=
  existing.attemptId == input.attemptId && existing.addedSeconds == input.addedSeconds &&
    existing.reasonCode == reasonCode && existing.reasonText == some reasonText &&
    existing.actorId == some input.actorId && existing.interruptionId == input.interruptionId &&
    existing.incidentId == input.incidentId && existing.source == .operator &&
    existing.policy == .operatorIncident && existing.eligibleSeconds == none

def validateGrantInput (capability : LockedEnrollmentAttemptIdentity) (input : GrantAttemptTimeInput) :
    Result Unit := do
  let reasonCode := trimText input.reasonCode
  let reasonText := trimText input.reasonText
  require (input.attemptId = capability.attemptId)
    (.validation "Grant attemptId does not match the locked attempt")
  require (isUuid input.operationId) (.validation "operationId must be a valid UUID")
  require (∀ i ∈ input.incidentId, isUuid i) (.validation "incidentId must be a valid UUID")
  require ((trimText input.actorId).length ≠ 0) (.validation "actorId must not be empty")
  require (reasonCode.length ≠ 0) (.validation "reasonCode must not be empty")
  require ((js reasonCode).length ≤ 100) (.validation "reasonCode must be at most 100 chars")
  require (reasonText.length ≠ 0) (.validation "reasonText must not be empty")
  require ((js reasonText).length ≤ 1000) (.validation "reasonText must be at most 1000 chars")
  require (0 < input.addedSeconds ∧ input.addedSeconds ≤ POSTGRES_INTEGER_MAX)
    (.validation "addedSeconds must be a positive PostgreSQL integer")

def validateIncident (incidentGrantValidator : Option IncidentGrantValidator) (attempt : ExamAttempt)
    (incidentId : Option String) : Result Unit :=
  match incidentId with
  | none => pure ()
  | some incidentId => do
    let validator ← orThrow incidentGrantValidator
      (.validation "incidentId requires an incident grant validator")
    let incident ← orThrow (validator incidentId) (.notFound "Incident not found")
    require (incident.examId = attempt.examId)
      (.validation "Incident belongs to a different exam than the attempt")
    require (∀ i ∈ incident.attemptId, i = attempt.id)
      (.validation "Incident is anchored to a different attempt")
    require (∀ i ∈ incident.candidateId, i = attempt.candidateId)
      (.validation "Incident candidate does not match the attempt candidate")

/-- The row of an applied grant, as the insert returns it. The caller's
identifiers are stored in `uuid` columns; those the server draws are canonical. -/
def operatorRow (freshId : String) (input : GrantAttemptTimeInput) (policy : InterruptionTimePolicy)
    (beforeDeadline afterDeadline : Int) : AttemptTimeAdjustment :=
  { id := freshId
    operationId := uuidText input.operationId
    attemptId := input.attemptId
    interruptionId := input.interruptionId.map uuidText
    incidentId := input.incidentId.map uuidText
    policy := policy
    source := .operator
    beforeDeadline := beforeDeadline
    afterDeadline := afterDeadline
    addedSeconds := input.addedSeconds
    eligibleSeconds := none
    reasonCode := trimText input.reasonCode
    reasonText := some (trimText input.reasonText)
    actorId := some input.actorId }

/-- The tail of a grant on an attempt that is still active: the new deadline
within range and before the exam closes, the row, the attempt. -/
def applyGrant (db : Db) (attempt reconciled : ExamAttempt) (exam : Exam)
    (policy : InterruptionTimePolicy) (input : GrantAttemptTimeInput) (freshId : String) :
    Result (GrantAttemptTimeResult × Db) := do
  require (∀ i ∈ input.interruptionId, isUuid i) (.validation "interruptionId must be a valid UUID")
  require (∀ i ∈ input.interruptionId,
      ∃ episode ∈ db.findInterruption attempt.id (uuidText i), episode.attemptId = attempt.id)
    (.validation "Interruption episode does not belong to this attempt")
  require (reconciled.status = .inProgress ∨ reconciled.status = .disrupted)
    (.invalidStateTransition s!"Cannot grant time for attempt in {reconciled.status.text} state")
  let beforeDeadline ← orThrow reconciled.deadlineAt
    (.validation "Cannot grant operator time without an attempt deadline")
  let afterDeadline := beforeDeadline + input.addedSeconds * 1000
  require (-MAX_SAFE_INTEGER ≤ afterDeadline ∧ afterDeadline ≤ MAX_SAFE_INTEGER)
    (.validation "Calculated deadline is out of range")
  require (-MAX_DATE ≤ afterDeadline ∧ afterDeadline ≤ MAX_DATE)
    (.validation "Calculated deadline is invalid")
  let closeAt ← orThrow exam.closeAt
    (.validation "Cannot grant operator time on an exam without closeAt")
  require (afterDeadline ≤ closeAt) (.attemptDeadlineExceedsExamClose afterDeadline closeAt)
  let adjustment := operatorRow freshId input policy beforeDeadline afterDeadline
  let db ← db.insertAdjustment adjustment
  let db := db.updateAttempt input.attemptId (·.extend afterDeadline)
  let finalAttempt ← orThrow (db.findAttempt input.attemptId)
    (.notFound "Attempt not found after grant")
  pure ({ attempt := finalAttempt
          outcome := .granted
          adjustment := some adjustment
          addedSeconds := input.addedSeconds }, db)

section
variable [Host]

def grantAttemptTime (db : Db) (incidentGrantValidator : Option IncidentGrantValidator)
    (capability : LockedEnrollmentAttemptIdentity) (input : GrantAttemptTimeInput) (freshId : String) :
    Result (GrantAttemptTimeResult × Db) := do
  let attempt ← orThrow (db.findAttempt capability.attemptId) (.notFound "Attempt not found")
  let exam ← orThrow (db.findExam attempt.examId) (.notFound "Exam not found")
  validateGrantInput capability input
  match db.findByOperationId (uuidText input.operationId) with
  | some existing =>
    require (isSameOperatorGrantOperation existing input (trimText input.reasonCode)
        (trimText input.reasonText))
      (.idempotencyConflict "Operation id reused with a different payload")
    let replayedAttempt ← orThrow (db.findAttempt input.attemptId)
      (.notFound "Attempt not found during idempotent replay")
    pure ({ attempt := replayedAttempt
            outcome := .idempotentReplay
            adjustment := some existing
            addedSeconds := existing.addedSeconds }, db)
  | none =>
    let snapshot ← orThrow attempt.interruptionTimingPolicySnapshot
      (.validation "Attempt has no interruption timing policy snapshot")
    require (snapshot.policy = .operatorIncident)
      (.invalidStateTransition "Operator time grant requires operator_incident policy")
    validateIncident incidentGrantValidator attempt input.incidentId
    let resolution : SubmitInterruptionResolution :=
      if attempt.status = .disrupted then
        .activeInterruption
          { policy := snapshot.policy
            eligibleSeconds := none
            adjustmentId := none
            reasonCode := OPERATOR_GRANT_DEADLINE_RECONCILIATION_REASON }
      else .none
    let (reconciled, db) ← ensureAttemptDeadlineReconciled db capability input.now resolution
    if reconciled.status = .submitted ∨ reconciled.status = .graded ∨ reconciled.status = .voided then
      pure ({ attempt := reconciled, outcome := .terminal, adjustment := none, addedSeconds := 0 }, db)
    else applyGrant db attempt reconciled exam snapshot.policy input freshId

def runGrantTransaction (db : Db) (incidentGrantValidator : Option IncidentGrantValidator)
    (input : GrantAttemptTimeInput) (freshId : String) : Result (GrantAttemptTimeResult × Db) := do
  let cap ← lockEnrollmentAndAttempt db input.attemptId
  grantAttemptTime db incidentGrantValidator cap input freshId

end

end ExamSystem
