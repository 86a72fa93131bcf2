import ExamSystem.StoreLemmas

/-!
# Transition tables, deadlines and timing policies

The pure kernels that the attempt commands share: the tables of legal status
changes, the canonical effective deadline, and the interruption policy.
-/

namespace ExamSystem

open Tx

/-! ## Transition tables -/

inductive AttemptCommand
  | submit | disrupt | restore | grade
  deriving DecidableEq, Repr

def transition : AttemptStatus → AttemptCommand → Option AttemptStatus
  | .inProgress, .submit => some .submitted
  | .inProgress, .disrupt => some .disrupted
  | .disrupted, .submit => some .submitted
  | .disrupted, .restore => some .inProgress
  | .submitted, .grade => some .graded
  | _, _ => none

def enrollmentTransitions : EnrollmentStatus → List EnrollmentStatus
  | .assigned => [.started, .blocked]
  | .started => [.completed, .blocked]
  | .blocked => [.started]
  | .completed => []

def assertEnrollmentTransition (current target : EnrollmentStatus) : Result Unit :=
  require (target ∈ enrollmentTransitions current)
    (.invalidStateTransition s!"Cannot transition enrollment from {current.text} to {target.text}")

def examTransitions : ExamStatus → List ExamStatus
  | .draft => [.published]
  | .published => [.draft, .open, .canceled, .archived]
  | .open => [.closed, .canceled]
  | .closed => [.archived]
  | .canceled => [.archived]
  | .archived => []

def assertExamTransition (current target : ExamStatus) : Result Unit :=
  require (target ∈ examTransitions current)
    (.invalidStateTransition s!"Cannot transition exam from {current.text} to {target.text}")

theorem transition_submit {s : AttemptStatus} :
    (transition s .submit).isSome ↔ s = .inProgress ∨ s = .disrupted := by
  cases s <;> simp [transition]

theorem transition_grade {s : AttemptStatus} : (transition s .grade).isSome ↔ s = .submitted := by
  cases s <;> simp [transition]

/-! ## Deadlines -/

def calculateDeadlineAt (startedAt durationMinutes : Int) : Int :=
  startedAt + durationMinutes * 60 * 1000

def computeEffectiveDeadline (closeAt deadlineAt : Option Int) : Result (Option Int) :=
  match closeAt, deadlineAt with
  | none, some _ => .error (.validation "Exam closeAt is required when an attempt deadline exists")
  | none, none => .ok none
  | some close, none => .ok (some close)
  | some close, some deadline => .ok (some (if deadline < close then deadline else close))

def isAttemptDeadlineExpired (closeAt deadlineAt : Option Int) (now : Int) : Result Bool := do
  let effectiveDeadline ← computeEffectiveDeadline closeAt deadlineAt
  pure (effectiveDeadline.any fun d => d ≤ now)

def computeSyncDeadline (exam : Exam) : Result (Option Int) :=
  match exam.syncStartedAt, exam.durationMinutes with
  | none, _ => .ok none
  | some _, none => .error (.validation "timed_sync exams require a positive durationMinutes")
  | some t0, some duration =>
    let durationBound := calculateDeadlineAt t0 duration
    match exam.closeAt with
    | none => .ok (some durationBound)
    | some hardCap => .ok (some (if durationBound < hardCap then durationBound else hardCap))

/-! ## The timing policy snapshot of an attempt -/

def resolveAttemptTimingPolicySnapshot (exam : Exam) : Result AttemptTimingPolicySnapshot :=
  let policy := exam.interruptionTimePolicy.getD .strict
  let perIncident := exam.interruptionGracePerIncidentSeconds
  let perAttempt := exam.interruptionGracePerAttemptSeconds
  match policy with
  | .boundedGrace =>
    match perIncident, perAttempt with
    | some perIncident, some perAttempt => do
      require (0 < perIncident ∧ 0 < perAttempt)
        (.validation "bounded_grace interruption caps must be positive integers")
      require (perIncident ≤ perAttempt)
        (.validation "bounded_grace per-incident cap must not exceed per-attempt aggregate cap")
      pure { policy := .boundedGrace
             perIncidentCapSeconds := some perIncident
             perAttemptAggregateCapSeconds := some perAttempt }
    | _, _ => .error (.validation "bounded_grace interruption policy requires both caps")
  | policy => do
    require (perIncident = none ∧ perAttempt = none)
      (.validation s!"Interruption policy {policy.text} must have both caps null")
    pure { policy := policy, perIncidentCapSeconds := none, perAttemptAggregateCapSeconds := none }

/-! ## The policy decision at a restore -/

def STRICT_ZERO_GRANT_REASON : String := "strict_zero_grant"

def OPERATOR_INCIDENT_ZERO_GRANT_REASON : String := "operator_incident_candidate_restore_zero_grant"

def BOUNDED_GRACE_REASON : String := "bounded_grace_auto"

structure EvaluateInterruptionPolicyInput where
  snapshot : AttemptTimingPolicySnapshot
  detectedAt : Int
  decisionNow : Int
  beforeDeadline : Option Int
  examCloseAt : Option Int
  priorBoundedGraceAddedSeconds : Int

structure InterruptionPolicyDecision where
  policy : InterruptionTimePolicy
  eligibleSeconds : Int
  addedSeconds : Int
  beforeDeadline : Option Int
  afterDeadline : Option Int
  reasonCode : String
  deriving DecidableEq, Repr

def wholeSeconds (ms : Int) : Int := max 0 ms / 1000

/-- A policy that never grants time: the deadline stays. -/
def zeroGrant (input : EvaluateInterruptionPolicyInput) (reasonCode : String) :
    Result InterruptionPolicyDecision := do
  require (input.snapshot.perIncidentCapSeconds = none ∧
    input.snapshot.perAttemptAggregateCapSeconds = none)
    (.validation s!"Invalid {input.snapshot.policy.text} snapshot: caps must be null")
  pure { policy := input.snapshot.policy
         eligibleSeconds := 0
         addedSeconds := 0
         beforeDeadline := input.beforeDeadline
         afterDeadline := input.beforeDeadline
         reasonCode := reasonCode }

def evaluateInterruptionTimePolicy (input : EvaluateInterruptionPolicyInput) :
    Result InterruptionPolicyDecision :=
  match input.snapshot.policy with
  | .strict => zeroGrant input STRICT_ZERO_GRANT_REASON
  | .operatorIncident => zeroGrant input OPERATOR_INCIDENT_ZERO_GRANT_REASON
  | .boundedGrace =>
    match input.snapshot.perIncidentCapSeconds, input.snapshot.perAttemptAggregateCapSeconds with
    | some perIncident, some perAttempt => do
      require (0 < perIncident ∧ 0 < perAttempt ∧ perIncident ≤ perAttempt)
        (.validation "Invalid bounded_grace snapshot: caps missing, non-positive, or out of order")
      let beforeDeadline ← orThrow input.beforeDeadline
        (.validation "bounded_grace restore requires a non-null attempt deadline")
      let examCloseAt ← orThrow input.examCloseAt
        (.validation "bounded_grace restore requires a non-null exam closeAt")
      let eligibleSeconds := wholeSeconds (input.decisionNow - input.detectedAt)
      let prior := max 0 input.priorBoundedGraceAddedSeconds
      let remainingAggregateSeconds := max 0 (perAttempt - prior)
      let closeRoomSeconds := wholeSeconds (examCloseAt - beforeDeadline)
      let addedSeconds :=
        min (min (min eligibleSeconds perIncident) remainingAggregateSeconds) closeRoomSeconds
      pure { policy := .boundedGrace
             eligibleSeconds := eligibleSeconds
             addedSeconds := addedSeconds
             beforeDeadline := some beforeDeadline
             afterDeadline := some (beforeDeadline + addedSeconds * 1000)
             reasonCode := BOUNDED_GRACE_REASON }
    | _, _ => .error
        (.validation "Invalid bounded_grace snapshot: caps missing, non-positive, or out of order")

theorem wholeSeconds_nonneg (ms : Int) : 0 ≤ wholeSeconds ms := by
  unfold wholeSeconds; omega

theorem wholeSeconds_le {ms : Int} (h : 0 ≤ ms) : wholeSeconds ms * 1000 ≤ ms := by
  unfold wholeSeconds; omega

/-- A bounded decision stays under every cap: the elapsed time, the incident
cap, what is left of the attempt cap, and the room before the exam closes. -/
theorem evaluate_bounded {input : EvaluateInterruptionPolicyInput} {d : InterruptionPolicyDecision}
    (hp : input.snapshot.policy = .boundedGrace) (h : evaluateInterruptionTimePolicy input = .ok d) :
    ∃ perIncident perAttempt before close,
      input.snapshot.perIncidentCapSeconds = some perIncident ∧
      input.snapshot.perAttemptAggregateCapSeconds = some perAttempt ∧
      input.beforeDeadline = some before ∧ input.examCloseAt = some close ∧
      d.eligibleSeconds = wholeSeconds (input.decisionNow - input.detectedAt) ∧
      d.afterDeadline = some (before + d.addedSeconds * 1000) ∧
      0 ≤ d.addedSeconds ∧ d.addedSeconds ≤ d.eligibleSeconds ∧ d.addedSeconds ≤ perIncident ∧
      (0 < d.addedSeconds → max 0 input.priorBoundedGraceAddedSeconds + d.addedSeconds ≤ perAttempt) ∧
      (0 < d.addedSeconds → before + d.addedSeconds * 1000 ≤ close) := by
  unfold evaluateInterruptionTimePolicy at h
  rw [hp] at h
  dsimp only at h
  split at h
  · rename_i perIncident perAttempt hi ha
    simp only [bind_eq_ok, require_eq_ok, orThrow_eq_ok, pure_eq_ok, exists_const] at h
    obtain ⟨⟨hi0, ha0, -⟩, before, hb, close, hc, rfl⟩ := h
    refine ⟨perIncident, perAttempt, before, close, hi, ha, hb, hc, rfl, rfl, ?_⟩
    dsimp only
    have he := wholeSeconds_nonneg (input.decisionNow - input.detectedAt)
    have hr := wholeSeconds_nonneg (close - before)
    generalize wholeSeconds (input.decisionNow - input.detectedAt) = e at *
    refine ⟨by omega, by omega, by omega, by omega, fun hpos => ?_⟩
    have hroom : 0 ≤ close - before := by
      by_contra hneg
      have : wholeSeconds (close - before) = 0 := by unfold wholeSeconds; omega
      omega
    have := wholeSeconds_le hroom
    omega
  · cases h

theorem evaluate_unbounded {input : EvaluateInterruptionPolicyInput} {d : InterruptionPolicyDecision}
    (hp : input.snapshot.policy ≠ .boundedGrace) (h : evaluateInterruptionTimePolicy input = .ok d) :
    d.eligibleSeconds = 0 ∧ d.addedSeconds = 0 := by
  unfold evaluateInterruptionTimePolicy at h
  cases hpol : input.snapshot.policy with
  | boundedGrace => exact absurd hpol hp
  | strict | operatorIncident =>
    rw [hpol] at h
    simp only [zeroGrant, bind_eq_ok, require_eq_ok, pure_eq_ok, exists_const] at h
    obtain ⟨-, rfl⟩ := h
    exact ⟨rfl, rfl⟩

end ExamSystem
