import ExamSystem.Identity

/-!
# Operator grants under their operation ids

An operation id stands for one payload. The ledger row of an applied grant is
compared with a later request after the database has put its identifiers in
lower case, so the replay of a grant holds exactly for identifiers that are in
lower case from the start.
-/

namespace ExamSystem

open Tx

/-! ## Payloads -/

/-- Two requests are the same command, their reasons taken as they are stored. -/
structure SamePayload (x y : GrantAttemptTimeInput) : Prop where
  attempt : x.attemptId = y.attemptId
  addedSeconds : x.addedSeconds = y.addedSeconds
  reasonCode : trimText x.reasonCode = trimText y.reasonCode
  reasonText : trimText x.reasonText = trimText y.reasonText
  actor : x.actorId = y.actorId
  interruption : x.interruptionId = y.interruptionId
  incident : x.incidentId = y.incidentId

def GrantAttemptTimeInput.Canonical (input : GrantAttemptTimeInput) : Prop :=
  input.interruptionId.map uuidText = input.interruptionId ∧
    input.incidentId.map uuidText = input.incidentId

instance (input : GrantAttemptTimeInput) : Decidable input.Canonical :=
  inferInstanceAs (Decidable (_ ∧ _))

/-- The stored row of `input` matches a request of the same payload, its
identifiers in the form of the database. -/
theorem isSame_operatorRow (freshId : String) (input other : GrantAttemptTimeInput)
    (before after : Int) :
    isSameOperatorGrantOperation (operatorRow freshId input .operatorIncident before after) other
        (trimText other.reasonCode) (trimText other.reasonText) = true ↔
      SamePayload other
        { input with
          interruptionId := input.interruptionId.map uuidText
          incidentId := input.incidentId.map uuidText } := by
  simp only [isSameOperatorGrantOperation, operatorRow, Bool.and_eq_true, beq_iff_eq,
    Option.some.injEq, and_true]
  constructor
  · rintro ⟨⟨⟨⟨⟨⟨hatt, hadd⟩, hcode⟩, htext⟩, hactor⟩, hint⟩, hinc⟩
    exact ⟨hatt.symm, hadd.symm, hcode.symm, htext.symm, hactor.symm, hint.symm, hinc.symm⟩
  · intro h
    exact ⟨⟨⟨⟨⟨⟨h.attempt.symm, h.addedSeconds.symm⟩, h.reasonCode.symm⟩, h.reasonText.symm⟩,
          h.actor.symm⟩,
      h.interruption.symm⟩, h.incident.symm⟩

theorem GrantAttemptTimeInput.Canonical.stored {input : GrantAttemptTimeInput} (h : input.Canonical) :
    { input with
      interruptionId := input.interruptionId.map uuidText
      incidentId := input.incidentId.map uuidText } = input := by
  cases input
  simp only [GrantAttemptTimeInput.Canonical] at h
  simp only [h.1, h.2]

/-! ## An applied grant -/

/-- The store after a grant was applied: the request is valid, and its operation
id names the row. -/
structure Granted (db : Db) (input : GrantAttemptTimeInput) (row : AttemptTimeAdjustment) : Prop where
  valid : ∃ cap, lockEnrollmentAndAttempt db input.attemptId = .ok cap ∧
    validateGrantInput cap input = .ok ()
  exam : db.exam.id = db.enrollment.examId
  row : db.findByOperationId (uuidText input.operationId) = some row

theorem Granted.remains {db db' : Db} {input : GrantAttemptTimeInput} {row : AttemptTimeAdjustment}
    (h : Granted db input row) (hr : Remains db db') : Granted db' input row := by
  obtain ⟨cap, hlock, hvalid⟩ := h.valid
  exact ⟨⟨cap, hr.locks hlock, hvalid⟩, hr.exam.trans (h.exam.trans hr.enrollmentExam.symm),
    hr.findByOperationId h.row⟩

theorem findByOperationId_adjust {db : Db} {a : ExamAttempt} {row : AttemptTimeAdjustment}
    (h : db.findByOperationId row.operationId = none) :
    (db.adjust a row).findByOperationId row.operationId = some row := by
  rw [Db.findByOperationId, Db.adjust, List.find?_append,
    show List.find? _ db.timeAdjustments = none from h]
  simp

theorem applyGrant_row {db db' : Db} {a b : ExamAttempt} {exam : Exam} {policy : InterruptionTimePolicy}
    {input : GrantAttemptTimeInput} {freshId : String} {r : GrantAttemptTimeResult}
    (h : applyGrant db a b exam policy input freshId = .ok (r, db')) :
    ∃ before after, r.adjustment = some (operatorRow freshId input policy before after) ∧
      db'.timeAdjustments = db.timeAdjustments ++ [operatorRow freshId input policy before after] := by
  simp only [applyGrant, bind_eq_ok, require_eq_ok, orThrow_eq_ok, exists_const, pure_eq_ok,
    Prod.mk.injEq] at h
  obtain ⟨-, -, -, before, -, -, -, close, -, -, db₁, hins, final, -, rfl, rfl⟩ := h
  obtain ⟨-, -, -, -, -, -, rfl⟩ := Db.insertAdjustment_eq_ok.mp hins
  exact ⟨before, _, rfl, rfl⟩

section
variable [Host]

/-- The replay branch: with a row under the operation id, the request is
compared with it and nothing is written. -/
theorem runGrantTransaction_known {db : Db} (input : GrantAttemptTimeInput)
    {row : AttemptTimeAdjustment} {cap : LockedEnrollmentAttemptIdentity}
    (hlock : lockEnrollmentAndAttempt db input.attemptId = .ok cap)
    (hvalid : validateGrantInput cap input = .ok ()) (hexam : db.exam.id = db.enrollment.examId)
    (hrow : db.findByOperationId (uuidText input.operationId) = some row)
    (validator : Option IncidentGrantValidator) (freshId : String) :
    ∃ a, db.findAttempt input.attemptId = some a ∧
      runGrantTransaction db validator input freshId =
        if isSameOperatorGrantOperation row input (trimText input.reasonCode)
          (trimText input.reasonText) then
          .ok ({ attempt := a, outcome := .idempotentReplay, adjustment := some row
                 addedSeconds := row.addedSeconds }, db)
        else .error (.idempotencyConflict "Operation id reused with a different payload") := by
  obtain ⟨a, hid, hlocks, -⟩ := lock_eq_ok.mp hlock
  have ha : db.findAttempt input.attemptId = some a := hid ▸ hlocks.found
  have hcap : db.findAttempt cap.attemptId = some a := hlocks.attempt ▸ hlocks.found
  have hfind : db.findExam a.examId = some db.exam :=
    Db.findExam_eq_some.mpr ⟨hexam.trans hlocks.belongs.1, rfl⟩
  refine ⟨a, ha, ?_⟩
  simp only [runGrantTransaction, hlock, ok_bind, grantAttemptTime, hcap, orThrow_some, hfind,
    hvalid, hrow, ha]
  split
  · rename_i hsame
    rw [require_true hsame]
    rfl
  · rename_i hsame
    rw [require_false hsame]
    rfl

theorem runGrantTransaction_granted {db db' : Db} {validator : Option IncidentGrantValidator}
    {input : GrantAttemptTimeInput} {freshId : String} {r : GrantAttemptTimeResult}
    (h : runGrantTransaction db validator input freshId = .ok (r, db')) (hr : r.outcome = .granted) :
    ∃ before after, r.adjustment = some (operatorRow freshId input .operatorIncident before after) ∧
      Granted db' input (operatorRow freshId input .operatorIncident before after) := by
  simp only [runGrantTransaction, bind_eq_ok] at h
  obtain ⟨cap, hlock, hgrant⟩ := h
  obtain ⟨hne, -⟩ | ⟨-, a, row, happ, hdb⟩ := grant_ok hgrant
  · exact absurd hr hne
  have hremains : Remains db db' := hdb ▸ (Change.adjust happ.adjusts).remains
  simp only [grantAttemptTime, bind_eq_ok, orThrow_eq_ok] at hgrant
  obtain ⟨b, hb, exam, hexam, _, hvalid, hgrant⟩ := hgrant
  obtain ⟨c, -, hlocks, -⟩ := lock_eq_ok.mp hlock
  obtain rfl : c = b := Option.some.inj (hlocks.found.symm.trans (hlocks.attempt ▸ hb))
  obtain ⟨hid, -⟩ := Db.findExam_eq_some.mp hexam
  split at hgrant
  · simp only [bind_eq_ok, require_eq_ok, orThrow_eq_ok, exists_const, pure_eq_ok,
      Prod.mk.injEq] at hgrant
    obtain ⟨-, _, -, rfl, -⟩ := hgrant
    cases hr
  · rename_i hnone
    simp only [bind_eq_ok, require_eq_ok, orThrow_eq_ok, exists_const] at hgrant
    obtain ⟨snapshot, -, hpolicy, _, -, ⟨reconciled, db₁⟩, -, hgrant⟩ := hgrant
    split at hgrant
    · rw [pure_eq_ok, Prod.mk.injEq] at hgrant
      obtain ⟨rfl, -⟩ := hgrant
      cases hr
    · rw [hpolicy] at hgrant
      obtain ⟨before, after, hadj, hrows⟩ := applyGrant_row hgrant
      refine ⟨before, after, hadj, ⟨cap, hremains.locks hlock, hvalid⟩, ?_, ?_⟩
      · exact hremains.exam.trans ((hid.trans hlocks.belongs.1.symm).trans hremains.enrollmentExam.symm)
      · have hlast : row = operatorRow freshId input .operatorIncident before after := by
          rw [hdb] at hrows
          exact (List.cons.inj (List.append_inj_right' hrows rfl)).1
        rw [hdb, ← hlast]
        have hop : row.operationId = uuidText input.operationId := congrArg (·.operationId) hlast
        rw [← hop]
        exact findByOperationId_adjust happ.freshOperation

/-- A grant leaves a terminal attempt's store as it is. -/
theorem grant_terminal {db db' : Db} {validator : Option IncidentGrantValidator}
    {input : GrantAttemptTimeInput} {freshId : String} {r : GrantAttemptTimeResult}
    {a : ExamAttempt} (ha : db.findAttempt input.attemptId = some a)
    (hs : a.status = .submitted ∨ a.status = .graded ∨ a.status = .voided)
    (h : runGrantTransaction db validator input freshId = .ok (r, db')) : db' = db := by
  have hinactive : ¬ (a.status = .inProgress ∨ a.status = .disrupted) := by
    rcases hs with hs | hs | hs <;> simp [hs]
  simp only [runGrantTransaction, bind_eq_ok] at h
  obtain ⟨cap, hlock, h⟩ := h
  obtain ⟨b, hid, hlocks, -⟩ := lock_eq_ok.mp hlock
  have hcap : cap.attemptId = input.attemptId := hlocks.attempt.trans hid
  simp only [grantAttemptTime, hcap, ha, orThrow_some, ok_bind, bind_eq_ok, orThrow_eq_ok] at h
  obtain ⟨exam, -, _, -, h⟩ := h
  split at h
  · simp only [bind_eq_ok, require_eq_ok, exists_const, pure_eq_ok, Prod.mk.injEq] at h
    obtain ⟨-, -, rfl⟩ := h
    rfl
  · simp only [bind_eq_ok, require_eq_ok, orThrow_eq_ok, exists_const] at h
    obtain ⟨snapshot, -, -, _, -, ⟨reconciled, db₁⟩, hrec, h⟩ := h
    obtain ⟨c, hc, hcase⟩ := reconcile_ok hrec
    obtain rfl : a = c := Option.some.inj (ha.symm.trans (hcap ▸ hc))
    rcases hcase with ⟨rfl, rfl⟩ | ⟨d, events, hexp, -⟩
    · split at h
      · rw [pure_eq_ok, Prod.mk.injEq] at h
        exact h.2.symm
      · rename_i hlive
        exact absurd hs hlive
    · exact absurd hexp.active hinactive

/-! ## Idempotency -/

/-- What an operation id is for, once a grant left `row` in the store `db₁`:
whatever ran since, the same request is answered from the row, another payload
under the id is refused, and in any store a terminal attempt stays as it is. -/
structure GrantIdempotent (db₁ : Db) (input : GrantAttemptTimeInput)
    (row : AttemptTimeAdjustment) : Prop where
  replayed : ∀ (cs : List Command) validator freshId now, ∃ a,
    (run Command.step db₁ cs).findAttempt input.attemptId = some a ∧
    runGrantTransaction (run Command.step db₁ cs) validator { input with now := now } freshId =
      .ok ({ attempt := a, outcome := .idempotentReplay, adjustment := some row,
              addedSeconds := input.addedSeconds },
        run Command.step db₁ cs)
  refused : ∀ (cs : List Command) validator freshId other cap,
    uuidText other.operationId = uuidText input.operationId → ¬ SamePayload other input →
    lockEnrollmentAndAttempt (run Command.step db₁ cs) other.attemptId = .ok cap →
    validateGrantInput cap other = .ok () →
    runGrantTransaction (run Command.step db₁ cs) validator other freshId =
      .error (.idempotencyConflict "Operation id reused with a different payload")
  terminal : ∀ db db' validator freshId other r a, db.findAttempt other.attemptId = some a →
    (a.status = .submitted ∨ a.status = .graded ∨ a.status = .voided) →
    runGrantTransaction db validator other freshId = .ok (r, db') → db' = db

/-- The operation id of an applied grant is idempotent exactly when the caller
wrote the interruption and the incident in lower case. -/
theorem grant_idempotent_iff (db db₁ : Db) (validator : Option IncidentGrantValidator)
    (input : GrantAttemptTimeInput) (freshId : String) (r : GrantAttemptTimeResult)
    (row : AttemptTimeAdjustment)
    (h : runGrantTransaction db validator input freshId = .ok (r, db₁)) (hr : r.outcome = .granted)
    (hrow : r.adjustment = some row) : GrantIdempotent db₁ input row ↔ input.Canonical := by
  obtain ⟨before, after, hadj, hgranted⟩ := runGrantTransaction_granted h hr
  obtain rfl := Option.some.inj (hrow.symm.trans hadj)
  constructor
  · intro hidem
    obtain ⟨a, -, hreplay⟩ := hidem.replayed [] none "" input.now
    obtain ⟨cap, hlock, hvalid⟩ := hgranted.valid
    obtain ⟨b, -, hknown⟩ :=
      runGrantTransaction_known input hlock hvalid hgranted.exam hgranted.row none ""
    have heq := hreplay.symm.trans hknown
    split at heq
    · rename_i hsame
      have hpayload := (isSame_operatorRow freshId input input before after).mp hsame
      exact ⟨hpayload.interruption.symm, hpayload.incident.symm⟩
    · cases heq
  · intro hcanonical
    have hstored := hcanonical.stored
    refine ⟨?_, ?_, fun db db' validator freshId other r a ha hs h => grant_terminal ha hs h⟩
    · intro cs validator freshId' now
      have hlater := hgranted.remains (run_remains cs db₁)
      obtain ⟨cap, hlock, hvalid⟩ := hlater.valid
      obtain ⟨a, ha, hknown⟩ :=
        runGrantTransaction_known { input with now := now } hlock hvalid hlater.exam
        hlater.row validator freshId'
      refine ⟨a, ha, hknown.trans ?_⟩
      rw [if_pos]
      · rfl
      · rw [isSame_operatorRow, hstored]
        exact ⟨rfl, rfl, rfl, rfl, rfl, rfl, rfl⟩
    · intro cs validator freshId' other cap hop hne hlock hvalid
      have hlater := hgranted.remains (run_remains cs db₁)
      obtain ⟨a, -, hknown⟩ := runGrantTransaction_known other hlock hvalid hlater.exam
        (hop ▸ hlater.row) validator
        freshId'
      refine hknown.trans (if_neg ?_)
      rw [isSame_operatorRow, hstored]
      exact hne

end

def sampleEpisode : String := "a0000000-0000-4000-8000-000000000001"

/-- An attempt under `operator_incident` that was interrupted and restored. -/
def sampleIncidentDb : Db :=
  let _ : Host := sampleHost
  run Command.step
    { sampleInitial with
      exam := { sampleExam with interruptionTimePolicy := some .operatorIncident } }
    [sampleStart, .heartbeatScan "attempt" 20000 10 sampleEpisode,
      .restore "attempt" 25000 { id := "", operationId := "" }]

def sampleGrant (interruptionId : String) : GrantAttemptTimeInput :=
  { attemptId := "attempt", operationId := "B0000000-0000-4000-8000-000000000002", addedSeconds := 60
    reasonCode := "network", reasonText := " Router restart ", interruptionId := some interruptionId
    incidentId := none, actorId := "operator", now := 30000 }

def sampleUpperCase : String := "A0000000-0000-4000-8000-000000000001"

theorem grant_idempotent_sample :
    ∃ r row db₁,
      @runGrantTransaction sampleHost sampleIncidentDb none
        (sampleGrant sampleEpisode) "adjustment" = .ok (r, db₁) ∧
      @GrantIdempotent sampleHost db₁ (sampleGrant sampleEpisode) row := by
  let _ : Host := sampleHost
  have hrun : succeeds (@runGrantTransaction sampleHost sampleIncidentDb none
      (sampleGrant sampleEpisode) "adjustment")
      (fun p => p.1.outcome == .granted && p.1.adjustment.isSome) = true := by decide +kernel
  obtain ⟨⟨r, db₁⟩, h, hp⟩ := succeeds_iff.mp hrun
  simp only [Bool.and_eq_true, beq_iff_eq, Option.isSome_iff_exists] at hp
  obtain ⟨hr, row, hrow⟩ := hp
  exact ⟨r, row, db₁, h, (grant_idempotent_iff _ db₁ none _ _ r row h hr hrow).mpr (by decide +kernel)⟩

/-- With the interruption in upper case the retry of an applied grant conflicts. -/
theorem grant_retry_conflicts :
    ∃ r row db₁, @runGrantTransaction sampleHost sampleIncidentDb none
        (sampleGrant sampleUpperCase) "adjustment" = .ok (r, db₁) ∧
      r.outcome = .granted ∧ r.adjustment = some row ∧
      @runGrantTransaction sampleHost db₁ none (sampleGrant sampleUpperCase) "retry" =
        .error (.idempotencyConflict "Operation id reused with a different payload") ∧
      ¬ @GrantIdempotent sampleHost db₁ (sampleGrant sampleUpperCase) row := by
  have hrun : succeeds (@runGrantTransaction sampleHost sampleIncidentDb none
      (sampleGrant sampleUpperCase) "adjustment")
      (fun p => p.1.outcome == .granted && p.1.adjustment.isSome &&
        match @runGrantTransaction sampleHost p.2 none (sampleGrant sampleUpperCase) "retry" with
        | .ok _ => false
        | .error e => e == .idempotencyConflict
            "Operation id reused with a different payload") = true := by
    decide +kernel
  obtain ⟨⟨r, db₁⟩, h, hp⟩ := succeeds_iff.mp hrun
  simp only [Bool.and_eq_true, beq_iff_eq, Option.isSome_iff_exists] at hp
  obtain ⟨⟨hr, row, hrow⟩, hretry⟩ := hp
  have hconflict : @runGrantTransaction sampleHost db₁ none (sampleGrant sampleUpperCase) "retry" =
      .error (.idempotencyConflict "Operation id reused with a different payload") := by
    cases hrun : @runGrantTransaction sampleHost db₁ none (sampleGrant sampleUpperCase) "retry" with
    | ok p =>
      rw [hrun] at hretry
      cases hretry
    | error e =>
      rw [hrun] at hretry
      rw [beq_iff_eq.mp hretry]
  refine ⟨r, row, db₁, h, hr, hrow, hconflict, fun hidem => ?_⟩
  obtain ⟨a, -, hreplay⟩ := @GrantIdempotent.replayed sampleHost _ _ _ hidem [] none "retry" 30000
  cases hreplay.symm.trans hconflict

end ExamSystem
