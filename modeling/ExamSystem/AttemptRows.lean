import ExamSystem.CommandsSound

/-!
# The row of one attempt

What a change does to the row of an attempt, and what it needs of the row.
-/

namespace ExamSystem

open Tx

theorem FreezeEvents.active {db : Db} {a : ExamAttempt} {events : List AttemptInterruptionEvent}
    (h : FreezeEvents db a events) : a.status = .inProgress ∨ a.status = .disrupted := by
  cases h with
  | inProgress hs => exact .inl hs
  | disrupted hs _ _ => exact .inr hs

theorem Creates.status {db : Db} {a : ExamAttempt} {input : StartAttemptInput}
    (h : Creates db a input) :
    a.status = .inProgress := by
  obtain ⟨_, _, rfl⟩ := h.row
  rfl

theorem findAttempt_updateAttempt_none {db : Db} {attemptId k : String} {f : ExamAttempt → ExamAttempt}
    (hf : ∀ a, (f a).id = a.id) (h : db.findAttempt attemptId = none) :
    (db.updateAttempt k f).findAttempt attemptId = none := by
  rw [Db.findAttempt_updateAttempt db k hf]
  by_cases hid : attemptId = k
  · subst hid; simp [h]
  · simp [hid, h]

structure Initial (db : Db) : Prop where
  attempts : db.attempts = []
  answerReceipts : db.answerReceipts = []
  gradingEntries : db.gradingEntries = []
  interruptions : db.interruptions = []
  interruptionEvents : db.interruptionEvents = []
  timeAdjustments : db.timeAdjustments = []
  assigned : db.enrollment.status = .assigned
  attemptCount : db.enrollment.attemptCount = 0
  unresolved : db.enrollment.finalAttemptId = none ∧ db.enrollment.finalScore = none ∧
    db.enrollment.finalPassed = none

theorem Initial.findAttempt {db : Db} (h : Initial db) (attemptId : String) :
    db.findAttempt attemptId = none := by
  simp [Db.findAttempt, Rows.row, h.attempts]

/-! ## Rows -/

section
variable [Host]

/-- The fate of one row under one change of the store from `db` to `db'`. -/
inductive RowStep (now : Int) (db db' : Db) : ExamAttempt → ExamAttempt → Prop
  | same (a : ExamAttempt) : RowStep now db db' a a
  | save {a : ExamAttempt} (answers : List AnswerRecord) (checkedAt : Int) (hs : a.status ≠ .submitted)
      (hg : a.status ≠ .graded) (hv : a.status ≠ .voided) : RowStep now db db' a
        (a.recordSave answers checkedAt)
  | touch {a : ExamAttempt} (hs : a.status = .inProgress) : RowStep now db db' a (a.touch now)
  | detect {a : ExamAttempt} (freshId : String) (hs : a.status = .inProgress) :
      RowStep now db db' a (a.markDisrupted freshId now)
  | restore {a : ExamAttempt} (hs : a.status = .disrupted) : RowStep now db db' a (a.restore now)
  | extend {a : ExamAttempt} {row : AttemptTimeAdjustment} (h : Adjusts db a row now)
      (hdb : db' = db.adjust a row) : RowStep now db db' a (a.extend row.afterDeadline)
  | freeze {a : ExamAttempt} {events : List AttemptInterruptionEvent} (submittedAt : Int)
      (reason : Option SubmissionReason) (h : Freezes db a events)
        (hdb : db' = db.freeze a submittedAt reason events) :
      RowStep now db db' a (a.submittedRow submittedAt reason)
  | close {a : ExamAttempt} {aggregated : GradingEntryAggregate} (h : Closes db a aggregated now)
      (hdb : db' = db.close a aggregated now) : RowStep now db db' a (a.gradedRow aggregated now)

/-- An update of the row `a` steps the row `x` when it steps `a`. -/
theorem findAttempt_step {db db' : Db} {a x : ExamAttempt} {f : ExamAttempt → ExamAttempt} {now : Int}
    {attemptId : String} (hf : ∀ a, (f a).id = a.id) (ha : db.findAttempt a.id = some a)
    (hstep : RowStep now db db' a (f a)) (hx : db.findAttempt attemptId = some x) :
    ∃ x', (db.updateAttempt a.id f).findAttempt attemptId = some x' ∧ RowStep now db db' x x' := by
  rw [Db.findAttempt_updateAttempt db a.id hf]
  by_cases hid : attemptId = a.id
  · subst hid
    obtain rfl : a = x := Option.some.inj (ha.symm.trans hx)
    exact ⟨f a, by simp [ha], hstep⟩
  · exact ⟨x, by simp [hid, hx], .same x⟩

theorem Change.row {now : Int} {db db' : Db} (h : Change now db db') {attemptId : String}
    {x : ExamAttempt} (hx : db.findAttempt attemptId = some x) :
    ∃ x', db'.findAttempt attemptId = some x' ∧ RowStep now db db' x x' := by
  rcases h with h | h | h
  case adjust => exact findAttempt_step (f := (·.extend _)) (fun _ => rfl) h.found (.extend h rfl) hx
  case examWrite => exact ⟨x, hx, .same x⟩
  cases h with
  | @save c a question record receipt hw =>
    have hid : a.id = c.context.attemptId := Db.findAttempt_id hw.found
    have hm := hw.acceptance.isMutable
    have hstep : RowStep now db (c.write db a record receipt) a (a.recordSave _ c.context.checkedAt) :=
      .save (applyAcceptedResult a.answers record c.request) _ hm.not_submitted hm.not_graded
            hm.not_voided
    have := findAttempt_step (f := (·.recordSave _ _)) (fun _ => rfl) (hid ▸ hw.found) hstep hx
    rw [hid] at this
    exact this
  | touch ha hs => exact findAttempt_step (f := (·.touch now)) (fun _ => rfl) ha (.touch hs) hx
  | detect ha hs _ _ =>
    exact findAttempt_step (f := (·.markDisrupted _ now)) (fun _ => rfl) ha (.detect _ hs) hx
  | restore ha hs _ _ =>
    exact findAttempt_step (f := (·.restore now)) (fun _ => rfl) ha (.restore hs) hx
  | freeze h =>
    exact findAttempt_step (f := (·.submittedRow _ _)) (fun _ => rfl) h.found (.freeze _ _ h rfl) hx
  | score h => exact ⟨x, hx, .same x⟩
  | close h =>
    exact findAttempt_step (f := (·.gradedRow _ now)) (fun _ => rfl) h.found (.close h rfl) hx
  | @create a input h =>
    refine ⟨x, ?_, .same x⟩
    have hne : attemptId ≠ a.id := by
      rintro rfl
      rw [h.fresh] at hx; cases hx
    exact (Db.findAttempt_append h.fresh attemptId).trans ((if_neg hne).trans hx)

theorem Change.appears {now : Int} {db db' : Db} (h : Change now db db') {attemptId : String}
    {x : ExamAttempt} (hnone : db.findAttempt attemptId = none)
    (hx : db'.findAttempt attemptId = some x) :
    ∃ input, Creates db x input ∧ db' = db.create x := by
  have hno : ∀ {k : String} {f : ExamAttempt → ExamAttempt}, (∀ a, (f a).id = a.id) →
      (db.updateAttempt k f).findAttempt attemptId = some x → False := by
    intro k f hf he
    rw [findAttempt_updateAttempt_none hf hnone] at he; cases he
  rcases h with h | h | h
  case adjust => exact (hno (f := (·.extend _)) (fun _ => rfl) hx).elim
  case examWrite => exact absurd (hnone.symm.trans hx) (by simp)
  cases h with
  | save _ => exact (hno (f := (·.recordSave _ _)) (fun _ => rfl) hx).elim
  | touch _ _ => exact (hno (f := (·.touch now)) (fun _ => rfl) hx).elim
  | detect _ _ _ _ => exact (hno (f := (·.markDisrupted _ now)) (fun _ => rfl) hx).elim
  | restore _ _ _ _ => exact (hno (f := (·.restore now)) (fun _ => rfl) hx).elim
  | freeze _ => exact (hno (f := (·.submittedRow _ _)) (fun _ => rfl) hx).elim
  | score _ => exact absurd (hnone.symm.trans hx) (by simp)
  | close _ => exact (hno (f := (·.gradedRow _ now)) (fun _ => rfl) hx).elim
  | @create a input h =>
    rw [show (db.create a).findAttempt attemptId = _ from Db.findAttempt_append h.fresh attemptId] at hx
    by_cases hid : attemptId = a.id
    · rw [if_pos hid] at hx
      obtain rfl := Option.some.inj hx
      exact ⟨input, h, rfl⟩
    · rw [if_neg hid, hnone] at hx; cases hx

/-- Every row of the new store is a new attempt or steps a row of the old one. -/
theorem Change.row_cases {now : Int} {db db' : Db} (h : Change now db db') {attemptId : String}
    {x' : ExamAttempt} (hx' : db'.findAttempt attemptId = some x') :
    (∃ input, Creates db x' input ∧ db' = db.create x') ∨
      ∃ x, db.findAttempt attemptId = some x ∧ RowStep now db db' x x' := by
  cases hx : db.findAttempt attemptId with
  | none => exact .inl (h.appears hx hx')
  | some x =>
    obtain ⟨y, hy, hstep⟩ := h.row hx
    obtain rfl := Option.some.inj (hy.symm.trans hx')
    exact .inr ⟨x, rfl, hstep⟩

/-! ## Reachable stores -/

def Reachable (db : Db) : Prop := ∃ db₀, Initial db₀ ∧ Relation.ReflTransGen SomeChange db₀ db

theorem Reachable.changes {now : Int} {db db' : Db} (h : Reachable db) (hc : Quiets now db db') :
    Reachable db' := by
  obtain ⟨db₀, hi, h⟩ := h
  exact ⟨db₀, hi, h.trans hc.changes⟩

theorem reachable_run {db : Db} (h : Reachable db) (cs : List Command) :
    Reachable (run Command.step db cs) := by
  obtain ⟨db₀, hi, h⟩ := h
  exact ⟨db₀, hi, h.trans (run_changes cs db)⟩

theorem Initial.reachable {db : Db} (h : Initial db) : Reachable db := ⟨db, h, .refl⟩

/-- What holds at the start and is kept by every change holds when reachable. -/
theorem Reachable.invariant {P : Db → Prop} (hinit : ∀ db, Initial db → P db)
    (hchange : ∀ now db db', P db → Change now db db' → P db') {db : Db} (h : Reachable db) : P db := by
  obtain ⟨db₀, hi, h⟩ := h
  exact closure_invariant (fun s t hs hc => hc.elim fun now hc => hchange now s t hs hc) h
    (hinit db₀ hi)

end

/-! ## A sample run -/

def sampleInitial : Db :=
  { sampleDb with
    enrollment := { sampleEnrollment with status := .assigned, attemptCount := 0 }
    attempts := [] }

def sampleStart : Command :=
  .start
    { examId := "exam", candidateId := "candidate", now := 0, freshAttemptId := "attempt"
      freshAdjustment := { id := "", operationId := "" }, draws := [], admission := none }

def sampleStartOf (attemptId : String) (now : Int) : Command :=
  .start
    { examId := "exam", candidateId := "candidate", now := now, freshAttemptId := attemptId
      freshAdjustment := { id := "", operationId := "" }, draws := [], admission := none }

theorem sampleInitial_initial : Initial sampleInitial :=
  ⟨rfl, rfl, rfl, rfl, rfl, rfl, rfl, rfl, ⟨rfl, rfl, rfl⟩⟩

theorem sampleDb_reachable : @Reachable sampleHost sampleDb := by
  let _ : Host := sampleHost
  have hrun : run Command.step sampleInitial [sampleStart] = sampleDb := by decide +kernel
  exact hrun ▸ reachable_run sampleInitial_initial.reachable [sampleStart]

end ExamSystem
