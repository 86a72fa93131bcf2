import ExamSystem.Effects
import ExamSystem.BirthSound
import ExamSystem.PolicySound

/-!
# Sittings under the exam routes

The commands on an enrollment together with every route that writes the exam,
in the order of the server's clock. Once the exam has an attempt it is never a
draft again: its questions stay, and its close only moves later.
-/

namespace ExamSystem

open Tx

/-! ## The other exam routes -/

def cancelExam (db : Db) (examId : String) : Result (Exam × Db) := transitionExam db examId .canceled

def archiveExam (db : Db) (examId : String) : Result (Exam × Db) := transitionExam db examId .archived

def cancelRoute (db : Db) (examId : String) (now : Int) : Result (Exam × Db) := do
  let (_, db) ← checkAndUpdateExamStatus db examId now
  require (db.countUnresolvedByExam examId = 0)
    (.examCancelNotAllowed (some (db.countUnresolvedByExam examId)))
  match cancelExam db examId with
  | .error (.invalidStateTransition _) => .error (.examCancelNotAllowed none)
  | result => result

def archiveRoute (db : Db) (examId : String) (now : Int) : Result (Exam × Db) := do
  let (exam, db) ← checkAndUpdateExamStatus db examId now
  if exam.status = .archived then pure (exam, db)
  else
    match archiveExam db examId with
    | .error (.invalidStateTransition _) => .error .examArchiveNotAllowed
    | result => result

/-- The first publication sets the instant; a repeated one changes nothing. -/
def publishResults (db : Db) (examId : String) (now : Int) : Result (Exam × Db) := do
  let exam ← orThrow (db.findExam examId) (.validation "Exam not found")
  require (exam.status = .published ∨ exam.status = .open ∨ exam.status = .closed)
    (.invalidStateTransition s!"Cannot publish results for exam in {exam.status.text} state")
  if exam.resultsPublishedAt.isSome then pure (exam, db)
  else pure ({ exam with resultsPublishedAt := some now },
    { db with exam := { exam with resultsPublishedAt := some now } })

def publishResultsRoute (db : Db) (examId : String) (now : Int) : Result (Exam × Db) :=
  match publishResults db examId now with
  | .error (.invalidStateTransition _) => .error .examPublishResultsNotAllowed
  | .error (.validation _) => .error (.notFound "RESOURCE_NOT_FOUND")
  | result => result

/-! ## Requests -/

def Command.isExamWrite : Command → Bool
  | .examWrite _ _ => true
  | _ => false

/-- What reaches the server: a command on the enrollment, or a write of the exam
through one of its routes. -/
inductive Request
  | sitting (c : Command) (h : c.isExamWrite = false)
  | exam (c : ExamCommand)
  | cancel (now : Int)
  | archive (now : Int)
  | publishResults (now : Int)

def ExamCommand.now : ExamCommand → Option Int
  | .update _ _ now => some now
  | .publish _ => none
  | .unpublish now => some now
  | .extend _ now => some now
  | .reconcile now => some now
  | .close now => some now

def Request.now : Request → Option Int
  | .sitting c _ => some c.now
  | .exam c => c.now
  | .cancel now => some now
  | .archive now => some now
  | .publishResults now => some now

/-- The requests come in the order of the clock, from `clock` on. -/
def InOrder : Int → List Request → Prop
  | _, [] => True
  | clock, r :: rs => (∀ t ∈ r.now, clock ≤ t) ∧ InOrder (r.now.getD clock) rs

def clockAfter : Int → List Request → Int
  | clock, [] => clock
  | clock, r :: rs => clockAfter (r.now.getD clock) rs

section
variable [Host] [RichContent]

def Request.step (r : Request) (db : Db) : Result (Unit × Db) :=
  match r with
  | .sitting c _ => c.step db
  | .exam c => do
    let (_, db) ← c.step db
    pure ((), db)
  | .cancel now => do
    let (_, db) ← cancelRoute db db.exam.id now
    pure ((), db)
  | .archive now => do
    let (_, db) ← archiveRoute db db.exam.id now
    pure ((), db)
  | .publishResults now => do
    let (_, db) ← publishResultsRoute db db.exam.id now
    pure ((), db)

end

/-! ## What a request makes of the exam -/

def NoEarlier (t t' : Option Int) : Prop := t' = t ∨ ∃ u u', t = some u ∧ t' = some u' ∧ u ≤ u'

theorem NoEarlier.trans {t t' t'' : Option Int} (h : NoEarlier t t') (h' : NoEarlier t' t'') :
    NoEarlier t t'' := by
  rcases h with rfl | ⟨u, u', rfl, rfl, hle⟩
  · exact h'
  · rcases h' with rfl | ⟨v, v', hv, rfl, hle'⟩
    · exact .inr ⟨u, u', rfl, rfl, hle⟩
    · obtain rfl := Option.some.inj hv
      exact .inr ⟨u, v', rfl, rfl, hle.trans hle'⟩

/-- An exam that is out of its draft keeps its questions, its rules and its
opening, and its close comes no earlier. -/
structure Exam.Kept (exam exam' : Exam) : Prop where
  row : exam' =
    { exam with
      status := exam'.status, closeAt := exam'.closeAt,
      resultsPublishedAt := exam'.resultsPublishedAt }
  before : exam.status ≠ .draft
  after : exam'.status ≠ .draft
  published : exam'.status = .published → exam.status = .published
  closeAt : NoEarlier exam.closeAt exam'.closeAt

theorem Exam.Kept.refl {exam : Exam} (h : exam.status ≠ .draft) : exam.Kept exam :=
  ⟨rfl, h, h, fun hp => hp, .inl rfl⟩

theorem Exam.Kept.trans {exam exam' exam'' : Exam} (h : exam.Kept exam') (h' : exam'.Kept exam'') :
    exam.Kept exam'' := by
  refine ⟨?_, h.before, h'.after, fun hp => h.published (h'.published hp), h.closeAt.trans h'.closeAt⟩
  rw [h'.row, h.row]

theorem Exam.Kept.withStatus {exam : Exam} {status : ExamStatus} (h : exam.status ≠ .draft)
    (hd : status ≠ .draft) (hp : status ≠ .published) : exam.Kept (exam.withStatus status) :=
  ⟨rfl, h, hd, fun hs => absurd hs hp, .inl rfl⟩

theorem Exam.Kept.transition {exam : Exam} {target : ExamStatus}
    (h : target ∈ examTransitions exam.status) (hd : target ≠ .draft) (hp : target ≠ .published) :
    exam.Kept (exam.withStatus target) := by
  refine .withStatus (fun hdraft => ?_) hd hp
  rw [hdraft] at h
  exact hp (List.mem_singleton.mp h)

/-- What a request at `now` makes of the exam. A draft is free until publish
accepts its policy; a published exam is rescheduled or withdrawn only before it
opens, and loses its close only when it is untimed. -/
inductive Exam.Revised (now : Option Int) (exam : Exam) : Exam → Prop
  | same : Revised now exam exam
  | redrafted {exam' : Exam} (hid : exam'.id = exam.id) (h : exam.status = .draft)
      (h' : exam'.status = .draft) : Revised now exam exam'
  | published {exam' : Exam} (hid : exam'.id = exam.id) (h : exam.status = .draft)
      (hmode : exam'.timingMode ≠ .timedSync)
      (hvalid : exam'.ValidPolicy) : Revised now exam exam'
  | pending {exam' : Exam} (h : exam.status = .published)
      (hbefore : exam.timingMode ≠ .timedSync → ∃ t ∈ now, t < exam.openAt)
      (hrow : exam' =
        { exam with status := exam'.status, openAt := exam'.openAt, closeAt := exam'.closeAt })
      (hclose : exam'.closeAt = none → exam.closeAt = none ∨ exam.timingMode = .untimed) : Revised
        now exam exam'
  | kept {exam' : Exam} (h : exam.Kept exam') : Revised now exam exam'

theorem Exam.Revised.id {now : Option Int} {exam exam' : Exam} (h : exam.Revised now exam') :
    exam'.id = exam.id := by
  cases h with
  | same => rfl
  | redrafted hid _ _ => exact hid
  | published hid _ _ _ => exact hid
  | pending _ _ hrow _ => rw [hrow]
  | kept h => rw [h.row]

theorem Reconciled.cases_kept {now : Int} {exam exam' : Exam} (h : Reconciled now exam exam') :
    exam' = exam ∨ exam.Kept exam' := by
  cases h with
  | same _ => exact .inl rfl
  | opened hs => exact .inr (.withStatus (by rw [hs]; decide) (by decide) (by decide))
  | closed hl =>
    have hne : exam.status ≠ .draft := by
      rcases hl with hs | hs <;> rw [hs] <;> decide
    exact .inr (.withStatus hne (by decide) (by decide))

theorem Reconciled.kept {now : Int} {exam exam' exam'' : Exam} (h : Reconciled now exam exam')
    (hk : exam'.Kept exam'') :
    exam.Revised (some now) exam'' := by
  rcases h.cases_kept with rfl | hk'
  · exact .kept hk
  · exact .kept (hk'.trans hk)

theorem Reconciled.revised {now : Int} {exam exam' : Exam} (h : Reconciled now exam exam') :
    exam.Revised (some now) exam' := by
  rcases h.cases_kept with rfl | hk
  · exact .same
  · exact .kept hk

theorem updateDraft_id {exam exam' : Exam} {data : UpdateExamRequest} {found : List (Option Question)}
    (h : updateDraft exam data found = .ok exam') : exam'.id = exam.id := by
  unfold updateDraft at h
  split at h
  · rw [pure_eq_ok] at h
    rw [h]
  · split at h
    all_goals split at h
    all_goals simp only [bind_eq_ok, pure_eq_ok] at h
    · obtain ⟨-, -, -, -, -, -, rfl⟩ := h
      rfl
    · obtain ⟨-, -, -, -, rfl⟩ := h
      rfl
    · obtain ⟨-, -, -, -, rfl⟩ := h
      rfl
    · obtain ⟨-, -, rfl⟩ := h
      rfl

theorem updateExam_revised {db db' : Db} {examId : String} {data : UpdateExamRequest}
    {found : List (Option Question)} {now : Int} {r : Exam}
    (h : updateExam db examId data found now = .ok (r, db')) :
    db.exam.Revised (some now) r ∧ db' = { db with exam := r } := by
  simp only [updateExam, bind_eq_ok, orThrow_eq_ok] at h
  obtain ⟨existing, hfound, h⟩ := h
  obtain ⟨-, rfl⟩ := Db.findExam_eq_some.mp hfound
  split at h
  · simp only [pure_eq_ok, Prod.mk.injEq] at h
    obtain ⟨rfl, rfl⟩ := h
    exact ⟨.same, rfl⟩
  · simp only [bind_eq_ok] at h
    obtain ⟨⟨exam, db₁⟩, hrec, h⟩ := h
    obtain ⟨hreconciled, rfl⟩ := checkAndUpdateExamStatus_ok hrec
    split at h
    · rename_i hdraft
      simp only [bind_eq_ok, pure_eq_ok, Prod.mk.injEq] at h
      obtain ⟨updated, hup, rfl, rfl⟩ := h
      rcases hreconciled.cases_kept with rfl | hk
      · exact ⟨.redrafted (updateDraft_id hup) hdraft ((updateDraft_status hup).trans hdraft), rfl⟩
      · exact absurd hdraft hk.after
    · rename_i hpub
      simp only [bind_eq_ok, pure_eq_ok, Prod.mk.injEq] at h
      obtain ⟨updated, hup, rfl, rfl⟩ := h
      obtain ⟨rfl, hbefore⟩ := hreconciled.published hpub
      simp only [updateSchedule, bind_eq_ok, require_eq_ok, exists_const, pure_eq_ok] at hup
      obtain ⟨-, hclear, rfl⟩ := hup
      refine ⟨.pending hpub (fun hmode => ⟨now, rfl, hbefore hmode⟩) rfl fun hnone => ?_, rfl⟩
      change data.closeAt.getD db.exam.closeAt = none at hnone
      cases hsent : data.closeAt with
      | none =>
        rw [hsent] at hnone
        exact .inl hnone
      | some sent =>
        rw [hsent] at hnone hclear
        exact .inr (by_contra fun hmode => hclear ⟨congrArg some hnone, hmode⟩)
    · cases h

theorem closeExam_revised {db db₁ db' : Db} {examId : String} {now : Int} {exam r : Exam}
    (hrec : checkAndUpdateExamStatus db examId now = .ok (exam, db₁))
    (h : closeExam db₁ examId = .ok (r, db')) :
    db.exam.Revised (some now) r ∧ db' = { db with exam := r } := by
  obtain ⟨hreconciled, rfl⟩ := checkAndUpdateExamStatus_ok hrec
  obtain ⟨hfrom, rfl, rfl⟩ := closeExam_ok h
  refine ⟨hreconciled.kept ?_, rfl⟩
  rcases hfrom with hs | htarget
  · change exam.status = .closed at hs
    exact .withStatus (by rw [hs]; decide) (by decide) (by decide)
  · exact .transition htarget (by decide) (by decide)

/-- A request that reconciles the exam and moves its status on, out of every draft. -/
theorem transitionExam_revised {db db₁ db' : Db} {examId : String} {now : Int} {target : ExamStatus}
    {exam r : Exam} (hrec : checkAndUpdateExamStatus db examId now = .ok (exam, db₁))
    (h : transitionExam db₁ examId target = .ok (r, db')) (hd : target ≠ .draft)
    (hp : target ≠ .published) : db.exam.Revised (some now) r ∧ db' = { db with exam := r } := by
  obtain ⟨hreconciled, rfl⟩ := checkAndUpdateExamStatus_ok hrec
  obtain ⟨htarget, rfl, rfl⟩ := transitionExam_ok h
  exact ⟨hreconciled.kept (.transition htarget hd hp), rfl⟩

theorem extendExam_kept {db db' : Db} {examId : String} {extendMinutes : Int} {r : Exam}
    (h : extendExam db examId extendMinutes = .ok (r, db')) :
    db.exam.Kept r ∧ db' = { db with exam := r } := by
  simp only [extendExam, bind_eq_ok, orThrow_eq_ok, require_eq_ok, exists_const, pure_eq_ok,
    Prod.mk.injEq] at h
  obtain ⟨hpos, e, he, hopen, close, hclose, rfl, rfl⟩ := h
  obtain ⟨-, rfl⟩ := Db.findExam_eq_some.mp he
  have hne : db.exam.status ≠ .draft := by
    rw [hopen]
    decide
  refine ⟨⟨rfl, hne, hne, id, .inr ⟨close, close + extendMinutes * 60000, hclose, rfl, ?_⟩⟩, rfl⟩
  omega

theorem publishResults_revised {db db' : Db} {examId : String} {now : Int} {r : Exam}
    (h : publishResults db examId now = .ok (r, db')) :
    db.exam.Revised (some now) r ∧ db' = { db with exam := r } := by
  simp only [publishResults, bind_eq_ok, orThrow_eq_ok, require_eq_ok, exists_const] at h
  obtain ⟨exam, hfound, hlive, h⟩ := h
  obtain ⟨-, rfl⟩ := Db.findExam_eq_some.mp hfound
  split at h
  · simp only [pure_eq_ok, Prod.mk.injEq] at h
    obtain ⟨rfl, rfl⟩ := h
    exact ⟨.same, rfl⟩
  · simp only [pure_eq_ok, Prod.mk.injEq] at h
    obtain ⟨rfl, rfl⟩ := h
    have hne : db.exam.status ≠ .draft := by
      rcases hlive with hs | hs | hs <;> rw [hs] <;> decide
    exact ⟨.kept ⟨rfl, hne, hne, id, .inl rfl⟩, rfl⟩

section
variable [Host] [RichContent]

theorem publishRoute_revised {db db' : Db} {examId : String} {questions : List Question} {r : Exam}
    (h : publishRoute db examId questions = .ok (r, db')) :
    db.exam.Revised none r ∧ db' = { db with exam := r } := by
  unfold publishRoute at h
  split at h
  · cases h
  · simp only [publishExam, bind_eq_ok, orThrow_eq_ok, require_eq_ok, exists_const, pure_eq_ok,
      Prod.mk.injEq] at h
    obtain ⟨draft, hfound, _, hrow, -, -, -, questionSnapshot, -, -, -, rfl, rfl⟩ := h
    obtain ⟨-, rfl⟩ := Db.findExam_eq_some.mp hfound
    simp only [checkExamRow, assertExamTransition, bind_eq_ok, require_eq_ok, exists_const] at hrow
    obtain ⟨htarget, -, hmode, -, -, -, hvalid⟩ := hrow
    have hdraft : db.exam.status = .draft := by
      cases hs : db.exam.status <;> simp [hs, examTransitions] at htarget ⊢
    exact ⟨.published rfl hdraft hmode (assertExamPolicyValid_eq_ok.mp hvalid), rfl⟩

theorem ExamCommand.revised {c : ExamCommand} {db db' : Db} {r : Exam} (h : c.step db = .ok (r, db')) :
    db.exam.Revised c.now r ∧ db' = { db with exam := r } := by
  cases c with
  | update data found now => exact updateExam_revised h
  | publish questions => exact publishRoute_revised h
  | unpublish now =>
    simp only [ExamCommand.step, unpublishRoute, bind_eq_ok, require_eq_ok, exists_const] at h
    obtain ⟨⟨exam, db₁⟩, hrec, hpub, h⟩ := h
    obtain ⟨hreconciled, rfl⟩ := checkAndUpdateExamStatus_ok hrec
    obtain ⟨-, rfl, rfl⟩ := transitionExam_ok h
    obtain ⟨rfl, hbefore⟩ := hreconciled.published hpub
    exact ⟨.pending hpub (fun hmode => ⟨now, rfl, hbefore hmode⟩) rfl .inl, rfl⟩
  | extend extendMinutes now =>
    simp only [ExamCommand.step, extendRoute, bind_eq_ok, require_eq_ok, exists_const] at h
    obtain ⟨⟨exam, db₁⟩, hrec, -, h⟩ := h
    obtain ⟨hreconciled, rfl⟩ := checkAndUpdateExamStatus_ok hrec
    obtain ⟨hkept, rfl⟩ := extendExam_kept h
    exact ⟨hreconciled.kept hkept, rfl⟩
  | reconcile now =>
    obtain ⟨hreconciled, rfl⟩ := checkAndUpdateExamStatus_ok h
    exact ⟨hreconciled.revised, rfl⟩
  | close now =>
    simp only [ExamCommand.step, closeRoute, bind_eq_ok, require_eq_ok, exists_const] at h
    obtain ⟨⟨exam, db₁⟩, hrec, -, h⟩ := h
    split at h
    · cases h
    · exact closeExam_revised hrec h

theorem Request.step_cases {r : Request} {db db' : Db} {u : Unit} (h : r.step db = .ok (u, db')) :
    (∃ c hc, r = .sitting c hc ∧ c.step db = .ok (u, db')) ∨
      ∃ exam, db.exam.Revised r.now exam ∧ db' = { db with exam := exam } := by
  cases r with
  | sitting c hc => exact .inl ⟨c, hc, rfl, h⟩
  | exam c =>
    simp only [Request.step, bind_eq_ok, pure_eq_ok, Prod.mk.injEq] at h
    obtain ⟨⟨exam, db₁⟩, hx, -, rfl⟩ := h
    exact .inr ⟨exam, ExamCommand.revised hx⟩
  | cancel now =>
    simp only [Request.step, cancelRoute, bind_eq_ok, require_eq_ok, exists_const, pure_eq_ok,
      Prod.mk.injEq] at h
    obtain ⟨⟨exam, db₁⟩, ⟨⟨e, db₂⟩, hrec, -, hx⟩, -, rfl⟩ := h
    split at hx
    · cases hx
    · exact .inr ⟨exam, transitionExam_revised hrec hx (by decide) (by decide)⟩
  | archive now =>
    simp only [Request.step, archiveRoute, bind_eq_ok, pure_eq_ok, Prod.mk.injEq] at h
    obtain ⟨⟨exam, db₁⟩, ⟨⟨e, db₂⟩, hrec, hx⟩, -, rfl⟩ := h
    split at hx
    · simp only [pure_eq_ok, Prod.mk.injEq] at hx
      obtain ⟨rfl, rfl⟩ := hx
      obtain ⟨hreconciled, rfl⟩ := checkAndUpdateExamStatus_ok hrec
      exact .inr ⟨_, hreconciled.revised, rfl⟩
    · split at hx
      · cases hx
      · exact .inr ⟨exam, transitionExam_revised hrec hx (by decide) (by decide)⟩
  | publishResults now =>
    simp only [Request.step, publishResultsRoute, bind_eq_ok, pure_eq_ok, Prod.mk.injEq] at h
    obtain ⟨⟨exam, db₁⟩, hx, -, rfl⟩ := h
    split at hx
    · cases hx
    · cases hx
    · exact .inr ⟨exam, publishResults_revised hx⟩

end

/-! ## The invariant of a session -/

section
variable [Host]

/-- Once there is an attempt the exam is out of its draft, and open by the clock
if it is still published. -/
structure Session (clock : Int) (db : Db) : Prop where
  reachable : Reachable db
  unsynced : db.exam.status ≠ .draft → db.exam.timingMode ≠ .timedSync
  begun : db.attempts ≠ [] → db.exam.status ≠ .draft
  opened : db.attempts ≠ [] → db.exam.status = .published → db.exam.openAt ≤ clock

theorem Initial.session {db : Db} (h : Initial db) (hdraft : db.exam.status = .draft) (clock : Int) :
    Session clock db :=
  ⟨h.reachable, fun hne => absurd hdraft hne, fun hne => absurd h.attempts hne,
    fun hne => absurd h.attempts hne⟩

theorem Session.later {clock clock' : Int} {db : Db} (h : Session clock db) (hle : clock ≤ clock') :
    Session clock' db :=
  ⟨h.reachable, h.unsynced, h.begun, fun hne hp => (h.opened hne hp).trans hle⟩

/-- Under an attempt the exam is only kept. -/
theorem Session.kept {clock : Int} {db : Db} {now : Option Int} {exam' : Exam}
    (h : Session clock db) (hclock : ∀ t ∈ now, clock ≤ t) (hr : db.exam.Revised now exam')
    (hne : db.attempts ≠ []) : db.exam.Kept exam' := by
  cases hr with
  | same => exact .refl (h.begun hne)
  | redrafted _ hdraft _ => exact absurd hdraft (h.begun hne)
  | published _ hdraft _ _ => exact absurd hdraft (h.begun hne)
  | pending hp hbefore _ _ =>
    obtain ⟨t, ht, hlt⟩ := hbefore (h.unsynced (h.begun hne))
    have hopen := h.opened hne hp
    have := hclock t ht
    omega
  | kept hk => exact hk

theorem Session.exam {clock : Int} {db : Db} {now : Option Int} {exam' : Exam} (h : Session clock db)
    (hclock : ∀ t ∈ now, clock ≤ t) (hr : db.exam.Revised now exam') :
    Session (now.getD clock) { db with exam := exam' } := by
  have hle : clock ≤ now.getD clock := by
    cases now with
    | none => exact le_refl _
    | some t => exact hclock t rfl
  obtain ⟨db₀, hi, hchanges⟩ := h.reachable
  refine ⟨⟨db₀, hi, hchanges.tail ⟨0, .examWrite hr.id⟩⟩, ?_,
    fun hne => (h.kept hclock hr hne).after, ?_⟩
  · intro hlive
    change exam'.status ≠ .draft at hlive
    cases hr with
    | same => exact h.unsynced hlive
    | redrafted _ _ hdraft => exact absurd hdraft hlive
    | published _ _ hmode _ => exact hmode
    | pending hp _ hrow _ =>
      have hne : db.exam.status ≠ .draft := by
        rw [hp]
        decide
      change exam'.timingMode ≠ .timedSync
      rw [hrow]
      exact h.unsynced hne
    | kept hk =>
      change exam'.timingMode ≠ .timedSync
      rw [hk.row]
      exact h.unsynced hk.before
  · intro hne hp
    have hk := h.kept hclock hr hne
    change exam'.openAt ≤ now.getD clock
    rw [hk.row]
    exact (h.opened hne (hk.published hp)).trans hle

theorem Session.moves {clock now : Int} {db db' : Db} {target : Option String}
    {due : ExamAttempt → Option Int} (h : Session clock db) (hclock : clock ≤ now)
    (hm : Moves now target due db db') (hchanges : Relation.ReflTransGen SomeChange db db') :
    Session now db' := by
  obtain ⟨db₀, hi, hbefore⟩ := h.reachable
  have hwindow : db'.attempts ≠ [] → db.exam.status ≠ .draft ∧
      (db.exam.status = .published → db.exam.openAt ≤ now) := by
    intro hne
    by_cases hnil : db.attempts = []
    · rcases hm.from_empty hnil with rfl | ⟨syncDeadline, hstart⟩
      · exact absurd hnil hne
      · obtain ⟨hlive, hopen, -⟩ := checkStartWindow_ok hstart
        refine ⟨?_, fun _ => hopen⟩
        rcases hlive with hs | hs <;> rw [hs] <;> decide
    · exact ⟨h.begun hnil, fun hp => (h.opened hnil hp).trans hclock⟩
  refine ⟨⟨db₀, hi, hbefore.trans hchanges⟩, ?_, ?_, ?_⟩
  · rw [hm.exam]
    exact h.unsynced
  · rw [hm.exam]
    exact fun hne => (hwindow hne).1
  · rw [hm.exam]
    exact fun hne => (hwindow hne).2

variable [RichContent]

inductive Acts (db : Db) : Request → Db → Prop
  | sitting {c : Command} {hc : c.isExamWrite = false} {db' : Db}
      (h : Moves c.now (c.reconciles db) (c.due db) db db') :
      Acts db (.sitting c hc) db'
  | exam {r : Request} {exam : Exam} (h : db.exam.Revised r.now exam) : Acts db r
      { db with exam := exam }

theorem Request.acts {r : Request} {db db' : Db} {u : Unit} (h : r.step db = .ok (u, db')) :
    Acts db r db' := by
  rcases Request.step_cases h with ⟨c, hc, rfl, hstep⟩ | ⟨exam, hr, rfl⟩
  · rcases step_moves hstep with hm | ⟨exam, now, rfl, -, -⟩
    · exact .sitting hm
    · cases hc
  · exact .exam hr

theorem Session.step {clock : Int} {db db' : Db} {r : Request} {u : Unit} (h : Session clock db)
    (hclock : ∀ t ∈ r.now, clock ≤ t) (hstep : r.step db = .ok (u, db')) :
    Session (r.now.getD clock) db' := by
  rcases Request.step_cases hstep with ⟨c, hc, rfl, hc'⟩ | ⟨exam, hr, rfl⟩
  · rcases step_moves hc' with hm | ⟨exam, now, rfl, -, -⟩
    · exact h.moves (hclock _ rfl) hm (step_changes c db u db' hc')
    · cases hc
  · exact h.exam hclock hr

/-- What a session's requests keep, under a condition on each request and the
state it runs in, holds after them. -/
theorem session_run {G : Request → Db → Prop} {P : Int → Db → Prop}
    (hlater : ∀ clock clock' db, clock ≤ clock' → P clock db → P clock' db)
    (hstep : ∀ clock db r u db', Session clock db → P clock db → (∀ t ∈ r.now, clock ≤ t) → G r db →
      r.step db = .ok (u, db') → P (r.now.getD clock) db') :
    ∀ (rs : List Request) (clock : Int) (db : Db), Session clock db → P clock db → InOrder clock rs →
      Along Request.step G db rs →
      Session (clockAfter clock rs) (run Request.step db rs) ∧
      P (clockAfter clock rs) (run Request.step db rs)
  | [], _, _, hs, hp, _, _ => ⟨hs, hp⟩
  | r :: rs, clock, db, hs, hp, ho, hg => by
    have hle : clock ≤ r.now.getD clock := by
      cases hn : r.now with
      | none => exact le_refl _
      | some t => exact ho.1 t hn
    have hnext : Session (r.now.getD clock) (commit (r.step db) db) ∧
        P (r.now.getD clock) (commit (r.step db) db) := by
      rcases commit_cases (r.step db) db with he | ⟨u, db', hx, he⟩
      · rw [he]
        exact ⟨hs.later hle, hlater _ _ _ hle hp⟩
      · rw [he]
        exact ⟨hs.step ho.1 hx, hstep _ _ _ _ _ hs hp ho.1 hg.1 hx⟩
    exact session_run hlater hstep rs _ _ hnext.1 hnext.2 ho.2 hg.2

end

end ExamSystem
