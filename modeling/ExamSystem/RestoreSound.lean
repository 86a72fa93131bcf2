import ExamSystem.Identity

/-!
# Restores are idempotent

A restore writes its compensation into the outcome event of the episode and,
when it grants time, into the ledger row the event names. Both are append-only,
so a later restore reads the same compensation back.
-/

namespace ExamSystem

open Tx

/-! ## The history -/

/-- Every attempt is of the exam, the ledger rows have ids of their own, every
event is on record at `T`, and an attempt points at its latest episode. -/
structure HistorySound (T : Int) (db : Db) : Prop where
  ids : (db.timeAdjustments.map (·.id)).Nodup
  events : ∀ e ∈ db.interruptionEvents, Recorded db T e
  points : ∀ attemptId a i, db.findAttempt attemptId = some a → a.currentInterruptionId = some i →
    ∀ episode ∈ db.findLatestInterruption attemptId, episode.id = i
  exam : ∀ attemptId a, db.findAttempt attemptId = some a → a.examId = db.exam.id

theorem GraceRow.mono {db db' : Db} {attemptId interruptionId adjustmentId : String}
    {row : AttemptTimeAdjustment} (h : GraceRow db attemptId interruptionId adjustmentId row)
    (hl : db.timeAdjustments <+: db'.timeAdjustments) :
    GraceRow db' attemptId interruptionId adjustmentId row :=
  ⟨hl.subset h.stored, h.key, h.attempt, h.interruption, h.source, h.policy⟩

theorem Recorded.mono {db db' : Db} {now T : Int} {e : AttemptInterruptionEvent}
    (h : Recorded db now e) (hT : now ≤ T) (hl : db.timeAdjustments <+: db'.timeAdjustments) :
    Recorded db' T e :=
  ⟨h.past.trans hT, fun id hid => (h.adjustment id hid).imp fun _ hrow => hrow.mono hl⟩

/-- An update that keeps or clears the pointer keeps it on the latest episode. -/
theorem points_update {db : Db} {k : String} {f : ExamAttempt → ExamAttempt}
    (hf : ∀ a, (f a).id = a.id)
    (hp : ∀ a, (f a).currentInterruptionId = a.currentInterruptionId ∨
      (f a).currentInterruptionId = none)
    (h : ∀ attemptId a i, db.findAttempt attemptId = some a → a.currentInterruptionId = some i →
      ∀ episode ∈ db.findLatestInterruption attemptId, episode.id = i) :
    ∀ attemptId a i, (db.updateAttempt k f).findAttempt attemptId = some a →
      a.currentInterruptionId = some i →
      ∀ episode ∈ db.findLatestInterruption attemptId, episode.id = i := by
  intro attemptId a i ha hi
  rw [Db.findAttempt_updateAttempt db k hf] at ha
  by_cases hid : attemptId = k
  · rw [if_pos hid, ← hid] at ha
    obtain ⟨b, hb, rfl⟩ := Option.map_eq_some_iff.mp ha
    rcases hp b with hkeep | hclear
    · exact h attemptId b i hb (hkeep ▸ hi)
    · rw [hclear] at hi
      cases hi
  · rw [if_neg hid] at ha
    exact h attemptId a i ha hi

theorem findLatestInterruption_concat (db : Db) (i : AttemptInterruption) (attemptId : String) :
    ({ db with interruptions := db.interruptions ++ [i] } : Db).findLatestInterruption attemptId =
      if i.attemptId = attemptId then some i else db.findLatestInterruption attemptId := by
  simp only [Db.findLatestInterruption, List.filter_append, List.filter_singleton]
  by_cases h : i.attemptId = attemptId <;> simp [h]

theorem Initial.historySound {db : Db} (h : Initial db) (T : Int) : HistorySound T db := by
  refine ⟨?_, ?_, ?_, ?_⟩
  · simp [h.timeAdjustments]
  · simp [h.interruptionEvents]
  · intro attemptId a i ha
    rw [h.findAttempt] at ha
    cases ha
  · intro attemptId a ha
    rw [h.findAttempt] at ha
    cases ha

section
variable [Host] {T now : Int} {db db' : Db}

theorem HistorySound.points_quiet (h : HistorySound T db) (hq : Quiet now db db') :
    ∀ attemptId a i, db'.findAttempt attemptId = some a → a.currentInterruptionId = some i →
      ∀ episode ∈ db'.findLatestInterruption attemptId, episode.id = i := by
  cases hq with
  | save _ => exact points_update (f := (·.recordSave _ _)) (fun _ => rfl) (fun _ => .inl rfl) h.points
  | touch _ _ => exact points_update (f := (·.touch now)) (fun _ => rfl) (fun _ => .inl rfl) h.points
  | restore _ _ _ _ =>
    exact points_update (f := (·.restore now)) (fun _ => rfl) (fun _ => .inr rfl) h.points
  | freeze _ =>
    exact points_update (f := (·.submittedRow _ _)) (fun _ => rfl) (fun _ => .inr rfl) h.points
  | score _ => exact h.points
  | close _ =>
    exact points_update (f := (·.gradedRow _ now)) (fun _ => rfl) (fun _ => .inl rfl) h.points
  | @create a input hc =>
    intro attemptId b i hb hi
    rw [show (db.create a).findAttempt attemptId = _ from Db.findAttempt_append hc.fresh attemptId]
      at hb
    by_cases hid : attemptId = a.id
    · rw [if_pos hid] at hb
      obtain ⟨_, _, rfl⟩ := hc.row
      cases hb
      cases hi
    · rw [if_neg hid] at hb
      exact h.points attemptId b i hb hi
  | @detect a freshId timeout policy ha hs hfresh _ =>
    intro attemptId b i hb hi episode hep
    rw [show (db.detect a freshId now timeout policy).findAttempt attemptId = _ from
      Db.findAttempt_updateAttempt (f := (·.markDisrupted freshId now)) db a.id
        (fun _ => rfl) attemptId] at hb
    rw [show (db.detect a freshId now timeout policy).findLatestInterruption attemptId = _ from
      findLatestInterruption_concat db { id := freshId, attemptId := a.id } attemptId] at hep
    by_cases hid : attemptId = a.id
    · subst hid
      rw [if_pos rfl, ha] at hb
      rw [if_pos rfl] at hep
      cases hb
      cases hi
      cases hep
      rfl
    · rw [if_neg hid] at hb
      rw [if_neg (Ne.symm hid)] at hep
      exact h.points attemptId b i hb hi episode hep

theorem Quiet.ledger (hq : Quiet now db db') : db'.timeAdjustments = db.timeAdjustments := by
  cases hq <;> rfl

theorem Change.examIds (hc : Change now db db')
    (h : ∀ attemptId a, db.findAttempt attemptId = some a → a.examId = db.exam.id) :
    ∀ attemptId a, db'.findAttempt attemptId = some a → a.examId = db'.exam.id := by
  intro attemptId a' ha'
  rcases hc.row_cases ha' with ⟨input, hcreates, rfl⟩ | ⟨a, ha, hstep⟩
  · exact hcreates.exam.symm
  · rw [hstep.sameSitting.exam, hc.remains.exam]
    exact h attemptId a ha

theorem HistorySound.logged (h : HistorySound T db) (hT : now ≤ T) (hl : Logged now db db') :
    HistorySound T db' := by
  have hledger : db.timeAdjustments <+: db'.timeAdjustments := hl.quiet.ledger ▸ List.prefix_refl _
  refine ⟨hl.quiet.ledger ▸ h.ids, ?_, h.points_quiet hl.quiet, (Change.quiet hl.quiet).examIds h.exam⟩
  intro e he
  rcases hl.events e he with hold | hnew
  · exact (h.events e hold).mono (Int.le_refl T) hledger
  · exact hnew.mono hT hledger

theorem HistorySound.appends {a : ExamAttempt} {row : AttemptTimeAdjustment} (h : HistorySound T db)
    (happ : Appends db a row now) : HistorySound T (db.adjust a row) := by
  refine ⟨Rows.keys_concat_nodup _ h.ids happ.freshId, ?_, ?_,
    (Change.adjust happ.adjusts).examIds h.exam⟩
  · exact fun e he => (h.events e he).mono (Int.le_refl T) (List.prefix_append _ _)
  · exact points_update (f := (·.extend _)) (fun _ => rfl) (fun _ => .inl rfl) h.points

theorem run_historySound (h : Initial db) (cs : List Command) (hT : ∀ c ∈ cs, c.now ≤ T) :
    HistorySound T (run Command.step db cs) :=
  run_logged (P := (· ≤ T)) (Q := fun _ => True) (fun _ _ _ hT h hl => h.logged hT hl)
    (fun _ _ _ _ _ h happ => h.appends happ)
    (fun _ _ h hid _ => ⟨h.ids,
        fun e he => (h.events e he).mono (Int.le_refl T) (List.prefix_refl _), h.points,
      fun k a ha => (h.exam k a ha).trans hid.symm⟩) cs db hT (fun _ _ _ => trivial) (h.historySound T)

end

/-! ## Reading a compensation back -/

/-- The compensation `c` is what the outcome event and its ledger row say. -/
structure Compensates (db : Db) (e : AttemptInterruptionEvent) (c : RestoreCompensation) : Prop where
  policy : c.policy = e.policy
  interruption : c.interruptionId = some e.interruptionId
  adjustment : c.adjustmentId = e.timeAdjustmentId
  ungranted : e.timeAdjustmentId = none → c.eligibleSeconds = e.eligibleSeconds.getD 0 ∧
    c.addedSeconds = 0
  granted : ∀ adjustmentId ∈ e.timeAdjustmentId, ∃ row, db.findAdjustment adjustmentId = some row ∧
    GraceRow db e.attemptId e.interruptionId adjustmentId row ∧
    c.eligibleSeconds = row.eligibleSeconds.getD 0 ∧ c.addedSeconds = row.addedSeconds

theorem GraceRow.found {db : Db} {attemptId interruptionId adjustmentId : String}
    {row : AttemptTimeAdjustment} (h : GraceRow db attemptId interruptionId adjustmentId row)
    (hids : (db.timeAdjustments.map (·.id)).Nodup) :
    db.findAdjustment adjustmentId = some row := by
  rw [← h.key]
  exact Rows.row_of_mem _ hids h.stored

theorem Compensates.remains {db db' : Db} {e : AttemptInterruptionEvent} {c : RestoreCompensation}
    (h : Compensates db e c) (hr : Remains db db') : Compensates db' e c := by
  refine ⟨h.policy, h.interruption, h.adjustment, h.ungranted, ?_⟩
  intro adjustmentId hid
  obtain ⟨row, hfind, hrow, hsec⟩ := h.granted adjustmentId hid
  exact ⟨row, hr.findAdjustment hfind, hrow.mono hr.ledger, hsec⟩

theorem Recorded.compensates {db : Db} {T : Int} {e : AttemptInterruptionEvent} (h : Recorded db T e)
    (hids : (db.timeAdjustments.map (·.id)).Nodup) : ∃ c, Compensates db e c := by
  cases hadj : e.timeAdjustmentId with
  | none =>
    refine ⟨⟨e.policy, some e.interruptionId, e.eligibleSeconds.getD 0, 0, none⟩, rfl, rfl, hadj.symm,
      fun _ => ⟨rfl, rfl⟩, ?_⟩
    intro adjustmentId hid
    rw [hadj] at hid
    cases hid
  | some id =>
    obtain ⟨row, hrow⟩ := h.adjustment id hadj
    refine ⟨⟨e.policy, some e.interruptionId, row.eligibleSeconds.getD 0, row.addedSeconds,
        some id⟩, rfl, rfl,
      hadj.symm, ?_, ?_⟩
    · intro hnone
      rw [hadj] at hnone
      cases hnone
    · intro adjustmentId hid
      rw [hadj] at hid
      obtain rfl := Option.some.inj hid
      exact ⟨row, hrow.found hids, hrow, rfl, rfl⟩

theorem recordedCompensation_eq {db : Db} {a : ExamAttempt} {e : AttemptInterruptionEvent}
    {c : RestoreCompensation} (h : Compensates db e c) (ha : e.attemptId = a.id) (failure : String) :
    recordedCompensation db a e failure = .ok c := by
  unfold recordedCompensation
  cases hadj : e.timeAdjustmentId with
  | none =>
    obtain ⟨helig, hadd⟩ := h.ungranted hadj
    refine congrArg Except.ok ?_
    cases c
    simp only [RestoreCompensation.mk.injEq]
    exact ⟨h.policy.symm, h.interruption.symm, helig.symm, hadd.symm, (h.adjustment.trans hadj).symm⟩
  | some id =>
    obtain ⟨row, hfind, hrow, helig, hadd⟩ := h.granted id hadj
    have hcheck : row.attemptId = a.id ∧ row.interruptionId = some e.interruptionId ∧
        row.source = .boundedGrace ∧ row.policy = .boundedGrace :=
      ⟨hrow.attempt.trans ha, hrow.interruption, hrow.source, hrow.policy⟩
    simp only [hfind, orThrow_some, ok_bind, require_true hcheck]
    refine congrArg Except.ok ?_
    cases c
    simp only [RestoreCompensation.mk.injEq]
    exact ⟨h.policy.symm, h.interruption.symm, helig.symm, hadd.symm, (h.adjustment.trans hadj).symm⟩

/-! ## The latest outcome -/

def Db.outcomesFor (db : Db) (attemptId : String) : List AttemptInterruptionEvent :=
  db.interruptionEvents.filter fun e => e.attemptId = attemptId ∧ Db.isOutcome e

def laterOutcome (latest : Option AttemptInterruptionEvent) (e : AttemptInterruptionEvent) :
    Option AttemptInterruptionEvent :=
  match latest with
  | none => some e
  | some l => if l.occurredAt ≤ e.occurredAt then some e else some l

theorem findLatestOutcome_eq (db : Db) (attemptId : String) :
    db.findLatestOutcome attemptId = (db.outcomesFor attemptId).foldl laterOutcome none := rfl

theorem mem_foldl_laterOutcome :
    ∀ {es : List AttemptInterruptionEvent} {l : Option AttemptInterruptionEvent}
    {x : AttemptInterruptionEvent}, es.foldl laterOutcome l = some x → x ∈ es ∨ l = some x
  | [], _, _, h => .inr h
  | e :: es, l, x, h => by
    have hfold : es.foldl laterOutcome (laterOutcome l e) = some x := h
    rcases mem_foldl_laterOutcome hfold with hmem | heq
    · exact .inl (List.mem_cons_of_mem e hmem)
    · cases l with
      | none => exact .inl (by rw [← Option.some.inj heq]; simp)
      | some l =>
        by_cases hle : l.occurredAt ≤ e.occurredAt
        · rw [laterOutcome, if_pos hle] at heq
          exact .inl (by rw [← Option.some.inj heq]; simp)
        · rw [laterOutcome, if_neg hle] at heq
          exact .inr heq

theorem foldl_laterOutcome_concat {es : List AttemptInterruptionEvent} {e : AttemptInterruptionEvent}
    (h : ∀ x ∈ es, x.occurredAt ≤ e.occurredAt) : (es ++ [e]).foldl laterOutcome none = some e := by
  rw [List.foldl_append]
  cases hes : es.foldl laterOutcome none with
  | none => rfl
  | some l =>
    rcases mem_foldl_laterOutcome hes with hmem | hnone
    · simp [laterOutcome, h l hmem]
    · cases hnone

theorem outcomesFor_mem {db : Db} {attemptId : String} {e : AttemptInterruptionEvent} :
    e ∈ db.outcomesFor attemptId ↔ e ∈ db.interruptionEvents ∧ e.attemptId = attemptId ∧
    Db.isOutcome e = true := by
  simp [Db.outcomesFor]

theorem outcomesFor_append {db db' : Db} {events : List AttemptInterruptionEvent}
    {attemptId : String} (h : db'.interruptionEvents = db.interruptionEvents ++ events)
    (hne : ∀ e ∈ events, e.attemptId ≠ attemptId) :
    db'.outcomesFor attemptId = db.outcomesFor attemptId := by
  rw [Db.outcomesFor, h, List.filter_append, Db.outcomesFor, List.append_right_eq_self,
    List.filter_eq_nil_iff]
  intro e he
  simp [hne e he]

/-! ## The first restore -/

theorem reconstructInProgress_lifecycle {db : Db} {a : ExamAttempt} {r : RestoreInterruptionResult}
    (h : reconstructInProgressOutcome db a = .ok r) : r.lifecycle = .alreadyInProgress := by
  unfold reconstructInProgressOutcome at h
  split at h
  · rw [pure_eq_ok] at h
    rw [← h]
  · simp only [bind_eq_ok, pure_eq_ok] at h
    obtain ⟨_, -, _, -, _, -, c, -, rfl⟩ := h
    rfl

theorem reconstructTerminal_ok {db : Db} {a : ExamAttempt} {r : RestoreInterruptionResult}
    (h : reconstructTerminalOutcome db a = .ok r) : r.attempt = a ∧ r.lifecycle = .terminal := by
  unfold reconstructTerminalOutcome at h
  split at h
  · simp only [bind_eq_ok, pure_eq_ok] at h
    obtain ⟨c, -, rfl⟩ := h
    exact ⟨rfl, rfl⟩
  · rw [pure_eq_ok] at h
    rw [← h]
    exact ⟨rfl, rfl⟩

theorem reconstructInProgress_eq {db : Db} {a : ExamAttempt} {e : AttemptInterruptionEvent}
    {c : RestoreCompensation} (hlatest : db.findLatestOutcome a.id = some e)
    (htype : e.eventType = .restored) (hatt : e.attemptId = a.id)
    (hepisode : ∀ episode ∈ db.findLatestInterruption a.id, e.interruptionId = episode.id)
    (hc : Compensates db e c) :
    reconstructInProgressOutcome db a = .ok
      { attempt := a, lifecycle := .alreadyInProgress, compensation := c } := by
  have hne : e.eventType ≠ .terminalized := by rw [htype]; decide
  simp only [reconstructInProgressOutcome, hlatest, require_true hne, require_true hepisode,
    require_true hatt, ok_bind, recordedCompensation_eq hc hatt]
  rfl

/-- What a restore of a disrupted attempt leaves behind: an attempt in progress,
and a last event that carries the compensation. -/
structure RestoredAt (db db₁ : Db) (attemptId : String) (now : Int) (c : RestoreCompensation)
    (e : AttemptInterruptionEvent) : Prop where
  row : ∃ a, db₁.findAttempt attemptId = some a ∧ a.status = .inProgress
  log : db₁.interruptionEvents = db.interruptionEvents ++ [e]
  attempt : e.attemptId = attemptId
  restored : e.eventType = .restored
  at_now : e.occurredAt = now
  episode : ∀ episode ∈ db₁.findLatestInterruption attemptId, e.interruptionId = episode.id
  compensates : Compensates db₁ e c

section
variable [Host] {T now : Int} {db db' : Db}

theorem HistorySound.commits (h : HistorySound now db) (hc : Commits now db db') :
    HistorySound now db' :=
  hc.keeps (fun _ _ h hl => h.logged (Int.le_refl now) hl) (fun _ _ _ h happ => h.appends happ) h

theorem restore_restored {db₁ : Db} {cap : LockedEnrollmentAttemptIdentity} {fresh : FreshAdjustment}
    {r : RestoreInterruptionResult} (hsound : HistorySound now db)
    (h : restoreInterruptedAttempt db cap now fresh = .ok (r, db₁)) (hr : r.lifecycle = .restored) :
    ∃ e, RestoredAt db db₁ cap.attemptId now r.compensation e := by
  have hsound₁ : HistorySound now db₁ := hsound.commits (restore_ok h)
  simp only [restoreInterruptedAttempt, bind_eq_ok, orThrow_eq_ok] at h
  obtain ⟨a, ha, exam, hexam, h⟩ := h
  have hid : a.id = cap.attemptId := Db.findAttempt_id ha
  obtain ⟨-, rfl⟩ := Db.findExam_eq_some.mp hexam
  have hterminal : ∀ {b : ExamAttempt} {s s' : Db}, (do pure (← reconstructTerminalOutcome s b, s) :
      Result (RestoreInterruptionResult × Db)) = .ok (r, s') → False := by
    intro b s s' hx
    simp only [bind_eq_ok, pure_eq_ok, Prod.mk.injEq] at hx
    obtain ⟨_, hx, rfl, -⟩ := hx
    rw [(reconstructTerminal_ok hx).2] at hr
    cases hr
  split at h
  · simp only [bind_eq_ok, pure_eq_ok, Prod.mk.injEq] at h
    obtain ⟨_, hx, rfl, -⟩ := h
    rw [reconstructInProgress_lifecycle hx] at hr
    cases hr
  · exact (hterminal h).elim
  · exact (hterminal h).elim
  · exact (hterminal h).elim
  · rename_i hs
    simp only [bind_eq_ok, orThrow_eq_ok] at h
    obtain ⟨i, hp, t, hi, snapshot, hsnap, detected, hdet, ⟨d, db₂⟩, hcomp, ⟨reconciled, db₃⟩,
      hrec, h⟩ := h
    obtain ⟨hopen, ht⟩ := openInterruption_ok hp hi hdet
    rw [ht] at hcomp
    rw [← hid] at ha
    obtain ⟨hcommits, hdec⟩ := compensate_ok ha hs hsnap hopen hcomp
    have hlog : db₂.interruptionEvents = db.interruptionEvents ∧ db₂.interruptions = db.interruptions ∧
        ∃ a₂, db₂.findAttempt a.id = some a₂ ∧ a₂.currentInterruptionId = some i := by
      rcases hcommits with rfl | ⟨row, -, hadj, rfl⟩
      · exact ⟨rfl, rfl, a, ha, hp⟩
      · exact ⟨rfl, rfl, a.extend row.afterDeadline, findAttempt_adjust ha, hp⟩
    obtain ⟨hevents, hepisodes, a₂, ha₂, hp₂⟩ := hlog
    split at h
    · exact (hterminal h).elim
    · rename_i hlive
      obtain ⟨-, -, hsettled⟩ := reconcile_changes hrec (by
        intro b hb
        obtain rfl : a₂ = b := Option.some.inj (ha₂.symm.trans (hid ▸ hb))
        exact (Db.findAttempt_id ha₂ ▸ hdec).grounded hp₂ _ _ _)
      rcases hsettled with ⟨-, hsame⟩ | hterm
      · subst hsame
        simp only [restoreAttemptState, hs, bind_eq_ok, orThrow_eq_ok, pure_eq_ok, Prod.mk.injEq] at h
        obtain ⟨⟨_, db₃⟩, ⟨-, rfl⟩, db₄, hins, b, hb, rfl, rfl⟩ := h
        obtain ⟨-, -, -, -, rfl⟩ := Db.insertInterruptionEvent_eq_ok.mp hins
        have hrow := Db.findAttempt_updateAttempt_self (f := (·.restore now)) _ a.id (fun _ => rfl) ha₂
        refine ⟨restoredEvent a.id i now snapshot.policy d, ⟨?_, ?_, hid, rfl, rfl, ?_, rfl, rfl,
            rfl, ?_, ?_⟩⟩
        · refine ⟨a₂.restore now, ?_, rfl⟩
          rw [← hid]
          exact hrow
        · rw [← hevents]
          rfl
        · intro episode hep
          have hlatest : episode ∈ db.findLatestInterruption a.id := by
            rw [Db.findLatestInterruption, ← hepisodes]
            exact hid ▸ hep
          exact (hsound.points a.id a i ha hp episode hlatest).symm
        · intro hnone
          exact ⟨rfl, hdec.ungranted hnone⟩
        · intro adjustmentId hadj
          obtain ⟨row, hrow, hadd, helig⟩ := hdec.granted adjustmentId hadj
          exact ⟨row, (hrow.mono (List.prefix_refl _)).found hsound₁.ids,
            hrow.mono (List.prefix_refl _), helig.symm, hadd.symm⟩
      · exact absurd hterm hlive
  · cases h

end

/-! ## Saves and grants since the restore -/

def Command.IsSaveOrGrant : Command → Prop
  | .save .. => True
  | .grant .. => True
  | _ => False

/-- The attempt is in progress with the episodes it had in `db₁`. -/
structure Live (db₁ : Db) (attemptId : String) (db : Db) : Prop where
  row : ∃ a, db.findAttempt attemptId = some a ∧ a.status = .inProgress
  outcomes : db.outcomesFor attemptId = db₁.outcomesFor attemptId
  interruptions : db.interruptions = db₁.interruptions

/-- The attempt was submitted, and its deadline has come by `T`. -/
def Ended (T : Int) (attemptId : String) (db : Db) : Prop :=
  ∃ a d, db.findAttempt attemptId = some a ∧ (a.status = .submitted ∨ a.status = .graded) ∧
    computeEffectiveDeadline db.exam.closeAt a.deadlineAt = .ok (some d) ∧ d ≤ T

def Since (db₁ : Db) (T : Int) (attemptId : String) (db : Db) : Prop := Live db₁ attemptId db ∨
    Ended T attemptId db

theorem FreezeEvents.attemptId {db : Db} {a : ExamAttempt} {events : List AttemptInterruptionEvent}
    (h : FreezeEvents db a events) : ∀ e ∈ events, e.attemptId = a.id := by
  intro e he
  cases h with
  | inProgress _ => cases he
  | disrupted _ _ hout =>
    obtain rfl := List.mem_singleton.mp he
    exact hout.attempt

theorem Since.save {db₁ db : Db} {T : Int} {attemptId : String} (h : Since db₁ T attemptId db)
    (c : SaveCommand) (a : ExamAttempt) (record : AnswerRecord) (receipt : AnswerReceipt) :
    Since db₁ T attemptId (c.write db a record receipt) := by
  have hrow : ∀ b, db.findAttempt attemptId = some b →
      ∃ b', (c.write db a record receipt).findAttempt attemptId = some b' ∧
      b'.status = b.status ∧ b'.deadlineAt = b.deadlineAt := by
    intro b hb
    have hwrite : (c.write db a record receipt).findAttempt attemptId = _ :=
      Db.findAttempt_updateAttempt (f := (·.recordSave _ _)) db c.context.attemptId
        (fun _ => rfl) attemptId
    by_cases hid : attemptId = c.context.attemptId
    · rw [if_pos hid, ← hid, hb] at hwrite
      exact ⟨_, hwrite, rfl, rfl⟩
    · rw [if_neg hid] at hwrite
      exact ⟨b, hwrite.trans hb, rfl, rfl⟩
  rcases h with h | ⟨b, d, hb, hst, hdead, hle⟩
  · obtain ⟨b, hb, hst⟩ := h.row
    obtain ⟨b', hb', hst', -⟩ := hrow b hb
    exact .inl ⟨⟨b', hb', hst'.trans hst⟩, h.outcomes, h.interruptions⟩
  · obtain ⟨b', hb', hst', hd'⟩ := hrow b hb
    refine .inr ⟨b', d, hb', ?_, ?_, hle⟩
    · rw [hst']
      exact hst
    · rw [hd']
      exact hdead

theorem Since.adjust {db₁ db : Db} {T now : Int} {attemptId : String} {a : ExamAttempt}
    {row : AttemptTimeAdjustment} (h : Since db₁ T attemptId db) (hadj : Adjusts db a row now) :
    Since db₁ T attemptId (db.adjust a row) := by
  have hrow : (db.adjust a row).findAttempt attemptId = _ :=
    Db.findAttempt_updateAttempt (f := (·.extend row.afterDeadline)) db a.id (fun _ => rfl) attemptId
  by_cases hid : attemptId = a.id
  · subst hid
    rw [if_pos rfl, hadj.found] at hrow
    rcases h with h | ⟨b, d, hb, hst, -⟩
    · obtain ⟨b, hb, hst⟩ := h.row
      obtain rfl := Option.some.inj (hadj.found.symm.trans hb)
      exact .inl ⟨⟨_, hrow, hst⟩, h.outcomes, h.interruptions⟩
    · obtain rfl := Option.some.inj (hadj.found.symm.trans hb)
      rcases hadj.active with hact | hact <;> rw [hact] at hst <;> simp at hst
  · rw [if_neg hid] at hrow
    rcases h with h | ⟨b, d, hb, hst, hdead, hle⟩
    · obtain ⟨b, hb, hst⟩ := h.row
      exact .inl ⟨⟨b, hrow.trans hb, hst⟩, h.outcomes, h.interruptions⟩
    · exact .inr ⟨b, d, hrow.trans hb, hst, hdead, hle⟩

section
variable [Host] {db db' db₁ : Db} {T now : Int} {attemptId : String}

/-- What a reconciliation does to the rows and the log. -/
theorem reconcile_rows {cap : LockedEnrollmentAttemptIdentity}
    {resolution : SubmitInterruptionResolution} {r : ExamAttempt}
    (h : ensureAttemptDeadlineReconciled db cap now resolution = .ok (r, db')) :
    db' = db ∨ ∃ a d events, db.findAttempt a.id = some a ∧ ExpiredAt db a d now ∧
      FreezeEvents db a events ∧
      (r.status = .submitted ∨ r.status = .graded) ∧ r.deadlineAt = a.deadlineAt ∧ db'.exam = db.exam ∧
      db'.interruptions = db.interruptions ∧ db'.interruptionEvents = db.interruptionEvents ++ events ∧
      ∀ k, db'.findAttempt k = if k = a.id then some r else db.findAttempt k := by
  obtain ⟨a, ha, ⟨-, rfl⟩ | ⟨d, events, hexp, hf, -, hcase⟩⟩ := reconcile_ok h
  · exact .inl rfl
  refine .inr ⟨a, d, events, hf.found, hexp, hf.events, ?_⟩
  have hfrozen : ∀ k, (db.freeze a d (some .deadline) events).findAttempt k =
      if k = a.id then some (a.submittedRow d (some .deadline)) else db.findAttempt k := by
    intro k
    refine (Db.findAttempt_updateAttempt (f := (·.submittedRow d (some .deadline))) db a.id
        (fun _ => rfl) k).trans ?_
    rw [hf.found]
    rfl
  rcases hcase with ⟨-, rfl, rfl⟩ | ⟨-, aggregated, hc, rfl, rfl⟩
  · exact ⟨.inl rfl, rfl, rfl, rfl, rfl, hfrozen⟩
  · refine ⟨.inr rfl, rfl, rfl, rfl, rfl, fun k => ?_⟩
    refine (Db.findAttempt_updateAttempt (f := (·.gradedRow aggregated now))
        (db.freeze a d (some .deadline) events)
      a.id (fun _ => rfl) k).trans ?_
    rw [hfrozen k, hfrozen a.id, if_pos rfl]
    by_cases hid : k = a.id
    · rw [if_pos hid, if_pos hid]
      rfl
    · rw [if_neg hid, if_neg hid, if_neg hid]

theorem Since.reconcile {cap : LockedEnrollmentAttemptIdentity}
    {resolution : SubmitInterruptionResolution} {r : ExamAttempt} (h : Since db₁ T attemptId db)
    (hT : now ≤ T) (hrec : ensureAttemptDeadlineReconciled db cap now resolution = .ok (r, db')) :
    Since db₁ T attemptId db' := by
  obtain rfl | ⟨a, d, events, ha, hexp, hevents, hst, hdead, hexam, hints, hlog, hrows⟩ :=
    reconcile_rows hrec
  · exact h
  by_cases hid : attemptId = a.id
  · subst hid
    refine .inr ⟨r, d, by rw [hrows, if_pos rfl], hst, ?_, hexp.due.trans hT⟩
    rw [hexam, hdead]
    exact hexp.deadline
  · have hrow : db'.findAttempt attemptId = db.findAttempt attemptId := by rw [hrows, if_neg hid]
    rcases h with h | ⟨b, d', hb, hst', hdead', hle⟩
    · obtain ⟨b, hb, hst'⟩ := h.row
      have houtcomes : db'.outcomesFor attemptId = db.outcomesFor attemptId :=
        outcomesFor_append hlog fun e he => (hevents.attemptId e he).trans_ne (Ne.symm hid)
      exact .inl ⟨⟨b, hrow.trans hb, hst'⟩, houtcomes.trans h.outcomes, hints.trans h.interruptions⟩
    · exact .inr ⟨b, d', hrow.trans hb, hst', hexam ▸ hdead', hle⟩

theorem Since.step {c : Command} (hc : c.IsSaveOrGrant) (hT : c.now ≤ T) (u : Unit)
    (h : Since db₁ T attemptId db) (hstep : c.step db = .ok (u, db')) :
    Since db₁ T attemptId db' := by
  cases c with
  | save candidateId request now validate =>
    simp only [Command.step, bind_eq_ok, pure_eq_ok, Prod.mk.injEq] at hstep
    obtain ⟨⟨r, db₂⟩, hx, -, rfl⟩ := hstep
    obtain ⟨cap, locked, reconciled, db₃, hrec, hcase⟩ := save_cases hx
    have h₃ := h.reconcile hT hrec
    rcases hcase with rfl | ⟨c, a, question, record, receipt, hw, rfl⟩
    · exact h₃
    · exact h₃.save c a record receipt
  | grant input validator freshId =>
    simp only [Command.step, bind_eq_ok, pure_eq_ok, Prod.mk.injEq] at hstep
    obtain ⟨cap, -, ⟨r, db₂⟩, hx, -, rfl⟩ := hstep
    rcases grant_cases hx with ⟨-, rfl | ⟨resolution, reconciled, -, hrec⟩⟩ | ⟨-, a, row, happ, rfl⟩
    · exact h
    · exact h.reconcile hT hrec
    · exact h.adjust happ.adjusts
  | _ => exact hc.elim

theorem Since.run {cs : List Command} (hcs : ∀ c ∈ cs, c.IsSaveOrGrant ∧ c.now ≤ T)
    (h : Since db₁ T attemptId db) :
    Since db₁ T attemptId (run Command.step db cs) :=
  run_along Command.step (G := fun c _ => c.IsSaveOrGrant ∧ c.now ≤ T)
    (fun _ _ u _ h hc hstep => h.step hc.1 hc.2 u hstep) cs db h
      (along_of_forall Command.step cs db fun c hc _ => hcs c hc)

end

/-! ## Terminal attempts -/

def ExamAttempt.Terminal (a : ExamAttempt) : Prop := a.status = .submitted ∨ a.status = .graded ∨
    a.status = .voided

theorem Terminal.inactive {a : ExamAttempt} (h : a.Terminal) :
    ¬ (a.status = .inProgress ∨ a.status = .disrupted) := by
  rcases h with h | h | h <;> simp [h]

/-- The attempt is terminal, with the outcomes and the policy it was left with. -/
structure Settled (attemptId : String) (outcomes : List AttemptInterruptionEvent)
    (snapshot : Option AttemptTimingPolicySnapshot) (db : Db) (a : ExamAttempt) : Prop where
  row : db.findAttempt attemptId = some a
  terminal : a.Terminal
  snapshot : a.interruptionTimingPolicySnapshot = snapshot
  outcomes : db.outcomesFor attemptId = outcomes

theorem recordedCompensation_remains {db db' : Db} {a a' : ExamAttempt}
    {e : AttemptInterruptionEvent} {failure : String} {c : RestoreCompensation}
    (hr : Remains db db') (hid : a'.id = a.id) (h : recordedCompensation db a e failure = .ok c) :
    recordedCompensation db' a' e failure = .ok c := by
  unfold recordedCompensation at h ⊢
  cases hadj : e.timeAdjustmentId with
  | none =>
    rw [hadj] at h
    exact h
  | some id =>
    rw [hadj] at h
    simp only [bind_eq_ok, orThrow_eq_ok] at h
    obtain ⟨row, hfind, h⟩ := h
    simp only [hr.findAdjustment hfind, orThrow_some, ok_bind, hid]
    exact bind_eq_ok _ _ _ |>.mpr h

theorem reconstructTerminal_remains {db db' : Db} {a a' : ExamAttempt} {r : RestoreInterruptionResult}
    (hr : Remains db db') (hid : a'.id = a.id)
    (hsnap : a'.interruptionTimingPolicySnapshot = a.interruptionTimingPolicySnapshot)
    (hout : db'.outcomesFor a.id = db.outcomesFor a.id) (h : reconstructTerminalOutcome db a = .ok r) :
    reconstructTerminalOutcome db' a' =
      .ok { attempt := a', lifecycle := .terminal, compensation := r.compensation } := by
  have hlatest : db'.findLatestOutcome a'.id = db.findLatestOutcome a.id := by
    rw [findLatestOutcome_eq, findLatestOutcome_eq, hid, hout]
  unfold reconstructTerminalOutcome at h ⊢
  rw [hlatest]
  split at h
  · simp only [bind_eq_ok, pure_eq_ok] at h
    obtain ⟨c, hc, rfl⟩ := h
    simp only [recordedCompensation_remains hr hid hc, ok_bind]
    rfl
  · rw [pure_eq_ok] at h
    rw [← h, pure_eq_ok]
    simp only [plainCompensation, hsnap]

theorem HistorySound.reconstructTerminal {db : Db} {T : Int} (h : HistorySound T db) (a : ExamAttempt) :
    ∃ r, reconstructTerminalOutcome db a = .ok r := by
  unfold reconstructTerminalOutcome
  split
  · rename_i e he
    obtain ⟨hlatest, -⟩ := Option.filter_eq_some_iff.mp he
    rw [findLatestOutcome_eq] at hlatest
    rcases mem_foldl_laterOutcome hlatest with hmem | hnone
    · obtain ⟨hlog, hatt, -⟩ := outcomesFor_mem.mp hmem
      obtain ⟨c, hc⟩ := (h.events e hlog).compensates h.ids
      simp only [recordedCompensation_eq hc hatt, ok_bind]
      exact ⟨_, rfl⟩
    · cases hnone
  · exact ⟨_, rfl⟩

section
variable [Host] {db db' : Db} {now : Int}

theorem Settled.change {attemptId : String} {outcomes : List AttemptInterruptionEvent}
    {snapshot : Option AttemptTimingPolicySnapshot} {a : ExamAttempt}
    (h : Settled attemptId outcomes snapshot db a) (hc : Change now db db') :
    ∃ a', Settled attemptId outcomes snapshot db' a' := by
  have hrow : ∃ a', db'.findAttempt attemptId = some a' ∧ a'.Terminal ∧
      a'.interruptionTimingPolicySnapshot = snapshot := by
    obtain ⟨a', ha', hstep⟩ := hc.row h.row
    refine ⟨a', ha', ?_⟩
    have hinactive := Terminal.inactive h.terminal
    cases hstep with
    | same => exact ⟨h.terminal, h.snapshot⟩
    | save _ _ hs hg hv => exact absurd h.terminal (by simp [ExamAttempt.Terminal, hs, hg, hv])
    | touch hs => exact absurd (.inl hs) hinactive
    | detect _ hs => exact absurd (.inl hs) hinactive
    | restore hs => exact absurd (.inr hs) hinactive
    | extend hadj _ => exact absurd hadj.active hinactive
    | freeze _ _ hf _ => exact absurd hf.events.active hinactive
    | close _ _ => exact ⟨.inr (.inl rfl), h.snapshot⟩
  have hother : ∀ b, db.findAttempt b.id = some b →
      (b.status = .inProgress ∨ b.status = .disrupted) → b.id ≠ attemptId := by
    rintro b hb hact rfl
    obtain rfl := Option.some.inj (h.row.symm.trans hb)
    exact Terminal.inactive h.terminal hact
  have hout : db'.outcomesFor attemptId = db.outcomesFor attemptId := by
    rcases hc with hq | hadj | hid
    case adjust => rfl
    case examWrite => rfl
    cases hq with
    | detect ha hs _ _ =>
      refine outcomesFor_append rfl fun e he => ?_
      obtain rfl := List.mem_singleton.mp he
      exact hother _ ha (.inl hs)
    | restore ha hs _ hout =>
      refine outcomesFor_append rfl fun e he => ?_
      obtain rfl := List.mem_singleton.mp he
      rw [hout.attempt]
      exact hother _ ha (.inr hs)
    | freeze hf =>
      refine outcomesFor_append rfl fun e he => ?_
      rw [hf.events.attemptId e he]
      exact hother _ hf.found hf.events.active
    | _ => rfl
  obtain ⟨a', ha', hterm, hsnap⟩ := hrow
  exact ⟨a', ha', hterm, hsnap, hout.trans h.outcomes⟩

theorem Settled.run {attemptId : String} {outcomes : List AttemptInterruptionEvent}
    {snapshot : Option AttemptTimingPolicySnapshot} {a : ExamAttempt}
    (h : Settled attemptId outcomes snapshot db a) (cs : List Command) :
    ∃ a', Settled attemptId outcomes snapshot (run Command.step db cs) a' :=
  closure_invariant (P := fun db => ∃ a, Settled attemptId outcomes snapshot db a)
    (fun _ _ ⟨_, h⟩ hc => hc.elim fun _ hc => h.change hc) (run_changes cs db) ⟨a, h⟩

theorem Commits.remains (h : Commits now db db') : Remains db db' :=
  closure_relation (P := fun _ => True) Remains.refl Remains.trans (fun _ _ _ _ => trivial)
    (fun _ _ _ hc => hc.elim fun _ h => h.remains) h.transacts.changes trivial

/-- A restore of a terminal attempt reads its outcome back. -/
theorem restore_terminal {cap : LockedEnrollmentAttemptIdentity} {a : ExamAttempt}
    {r : RestoreInterruptionResult} (ha : db.findAttempt cap.attemptId = some a) (ht : a.Terminal)
    (hexam : (db.findExam a.examId).isSome) (hr : reconstructTerminalOutcome db a = .ok r)
    (now : Int) (fresh : FreshAdjustment) :
    restoreInterruptedAttempt db cap now fresh = .ok (r, db) := by
  obtain ⟨exam, hfind⟩ := Option.isSome_iff_exists.mp hexam
  simp only [restoreInterruptedAttempt, ha, orThrow_some, ok_bind, hfind]
  rcases ht with hs | hs | hs <;> simp only [hs, hr, ok_bind] <;> rfl

theorem restore_ends {db₁ : Db} {cap : LockedEnrollmentAttemptIdentity} {fresh : FreshAdjustment}
    {r : RestoreInterruptionResult} (h : restoreInterruptedAttempt db cap now fresh = .ok (r, db₁))
    (hr : r.lifecycle = .terminal) :
    ∃ a, db₁.findAttempt cap.attemptId = some a ∧ a.Terminal ∧ (db₁.findExam a.examId).isSome ∧
      reconstructTerminalOutcome db₁ a = .ok r := by
  have hremains : Remains db db₁ := (restore_ok h).remains
  simp only [restoreInterruptedAttempt, bind_eq_ok, orThrow_eq_ok] at h
  obtain ⟨a, ha, exam, hexam, h⟩ := h
  have hid : a.id = cap.attemptId := Db.findAttempt_id ha
  obtain ⟨-, rfl⟩ := Db.findExam_eq_some.mp hexam
  have hread : a.Terminal → (do pure (← reconstructTerminalOutcome db a, db) :
      Result (RestoreInterruptionResult × Db)) = .ok (r, db₁) →
      ∃ a, db₁.findAttempt cap.attemptId = some a ∧ a.Terminal ∧ (db₁.findExam a.examId).isSome ∧
        reconstructTerminalOutcome db₁ a = .ok r := by
    intro ht hx
    simp only [bind_eq_ok, pure_eq_ok, Prod.mk.injEq] at hx
    obtain ⟨_, hx, rfl, rfl⟩ := hx
    exact ⟨a, ha, ht, Option.isSome_of_eq_some hexam, hx⟩
  split at h
  · simp only [bind_eq_ok, pure_eq_ok, Prod.mk.injEq] at h
    obtain ⟨_, hx, rfl, -⟩ := h
    rw [reconstructInProgress_lifecycle hx] at hr
    cases hr
  · rename_i hs
    exact hread (.inl hs) h
  · rename_i hs
    exact hread (.inr (.inl hs)) h
  · rename_i hs
    exact hread (.inr (.inr hs)) h
  · rename_i hs
    simp only [bind_eq_ok, orThrow_eq_ok] at h
    obtain ⟨i, hp, t, hi, snapshot, hsnap, detected, hdet, ⟨d, db₂⟩, hcomp, ⟨reconciled, db₃⟩,
      hrec, h⟩ := h
    split at h
    · rename_i hterm
      simp only [bind_eq_ok, pure_eq_ok, Prod.mk.injEq] at h
      obtain ⟨_, hx, rfl, rfl⟩ := h
      have hfound := reconcile_found hrec
      obtain ⟨b, hb, hsame⟩ := hremains.attempts _ a ha
      obtain rfl := Option.some.inj (hfound.symm.trans hb)
      refine ⟨reconciled, hfound, hterm.imp id .inl, ?_, hx⟩
      rw [hsame.exam, hremains.findExam (Option.isSome_of_eq_some hexam)]
      rfl
    · simp only [restoreAttemptState, hs, bind_eq_ok, orThrow_eq_ok, pure_eq_ok, Prod.mk.injEq] at h
      obtain ⟨⟨_, _⟩, ⟨rfl, -⟩, _, -, _, -, rfl, -⟩ := h
      cases hr
  · cases h

end

/-! ## Idempotency -/

def Clocked (instants : List Int) : Prop := instants.Pairwise (· ≤ ·)

instance (instants : List Int) : Decidable (Clocked instants) :=
  inferInstanceAs (Decidable (List.Pairwise _ _))

theorem Clocked.split {before after : List Int} {now : Int} (h : Clocked (before ++ now :: after)) :
    (∀ t ∈ before, t ≤ now) ∧ Clocked after := by
  obtain ⟨-, hafter, hcross⟩ := List.pairwise_append.mp h
  exact ⟨fun t ht => hcross t ht now (by simp), (List.pairwise_cons.mp hafter).2⟩

theorem exists_horizon (cs : List Command) : ∃ T, ∀ c ∈ cs, c.now ≤ T := by
  induction cs with
  | nil => exact ⟨0, by simp⟩
  | cons c cs ih =>
    obtain ⟨T, hT⟩ := ih
    refine ⟨max c.now T, ?_⟩
    intro x hx
    rcases List.mem_cons.mp hx with rfl | hx
    · exact le_max_left _ _
    · exact (hT x hx).trans (le_max_right _ _)

theorem outcomesFor_restored {db db₁ : Db} {now : Int} {attemptId : String}
    {c : RestoreCompensation} {e : AttemptInterruptionEvent}
    (h : RestoredAt db db₁ attemptId now c e) :
    db₁.outcomesFor attemptId = db.outcomesFor attemptId ++ [e] := by
  rw [Db.outcomesFor, h.log, List.filter_append, List.filter_singleton, Db.outcomesFor]
  simp [h.attempt, Db.isOutcome, h.restored]

section
variable [Host] {db db₁ : Db} {now : Int}

/-- A second restore of an attempt that is live since the first reads its
compensation back. -/
theorem RestoredAt.again {cap cap' : LockedEnrollmentAttemptIdentity} {c : RestoreCompensation}
    {e : AttemptInterruptionEvent} (h : RestoredAt db db₁ cap.attemptId now c e)
    (hsound : HistorySound now db) (hsound₁ : HistorySound now db₁) {cs : List Command}
    (hlive : Live db₁ cap.attemptId (run Command.step db₁ cs))
    (hcap : cap'.attemptId = cap.attemptId) (now' : Int) (fresh : FreshAdjustment) :
    ∃ a, (run Command.step db₁ cs).findAttempt cap.attemptId = some a ∧
      restoreInterruptedAttempt (run Command.step db₁ cs) cap' now' fresh =
        .ok ({ attempt := a, lifecycle := .alreadyInProgress, compensation := c },
          run Command.step db₁ cs) := by
  have hremains := run_remains cs db₁
  obtain ⟨a, ha, hs⟩ := hlive.row
  have hid : a.id = cap.attemptId := Db.findAttempt_id ha
  have hexam : (run Command.step db₁ cs).findExam a.examId = some (run Command.step db₁ cs).exam := by
    obtain ⟨b, hb, -⟩ := h.row
    obtain ⟨b', hb', hsame⟩ := hremains.attempts _ b hb
    obtain rfl := Option.some.inj (ha.symm.trans hb')
    refine Db.findExam_eq_some.mpr ⟨?_, rfl⟩
    rw [hremains.exam, hsame.exam, hsound₁.exam _ b hb]
  have hlatest : (run Command.step db₁ cs).findLatestOutcome a.id = some e := by
    rw [findLatestOutcome_eq, hid, hlive.outcomes, outcomesFor_restored h]
    refine foldl_laterOutcome_concat fun x hx => ?_
    rw [h.at_now]
    exact (hsound.events x (outcomesFor_mem.mp hx).1).past
  have hepisode : ∀ episode ∈ (run Command.step db₁ cs).findLatestInterruption a.id,
      e.interruptionId = episode.id := by
    intro episode hep
    refine h.episode episode ?_
    rw [Db.findLatestInterruption, ← hlive.interruptions]
    exact hid ▸ hep
  refine ⟨a, ha, ?_⟩
  simp only [restoreInterruptedAttempt, hcap, ha, orThrow_some, ok_bind, hexam, hs,
    reconstructInProgress_eq hlatest h.restored (h.attempt.trans hid.symm) hepisode
      (h.compensates.remains hremains)]
  rfl

/-- In every run: a restore repeated before the deadline, after saves and grants
only, returns the compensation of the first and writes nothing; a restore of a
terminal attempt writes nothing, and once one ended terminal every later one
returns its compensation, whatever ran in between. -/
theorem restore_idempotent (db₀ : Db) (h₀ : Initial db₀) (cs : List Command)
    (cap : LockedEnrollmentAttemptIdentity) (now : Int) (fresh : FreshAdjustment) :
    (∀ r db₁, restoreInterruptedAttempt (run Command.step db₀ cs) cap now fresh = .ok (r, db₁) →
      r.lifecycle = .restored → ∀ (cs' : List Command) cap' now' fresh',
      cap'.attemptId = cap.attemptId →
      (∀ c ∈ cs', c.IsSaveOrGrant) → Clocked (cs.map (·.now) ++ now :: (cs'.map (·.now) ++ [now'])) →
      (∀ a d, (run Command.step db₁ cs').findAttempt cap.attemptId = some a →
        computeEffectiveDeadline (run Command.step db₁ cs').exam.closeAt a.deadlineAt = .ok
          (some d) → now' < d) →
      ∃ a, (run Command.step db₁ cs').findAttempt cap.attemptId = some a ∧
        restoreInterruptedAttempt (run Command.step db₁ cs') cap' now' fresh' =
          .ok ({ attempt := a, lifecycle := .alreadyInProgress, compensation := r.compensation },
            run Command.step db₁ cs')) ∧
    (∀ a, (run Command.step db₀ cs).findAttempt cap.attemptId = some a → a.Terminal →
      ∃ r, restoreInterruptedAttempt (run Command.step db₀ cs) cap now fresh = .ok (r,
        run Command.step db₀ cs) ∧ r.lifecycle = .terminal) ∧
    ∀ r db₁, restoreInterruptedAttempt (run Command.step db₀ cs) cap now fresh = .ok (r, db₁) →
      r.lifecycle = .terminal → ∀ (cs' : List Command) cap' now' fresh',
      cap'.attemptId = cap.attemptId →
      ∃ a, (run Command.step db₁ cs').findAttempt cap.attemptId = some a ∧
        restoreInterruptedAttempt (run Command.step db₁ cs') cap' now' fresh' =
          .ok ({ attempt := a, lifecycle := .terminal, compensation := r.compensation },
            run Command.step db₁ cs') := by
  refine ⟨?_, ?_, ?_⟩
  · intro r db₁ h hr cs' cap' now' fresh' hcap hkind hclock hbefore
    obtain ⟨hpast, hafter⟩ := hclock.split
    have hsound : HistorySound now (run Command.step db₀ cs) :=
      run_historySound h₀ cs fun c hc => hpast c.now (List.mem_map_of_mem hc)
    obtain ⟨e, hrestored⟩ := restore_restored hsound h hr
    have hlater : ∀ c ∈ cs', c.IsSaveOrGrant ∧ c.now ≤ now' := fun c hc =>
      ⟨hkind c hc, (List.pairwise_append.mp hafter).2.2 c.now (List.mem_map_of_mem hc) now' (by simp)⟩
    rcases Since.run hlater (.inl ⟨hrestored.row, rfl, rfl⟩) with hlive | ⟨a, d, ha, -, hd, hle⟩
    · exact hrestored.again hsound (hsound.commits (restore_ok h)) hlive hcap now' fresh'
    · exact absurd (hbefore a d ha hd) (not_lt.mpr hle)
  · intro a ha ht
    obtain ⟨T, hT⟩ := exists_horizon cs
    have hsound : HistorySound T (run Command.step db₀ cs) := run_historySound h₀ cs hT
    obtain ⟨r, hr⟩ := hsound.reconstructTerminal a
    have hexam : (run Command.step db₀ cs).findExam a.examId = some _ :=
      Db.findExam_eq_some.mpr ⟨(hsound.exam _ a ha).symm, rfl⟩
    exact ⟨r, restore_terminal ha ht (Option.isSome_of_eq_some hexam) hr now fresh,
      (reconstructTerminal_ok hr).2⟩
  · intro r db₁ h hr cs' cap' now' fresh' hcap
    obtain ⟨a, ha, ht, hexam, hread⟩ := restore_ends h hr
    have hremains := run_remains cs' db₁
    obtain ⟨a', hsettled⟩ := (Settled.mk ha ht rfl rfl).run cs'
    obtain ⟨b, hb, hsame⟩ := hremains.attempts _ a ha
    obtain rfl := Option.some.inj (hsettled.row.symm.trans hb)
    have hida : a.id = cap.attemptId := Db.findAttempt_id ha
    have hid : a'.id = a.id := (Db.findAttempt_id hsettled.row).trans hida.symm
    refine ⟨a', hsettled.row,
      restore_terminal (hcap ▸ hsettled.row) hsettled.terminal ?_ ?_ now' fresh'⟩
    · rw [hsame.exam, hremains.findExam hexam]
      rfl
    · exact reconstructTerminal_remains hremains hid hsettled.snapshot (hida ▸ hsettled.outcomes) hread

end

def sampleGraceInitial : Db :=
  { sampleInitial with
    exam :=
      { sampleExam with
        interruptionTimePolicy := some .boundedGrace, interruptionGracePerIncidentSeconds := some 30
        interruptionGracePerAttemptSeconds := some 60 } }

def sampleGraceDisruption : List Command := [sampleStart, .heartbeatScan "attempt" 20000 10 "i1"]

def sampleCap : LockedEnrollmentAttemptIdentity :=
  { enrollmentId := "enrollment", attemptId := "attempt" }

/-- Restored at 35 s with 15 s of grace, and again at 40 s. -/
theorem restore_idempotent_sample :
    ∃ r db₁ a, @restoreInterruptedAttempt sampleHost
        (run (@Command.step sampleHost) sampleGraceInitial sampleGraceDisruption)
        sampleCap 35000 { id := "adjustment", operationId := "operation" } = .ok (r, db₁) ∧
      r.compensation.addedSeconds = 15 ∧
      @restoreInterruptedAttempt sampleHost db₁ sampleCap 40000 { id := "", operationId := "" } =
        .ok ({ attempt := a, lifecycle := .alreadyInProgress, compensation := r.compensation },
          db₁) := by
  let _ : Host := sampleHost
  have hrun : succeeds (@restoreInterruptedAttempt sampleHost
      (run (@Command.step sampleHost) sampleGraceInitial sampleGraceDisruption) sampleCap 35000
      { id := "adjustment", operationId := "operation" })
      (fun p => p.1.lifecycle == .restored && p.1.compensation.addedSeconds == 15 &&
        (p.2.findAttempt "attempt").map (·.deadlineAt) == some (some 75000) && p.2.exam.closeAt ==
          some 600000) = true := by
    decide +kernel
  obtain ⟨⟨r, db₁⟩, h, hp⟩ := succeeds_iff.mp hrun
  simp only [Bool.and_eq_true, beq_iff_eq] at hp
  obtain ⟨⟨⟨hr, hadded⟩, hdead⟩, hclose⟩ := hp
  have hbefore : ∀ a d, db₁.findAttempt "attempt" = some a →
      computeEffectiveDeadline db₁.exam.closeAt a.deadlineAt = .ok (some d) → (40000 : Int) < d := by
    intro a d ha hd
    rw [ha, Option.map_some, Option.some.injEq] at hdead
    rw [hdead, hclose] at hd
    cases hd
    decide
  obtain ⟨a, -, hagain⟩ := (restore_idempotent sampleGraceInitial ⟨rfl, rfl, rfl, rfl, rfl, rfl,
        rfl, rfl, rfl, rfl, rfl⟩
    sampleGraceDisruption sampleCap 35000
      { id := "adjustment", operationId := "operation" }).1 r db₁ h hr
      [] sampleCap 40000
    { id := "", operationId := "" } rfl (by simp) (by decide) hbefore
  exact ⟨r, db₁, a, h, hadded, hagain⟩

end ExamSystem
