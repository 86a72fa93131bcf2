import ExamSystem.FinalResultSound
import ExamSystem.FreezeSound
import ExamSystem.Progress

/-!
# Terminal grading and the enrollment

When every entry of a submitted attempt is scored, the workset aggregates, and
grading can only be refused by the state machine of the enrollment. It is
refused exactly when the enrollment was completed earlier and grading now asks
for it to be open again.
-/

namespace ExamSystem

open Tx

/-! ## Entries are pending or terminal -/

structure EntrySound (e : AttemptGradingEntry) : Prop where
  auto : e.gradingMode = .auto → Terminal e
  manual : e.gradingMode = .manual → e.status = .pendingManual ∨ Terminal e

theorem EntrySound.terminal {e : AttemptGradingEntry} (h : EntrySound e)
    (hs : e.status ≠ .pendingManual) : Terminal e := by
  cases hm : e.gradingMode with
  | auto => exact h.auto hm
  | manual => exact (h.manual hm).resolve_left hs

theorem EntrySound.manual_of_pending {e : AttemptGradingEntry} (h : EntrySound e)
    (hs : e.status = .pendingManual) :
    e.gradingMode = .manual := by
  cases hm : e.gradingMode with
  | auto =>
    have hterm := (h.auto hm).status
    rw [hs, hm] at hterm
    cases hterm
  | manual => rfl

theorem EntrySound.complete {e : AttemptGradingEntry} {score : ℚ} {comment graderId : String}
    {now : Int} (hm : e.gradingMode = .manual) (hb : 0 ≤ score ∧ score ≤ e.maxScore) :
    EntrySound (e.complete score comment graderId now) := by
  have hterm : Terminal (e.complete score comment graderId now) :=
    ⟨by simp [AttemptGradingEntry.complete, hm, expectedTerminalStatus], score, rfl, hb⟩
  exact ⟨fun _ => hterm, fun _ => .inr hterm⟩

structure EntriesSound (db : Db) : Prop where
  keys : (db.gradingEntries.map Db.entryKey).Nodup
  sound : ∀ e ∈ db.gradingEntries, EntrySound e

theorem EntriesSound.stored {db : Db} {attemptId questionId : String} {e x : AttemptGradingEntry}
    (h : EntriesSound db) (he : db.findEntry attemptId questionId = some e)
    (hx : x ∈ db.gradingEntries) (hkey : Db.entryKey x = (attemptId, questionId)) : x = e := by
  have hrow := Rows.row_of_mem Db.entryKey h.keys hx
  rw [hkey] at hrow
  exact Option.some.inj (hrow.symm.trans he)

/-! ## Attempts of the enrollment -/

/-- The attempt is one of the store's enrollment in the store's exam, and its
lifecycle label is the one the freeze gave it. -/
structure Owned (db : Db) (a : ExamAttempt) : Prop where
  belongs : Belongs db a
  enrollment : a.enrollmentId = db.enrollment.id
  exam : db.exam.id = a.examId
  label : a.status = .submitted → a.gradingStatus = some (freezeStatus a.questionSnapshot)

structure EnrollmentSound (db : Db) : Prop where
  owned : ∀ attemptId a, db.findAttempt attemptId = some a → Owned db a
  begun : ∀ attemptId a, db.findAttempt attemptId = some a →
    db.enrollment.status = .started ∨ db.enrollment.status = .completed

section
variable (e : ExamEnrollment) (strategy : ScoreStrategy) (target : EnrollmentStatus)
    (attemptId : String) (score : ℚ) (passed : Bool)

@[simp] theorem project_id : (e.project strategy target attemptId score passed).id = e.id := by
  unfold ExamEnrollment.project
  split <;> rfl

@[simp] theorem project_examId :
    (e.project strategy target attemptId score passed).examId = e.examId := by
  unfold ExamEnrollment.project
  split <;> rfl

@[simp] theorem project_candidateId :
    (e.project strategy target attemptId score passed).candidateId = e.candidateId := by
  unfold ExamEnrollment.project
  split <;> rfl

@[simp] theorem project_status :
    (e.project strategy target attemptId score passed).status = target := by
  unfold ExamEnrollment.project
  split <;> rfl

end

theorem enrollmentTarget_cases (exam : Exam) (e : ExamEnrollment) (passed : Bool) (now : Int) :
    enrollmentTarget exam e passed now = .started ∨
    enrollmentTarget exam e passed now = .completed := by
  unfold enrollmentTarget
  split
  · exact .inr rfl
  · exact .inl rfl

/-! ## The wedge -/

def AllScored (db : Db) (a : ExamAttempt) : Prop := ∀ e ∈ db.entriesOf a.id, e.status ≠ .pendingManual

def passes [Host] (db : Db) (a : ExamAttempt) : Bool :=
  decide (db.exam.passingScore ≤ earnedTotal (db.entriesOf a.id))

/-- The enrollment is completed, and grading the attempt asks for it to be started. -/
def Wedged [Host] (db : Db) (a : ExamAttempt) (now : Int) : Prop :=
  db.enrollment.status = .completed ∧ shouldEnrollmentComplete db.exam db.enrollment
    (passes db a) now = false

def Finalizes [Host] (db : Db) (a : ExamAttempt) (now : Int) : Prop :=
  ∃ cap db', lockEnrollmentAndAttempt db a.id = .ok cap ∧
    finalizeTerminalGrading db cap db.exam now = .ok (true, db') ∧
    ∃ a', db'.findAttempt a.id = some a' ∧ a'.status = .graded

theorem allowed_iff (exam : Exam) {e : ExamEnrollment} (passed : Bool) (now : Int)
    (hs : e.status = .started ∨ e.status = .completed) :
    EnrollmentAllows e (enrollmentTarget exam e passed now) ↔
      ¬ (e.status = .completed ∧ shouldEnrollmentComplete exam e passed now = false) := by
  unfold EnrollmentAllows enrollmentTarget
  cases hc : shouldEnrollmentComplete exam e passed now <;> rcases hs with hs | hs <;>
    simp [hs, enrollmentTransitions]

structure LastPending (db : Db) (a : ExamAttempt) (entry : AttemptGradingEntry) : Prop where
  stored : db.findEntry a.id entry.questionId = some entry
  pending : entry.status = .pendingManual
  rest : ∀ e ∈ db.entriesOf a.id, e.questionId ≠ entry.questionId → e.status ≠ .pendingManual

def Db.scored (db : Db) (a : ExamAttempt) (entry : AttemptGradingEntry) (score : ℚ)
    (comment graderId : String) (now : Int) : Db :=
  db.updateEntry a.id entry.questionId (·.complete score comment graderId now)

section
variable {db : Db} {a : ExamAttempt} {entry : AttemptGradingEntry} {score : ℚ}
    {comment graderId : String} {now : Int}

theorem LastPending.allScored (h : LastPending db a entry) :
    AllScored (db.scored a entry score comment graderId now) a := by
  intro e he
  rw [Db.scored, entriesOf_updateEntry (f := (·.complete _ _ _ _)) db a.id a.id entry.questionId
      (fun _ => rfl)] at he
  obtain ⟨x, hx, rfl⟩ := List.mem_map.mp he
  split
  · simp [AttemptGradingEntry.complete]
  · rename_i hkey
    refine h.rest x hx fun hq => hkey ?_
    have hat : x.attemptId = a.id := by simpa using (List.mem_filter.mp hx).2
    simp [Db.entryKey, hat, hq]

theorem LastPending.countPendingManual (h : LastPending db a entry) :
    (db.scored a entry score comment graderId now).countPendingManual a.id = 0 := by
  refine List.length_eq_zero_iff.mpr (List.filter_eq_nil_iff.mpr fun e he => ?_)
  have hs := h.allScored e he
  simp [hs]

end

section
variable [Host]

theorem expectedEntry_sound (submitted : SubmittedAnswersSnapshot) (attemptId : String)
    {q : QuestionSnapshot} (hq : 0 ≤ q.score) :
    EntrySound ((expectedEntry submitted q).toRow attemptId) := by
  obtain ⟨hauto, hmanual⟩ := expectedEntry_fresh submitted attemptId hq
  cases hm : isManualGradedQuestion q with
  | false => exact ⟨fun _ => hauto hm, fun _ => .inr (hauto hm)⟩
  | true =>
    refine ⟨fun ha => ?_, fun _ => .inl (hmanual hm).2⟩
    rw [(hmanual hm).1] at ha
    cases ha

theorem workset_sound {a : ExamAttempt} (hchecks : ∀ e ∈ a.workset, Db.entryChecks e = .ok ()) :
    ∀ e ∈ a.workset, EntrySound e := by
  intro e he
  have hpos := (Db.entryChecks_eq_ok.mp (hchecks e he)).1
  obtain ⟨q, -, rfl⟩ := List.mem_map.mp he
  have hshape := expectedEntry_shape (buildSubmittedAnswersSnapshot a.answers a.questionSnapshot) a.id q
  have hscore : 0 ≤ q.score := by
    rw [← show _ = q.score from congrArg (·.2.2) hshape]
    exact hpos
  exact expectedEntry_sound _ a.id hscore

theorem entriesSound_change (now : Int) (db db' : Db) (h : EntriesSound db) (hc : Change now db db') :
    EntriesSound db' := by
  rcases hc with hq | _ | _
  case adjust => exact ⟨h.keys, h.sound⟩
  case examWrite => exact ⟨h.keys, h.sound⟩
  cases hq with
  | @freeze a submittedAt reason events hf =>
    constructor
    · simp only [Db.freeze, List.map_append, List.nodup_append]
      refine ⟨h.keys, (workset_keys_nodup a).mpr hf.distinct, ?_⟩
      intro k hk k' hk' heq
      obtain ⟨e, he, rfl⟩ := List.mem_map.mp hk
      obtain ⟨e', he', rfl⟩ := List.mem_map.mp hk'
      have hat : e.attemptId = a.id := (congrArg Prod.fst heq).trans (workset_attemptId he')
      have hmem : e ∈ db.entriesOf a.id := List.mem_filter.mpr ⟨he, by simp [hat]⟩
      rw [hf.unmaterialized] at hmem
      cases hmem
    · intro e he
      rcases List.mem_append.mp he with he | he
      · exact h.sound e he
      · exact workset_sound hf.checks e he
  | @score a entry score comment graderId hs =>
    constructor
    · have hkeys := Rows.keys_modify Db.entryKey (f := (·.complete score comment graderId now))
        (fun _ => rfl)
        db.gradingEntries (a.id, entry.questionId)
      simp only [Db.updateEntry, hkeys]
      exact h.keys
    · intro e he
      obtain ⟨x, hx, rfl⟩ := List.mem_map.mp he
      split
      · rename_i hkey
        obtain rfl := h.stored hs.stored hx hkey
        exact .complete hs.manual hs.bounds
      · exact h.sound x hx
  | _ => exact ⟨h.keys, h.sound⟩

theorem Reachable.entriesSound {db : Db} (h : Reachable db) : EntriesSound db :=
  h.invariant (fun db hi => ⟨by simp [hi.gradingEntries], by simp [hi.gradingEntries]⟩)
    entriesSound_change

/-! ## The enrollment's attempts over runs -/

theorem Change.identity {now : Int} {db db' : Db} (h : Change now db db') :
    db'.enrollment.id = db.enrollment.id ∧ db'.enrollment.examId = db.enrollment.examId ∧
      db'.enrollment.candidateId = db.enrollment.candidateId ∧ db'.exam.id = db.exam.id := by
  rcases h with hq | _ | hid
  case adjust => exact ⟨rfl, rfl, rfl, rfl⟩
  case examWrite => exact ⟨rfl, rfl, rfl, hid⟩
  cases hq with
  | close _ =>
    simp only [Db.close, project_id, project_examId, project_candidateId, true_and]
    rfl
  | _ => exact ⟨rfl, rfl, rfl, rfl⟩

theorem Change.begun {now : Int} {db db' : Db} (h : Change now db db')
    (hs : db.enrollment.status = .started ∨ db.enrollment.status = .completed) :
    db'.enrollment.status = .started ∨ db'.enrollment.status = .completed := by
  rcases h with hq | _ | _
  case adjust => exact hs
  case examWrite => exact hs
  cases hq with
  | close _ =>
    simp only [Db.close, project_status]
    exact enrollmentTarget_cases _ _ _ _
  | create _ => exact .inl rfl
  | _ => exact hs

theorem RowStep.owned {now : Int} {db db' : Db} {a a' : ExamAttempt} (h : RowStep now db db' a a') :
    a'.examId = a.examId ∧ a'.candidateId = a.candidateId ∧ a'.enrollmentId = a.enrollmentId ∧
      ((a.status = .submitted → a.gradingStatus = some (freezeStatus a.questionSnapshot)) →
        a'.status = .submitted → a'.gradingStatus = some (freezeStatus a'.questionSnapshot)) := by
  cases h with
  | same | extend _ _ => exact ⟨rfl, rfl, rfl, id⟩
  | save _ _ hs _ _ => exact ⟨rfl, rfl, rfl, fun _ h => absurd h hs⟩
  | touch hs =>
    refine ⟨rfl, rfl, rfl, fun _ h => ?_⟩
    rw [show a.status = .submitted from h] at hs
    cases hs
  | freeze _ _ _ _ => exact ⟨rfl, rfl, rfl, fun _ _ => rfl⟩
  | detect _ _ | restore _ | close _ _ =>
    refine ⟨rfl, rfl, rfl, fun _ h => ?_⟩
    cases h

theorem enrollmentSound_change (now : Int) (db db' : Db) (h : EnrollmentSound db)
    (hc : Change now db db') :
    EnrollmentSound db' := by
  obtain ⟨hid, hexamId, hcand, hexam⟩ := hc.identity
  constructor
  · intro attemptId a' ha'
    rcases hc.row_cases ha' with ⟨input, hcr, rfl⟩ | ⟨a, ha, hstep⟩
    · obtain ⟨_, _, hrow⟩ := hcr.row
      refine ⟨hcr.belongs, by rw [hrow]; rfl, hcr.exam, fun hs => ?_⟩
      rw [hcr.status] at hs
      cases hs
    · have ho := h.owned attemptId a ha
      obtain ⟨he, hca, hen, hlabel⟩ := hstep.owned
      refine ⟨⟨?_, ?_⟩, ?_, ?_, hlabel ho.label⟩
      · rw [hexamId, he, ho.belongs.1]
      · rw [hcand, hca, ho.belongs.2]
      · rw [hen, hid, ho.enrollment]
      · rw [hexam, he, ho.exam]
  · intro attemptId a' ha'
    rcases hc.row_cases ha' with ⟨input, -, rfl⟩ | ⟨a, ha, -⟩
    · exact .inl rfl
    · exact hc.begun (h.begun attemptId a ha)

theorem Reachable.enrollmentSound {db : Db} (h : Reachable db) : EnrollmentSound db := by
  refine h.invariant (fun db hi => ⟨?_, ?_⟩) enrollmentSound_change
  all_goals
    intro attemptId a ha
    rw [hi.findAttempt] at ha
    cases ha

/-! ## Terminal grading -/

section
variable {db : Db} {a : ExamAttempt} {now : Int}

theorem closes_iff (hreach : Reachable db) (ha : db.findAttempt a.id = some a)
    (hs : a.status = .submitted) (hscored : AllScored db a) :
    (∃ aggregated, Closes db a aggregated now) ↔ ¬ Wedged db a now := by
  obtain ⟨hshape, hn⟩ := hreach.worksetsSound a.id a ha (.inl hs)
  have howned := hreach.enrollmentSound.owned a.id a ha
  have hterm : ∀ e ∈ db.entriesOf a.id, Terminal e := fun e he =>
    (hreach.entriesSound.sound e (List.mem_filter.mp he).1).terminal (hscored e he)
  have hpassed : ∀ aggregated, aggregateGradingEntries a (db.entriesOf a.id) db.exam.passingScore =
      .ok aggregated →
      aggregated.passed = passes db a := fun _ h => (aggregate_totals hshape hn h).2.2
  have hallowed := allowed_iff db.exam (passes db a) now (hreach.enrollmentSound.begun a.id a ha)
  constructor
  · rintro ⟨aggregated, hc⟩
    have h := hc.allowed
    rw [hpassed aggregated hc.aggregate] at h
    exact hallowed.mp h
  · intro hw
    obtain ⟨aggregated, hagg⟩ := (aggregate_eq_ok hshape hn).mpr hterm
    refine ⟨aggregated, ha, hs, howned.belongs, hagg, ?_⟩
    rw [hpassed aggregated hagg]
    exact hallowed.mpr hw

theorem Reachable.locks (hreach : Reachable db) (ha : db.findAttempt a.id = some a) :
    Locks db { enrollmentId := db.enrollment.id, attemptId := a.id } a ∧
      lockEnrollmentAndAttempt db a.id = .ok
        { enrollmentId := db.enrollment.id, attemptId := a.id } := by
  have howned := hreach.enrollmentSound.owned a.id a ha
  have hlocks : Locks db { enrollmentId := db.enrollment.id, attemptId := a.id } a :=
    ⟨ha, rfl, rfl, howned.belongs⟩
  exact ⟨hlocks, lock_eq_ok.mpr ⟨a, rfl, hlocks, howned.enrollment⟩⟩

/-- Terminal grading that goes through closes the attempt. -/
theorem finalize_closes (hreach : Reachable db) (ha : db.findAttempt a.id = some a)
    (hs : a.status = .submitted) {cap : LockedEnrollmentAttemptIdentity} {b : Bool} {db' : Db}
    (hcap : lockEnrollmentAndAttempt db a.id = .ok cap)
    (hfin : finalizeTerminalGrading db cap db.exam now = .ok (b, db')) :
    ∃ aggregated, Closes db a aggregated now ∧ db' = db.close a aggregated now := by
  obtain ⟨-, hlock⟩ := hreach.locks ha
  obtain rfl := Except.ok.inj (hlock.symm.trans hcap)
  obtain ⟨x, hx, hcase⟩ := finalizeTerminalGrading_ok hfin
  obtain rfl : a = x := Option.some.inj (ha.symm.trans hx)
  rcases hcase with ⟨hg, -⟩ | ⟨-, hc⟩
  · rw [hs] at hg
    cases hg
  · exact hc

theorem finalizes_iff (hreach : Reachable db) (ha : db.findAttempt a.id = some a)
    (hs : a.status = .submitted) (hscored : AllScored db a) :
    Finalizes db a now ↔ ¬ Wedged db a now := by
  rw [← closes_iff hreach ha hs hscored]
  constructor
  · rintro ⟨cap, db', hcap, hfin, -⟩
    obtain ⟨aggregated, hc, -⟩ := finalize_closes hreach ha hs hcap hfin
    exact ⟨aggregated, hc⟩
  · rintro ⟨aggregated, hc⟩
    obtain ⟨hlocks, hlock⟩ := hreach.locks ha
    exact ⟨_, _, hlock, finalizeTerminalGrading_progress hc hlocks, _, findAttempt_close ha, rfl⟩

end

/-! ## The last manual score -/

section
variable {db : Db} {a : ExamAttempt} {entry : AttemptGradingEntry} {score : ℚ}
    {comment graderId : String} {now : Int}

theorem LastPending.scores (h : LastPending db a entry) (hreach : Reachable db)
    (ha : db.findAttempt a.id = some a) (hs : a.status = .submitted)
    (hb : 0 ≤ score ∧ score ≤ entry.maxScore) : Scores db a entry score := by
  have hmem : entry ∈ db.gradingEntries := Rows.mem_of_row _ h.stored
  have hat : entry.attemptId = a.id := congrArg Prod.fst (Rows.key_of_row _ h.stored)
  have hmanual := (hreach.entriesSound.sound entry hmem).manual_of_pending h.pending
  refine ⟨ha, hs, ?_, h.stored, hmanual, h.pending, hb⟩
  -- the manual entry comes from a text question, which the freeze labelled pending
  obtain ⟨hshape, -⟩ := hreach.worksetsSound a.id a ha (.inl hs)
  have hentry : entryShape entry ∈ a.questionSnapshot.map questionShape := by
    rw [← hshape]
    exact List.mem_map_of_mem (List.mem_filter.mpr ⟨hmem, by simp [hat]⟩)
  obtain ⟨q, hq, hqe⟩ := List.mem_map.mp hentry
  have hmode : questionMode q = .manual := (congrArg (·.2.1) hqe).trans hmanual
  have hrequires : requiresManualGrading a.questionSnapshot = true := by
    refine List.any_eq_true.mpr ⟨q, hq, ?_⟩
    by_contra hno
    simp only [questionMode, isManualGradedQuestion, hno, if_false] at hmode
    cases hmode
  rw [(hreach.enrollmentSound.owned a.id a ha).label hs, freezeStatus, if_pos hrequires]

def LastScoreGrades (db : Db) (a : ExamAttempt) (questionId : String) (score : ℚ)
    (comment graderId : String) (now : Int) : Prop :=
  ∃ u db', (Command.grade a.id questionId score comment graderId now).step db = .ok (u, db') ∧
    ∃ a', db'.findAttempt a.id = some a' ∧ a'.status = .graded

/-- The step that scores the last pending entry only scores it, or closes the attempt too. -/
theorem gradeLast_ok {u : Unit} {db' : Db} (hreach : Reachable db) (ha : db.findAttempt a.id = some a)
    (hlast : LastPending db a entry)
    (h : (Command.grade a.id entry.questionId score comment graderId now).step db = .ok (u, db')) :
    db' = db.scored a entry score comment graderId now ∨
      ∃ aggregated, Closes (db.scored a entry score comment graderId now) a aggregated now ∧
        db' = (db.scored a entry score comment graderId now).close a aggregated now := by
  obtain ⟨-, hlock⟩ := hreach.locks ha
  have hexam : db.findExam a.examId = some db.exam :=
    Db.findExam_eq_some.mpr ⟨(hreach.enrollmentSound.owned a.id a ha).exam, rfl⟩
  simp only [Command.step, ha, hexam, hlock, orThrow_some, ok_bind, bind_eq_ok, pure_eq_ok,
    Prod.mk.injEq] at h
  obtain ⟨⟨r, db₁⟩, hgrade, -, rfl⟩ := h
  obtain ⟨b, entry', hb, hq, hscores, hcase⟩ := gradeManualQuestion_ok hgrade
  obtain rfl : a = b := Option.some.inj (ha.symm.trans hb)
  obtain rfl : entry = entry' := Option.some.inj (hlast.stored.symm.trans (hq ▸ hscores.stored))
  exact hcase

theorem lastScoreGrades_iff (hreach : Reachable db) (ha : db.findAttempt a.id = some a)
    (hs : a.status = .submitted) (hlast : LastPending db a entry)
    (hb : 0 ≤ score ∧ score ≤ entry.maxScore) :
    LastScoreGrades db a entry.questionId score comment graderId now ↔
      ¬ Wedged (db.scored a entry score comment graderId now) a now := by
  have hscores := hlast.scores hreach ha hs hb
  have hscored : Reachable (db.scored a entry score comment graderId now) :=
    hreach.changes (.single (.score hscores))
  have ha' : (db.scored a entry score comment graderId now).findAttempt a.id = some a := ha
  rw [← closes_iff hscored ha' hs hlast.allScored]
  constructor
  · rintro ⟨u, db', hstep, x, hx, hg⟩
    rcases gradeLast_ok hreach ha hlast hstep with rfl | ⟨aggregated, hc, -⟩
    · obtain rfl := Option.some.inj (ha'.symm.trans hx)
      rw [hs] at hg
      cases hg
    · exact ⟨aggregated, hc⟩
  · rintro ⟨aggregated, hc⟩
    obtain ⟨hlocks, hlock⟩ := hreach.locks ha
    have hexam : db.findExam a.examId = some db.exam :=
      Db.findExam_eq_some.mpr ⟨(hreach.enrollmentSound.owned a.id a ha).exam, rfl⟩
    obtain ⟨r, hgrade⟩ := gradeManualQuestion_progress hscores hlocks hlast.countPendingManual hc
    refine ⟨(), (db.scored a entry score comment graderId now).close a aggregated now, ?_, _,
      findAttempt_close ha', rfl⟩
    simp only [Command.step, ha, hexam, hlock, orThrow_some, ok_bind, hgrade]
    rfl

end

/-- In every reachable store, terminal grading of a submitted attempt without
pending entries succeeds, and so does scoring its last pending entry, exactly
when the enrollment was not completed before or grading still asks for that. -/
theorem grading_wedged_iff (db : Db) (hreach : Reachable db) (a : ExamAttempt)
    (ha : db.findAttempt a.id = some a) (hs : a.status = .submitted) (now : Int) :
    (AllScored db a → (Finalizes db a now ↔ ¬ Wedged db a now)) ∧
      ∀ entry score comment graderId, LastPending db a entry → 0 ≤ score ∧ score ≤ entry.maxScore →
        (LastScoreGrades db a entry.questionId score comment graderId now ↔
          ¬ Wedged (db.scored a entry score comment graderId now) a now) :=
  ⟨finalizes_iff hreach ha hs, fun _ _ _ _ hlast hb => lastScoreGrades_iff hreach ha hs hlast hb⟩

end

/-! ## A wedged attempt -/

def samplePassThenStop : Db :=
  { sampleInitial with
    exam := { sampleExam with retakePolicy := .passThenStop, scoreStrategy := .latest } }

/-- Three attempts are handed in; the first one passes and the second one fails. -/
def sampleWedge : List Command :=
  [sampleStartOf "first" 0, .submit "first" "candidate" 1000, sampleStartOf "second" 2000,
   .submit "second" "candidate" 3000, sampleStartOf "third" 4000, .submit "third" "candidate" 5000,
   sampleGrade "first" 3 6000, sampleGrade "second" 1 7000]

/-- The last pending entry of the third attempt cannot be scored. -/
theorem grading_wedged :
    let db := run (@Command.step sampleHost) samplePassThenStop sampleWedge
    (db.findAttempt "third").map (·.status) = some .submitted ∧
      (db.entriesOf "third").map (fun e => (e.questionId, e.status)) = [("q1", .completedAuto),
        ("q2", .pendingManual)] ∧
      @Command.step sampleHost (sampleGrade "third" 1 8000) db =
        .error (.invalidStateTransition "Cannot transition enrollment from completed to started") := by
  decide +kernel

/-- One attempt, handed in and scored. -/
theorem grading_wedged_iff_sample :
    let db := run (@Command.step sampleHost) sampleDb [.submit "attempt" "candidate" 1000]
    @LastScoreGrades sampleHost db (@ExamAttempt.submittedRow sampleAttempt 1000 none) "q2" 3 ""
      "grader" 2000 := by
  let _ : Host := sampleHost
  let db := run Command.step sampleDb [.submit "attempt" "candidate" 1000]
  let entry := (expectedEntry (buildSubmittedAnswersSnapshot [] [sampleChoice,
        sampleText]) sampleText).toRow "attempt"
  have hreach : Reachable db := reachable_run sampleDb_reachable _
  have hlast : LastPending db (sampleAttempt.submittedRow 1000 none) entry :=
    ⟨by decide +kernel, rfl, by decide +kernel⟩
  have hiff := (grading_wedged_iff db hreach (sampleAttempt.submittedRow 1000 none)
      (by decide +kernel) rfl 2000).2
    entry 3 "" "grader" hlast (by decide +kernel)
  refine hiff.mpr fun hw => ?_
  have hs : db.enrollment.status = .started := by decide +kernel
  rw [show db.enrollment.status = .completed from hw.1] at hs
  cases hs

end ExamSystem
