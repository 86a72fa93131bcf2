import ExamSystem.AggregateSound
import ExamSystem.AttemptRows

/-!
# Submission freezes the attempt

After a submit no command changes the frozen answers, the submission, the live
answers or the shape of the grading workset, and every save is rejected.
-/

namespace ExamSystem

open Tx

/-! ## The shape of a workset -/

def Db.worksetOf (db : Db) (attemptId : String) : List (String × GradingEntryMode × ℚ) :=
  (db.entriesOf attemptId).map entryShape

theorem entriesOf_updateEntry (db : Db) (attemptId k questionId : String)
    {f : AttemptGradingEntry → AttemptGradingEntry} (hf : ∀ e, (f e).attemptId = e.attemptId) :
    (db.updateEntry k questionId f).entriesOf attemptId =
      Rows.modify Db.entryKey (db.entriesOf attemptId) (k, questionId) f :=
  Rows.filter_modify _ (fun e => by simp [hf]) _ _

theorem worksetOf_complete (db : Db) (attemptId k questionId : String) (score : ℚ)
    (comment graderId : String) (now : Int) :
    (db.updateEntry k questionId (·.complete score comment graderId now)).worksetOf attemptId =
      db.worksetOf attemptId := by
  unfold Db.worksetOf
  rw [entriesOf_updateEntry (f := (·.complete _ _ _ _)) db attemptId k questionId (fun _ => rfl)]
  exact Rows.map_modify (f := fun e => AttemptGradingEntry.complete e score comment graderId now) _
    (fun _ => rfl) _ _

section
variable [Host]

theorem workset_shape (a : ExamAttempt) :
    a.workset.map entryShape = a.questionSnapshot.map questionShape := by
  unfold ExamAttempt.workset
  rw [List.map_map]
  exact List.map_congr_left fun q _ => expectedEntry_shape _ _ q

theorem entriesOf_freeze (db : Db) (a : ExamAttempt) (submittedAt : Int)
    (reason : Option SubmissionReason) (events : List AttemptInterruptionEvent) (attemptId : String) :
    (db.freeze a submittedAt reason events).entriesOf attemptId =
      db.entriesOf attemptId ++ if attemptId = a.id then a.workset else [] := by
  simp only [Db.freeze, Db.entriesOf, List.filter_append]
  congr 1
  split
  · rename_i hid
    exact List.filter_eq_self.mpr fun e he => by simp [workset_attemptId he, hid]
  · rename_i hid
    exact List.filter_eq_nil_iff.mpr fun e he => by simp [workset_attemptId he, Ne.symm hid]

/-! ## Frozen attempts -/

def ExamAttempt.Frozen (a : ExamAttempt) : Prop := a.status = .submitted ∨ a.status = .graded

/-- The row `a'` is frozen with what `a` was frozen with. -/
structure SameSubmission (a a' : ExamAttempt) : Prop where
  frozen : a'.Frozen
  submittedAnswers : a'.submittedAnswers = a.submittedAnswers
  submittedAt : a'.submittedAt = a.submittedAt
  submissionReason : a'.submissionReason = a.submissionReason
  answers : a'.answers = a.answers
  questionSnapshot : a'.questionSnapshot = a.questionSnapshot

theorem RowStep.frozen {now : Int} {db db' : Db} {a a' : ExamAttempt} (h : RowStep now db db' a a')
    (hf : a.Frozen) :
    SameSubmission a a' := by
  have hne : ∀ {s : AttemptStatus}, a.status = s → s ≠ .submitted → s ≠ .graded → False := by
    intro s hs h₁ h₂
    rcases hf with hf | hf <;> rw [hs] at hf
    · exact h₁ hf
    · exact h₂ hf
  cases h with
  | same => exact ⟨hf, rfl, rfl, rfl, rfl, rfl⟩
  | save _ _ hs hg _ => exact (hf.elim hs hg).elim
  | touch hs => exact (hne hs (by simp) (by simp)).elim
  | detect _ hs => exact (hne hs (by simp) (by simp)).elim
  | restore hs => exact (hne hs (by simp) (by simp)).elim
  | extend h _ => exact (h.active.elim (hne · (by simp) (by simp)) (hne · (by simp) (by simp))).elim
  | freeze _ _ h _ =>
    exact (h.events.active.elim (hne · (by simp) (by simp)) (hne · (by simp) (by simp))).elim
  | close _ _ => exact ⟨.inr rfl, rfl, rfl, rfl, rfl, rfl⟩

theorem Change.worksetOf {now : Int} {db db' : Db} (h : Change now db db') (attemptId : String) :
    db'.worksetOf attemptId = db.worksetOf attemptId ∨
      ∃ a submittedAt reason events, a.id = attemptId ∧ Freezes db a events ∧
        db' = db.freeze a submittedAt reason events := by
  rcases h with h | h | h
  case adjust => exact .inl rfl
  case examWrite => exact .inl rfl
  cases h with
  | @freeze a submittedAt reason events h =>
    by_cases hid : attemptId = a.id
    · exact .inr ⟨a, submittedAt, reason, events, hid.symm, h, rfl⟩
    · left
      simp [Db.worksetOf, entriesOf_freeze, hid]
  | score h => exact .inl (worksetOf_complete _ _ _ _ _ _ _ _)
  | save _ | touch _ _ | detect _ _ _ _ | restore _ _ _ _ | close _ | create _ => exact .inl rfl

structure FrozenAs (attemptId : String) (a : ExamAttempt)
    (workset : List (String × GradingEntryMode × ℚ)) (db : Db) :
    Prop where
  row : ∃ a', db.findAttempt attemptId = some a' ∧ SameSubmission a a'
  workset : db.worksetOf attemptId = workset

theorem FrozenAs.change {attemptId : String} {a : ExamAttempt}
    {workset : List (String × GradingEntryMode × ℚ)} {now : Int} {db db' : Db}
    (h : FrozenAs attemptId a workset db) (hc : Change now db db') :
    FrozenAs attemptId a workset db' := by
  obtain ⟨a₁, ha₁, hs₁⟩ := h.row
  obtain ⟨a₂, ha₂, hstep⟩ := hc.row ha₁
  have hs₂ := hstep.frozen hs₁.frozen
  refine ⟨⟨a₂, ha₂, hs₂.frozen, ?_, ?_, ?_, ?_, ?_⟩, ?_⟩
  · exact hs₂.submittedAnswers.trans hs₁.submittedAnswers
  · exact hs₂.submittedAt.trans hs₁.submittedAt
  · exact hs₂.submissionReason.trans hs₁.submissionReason
  · exact hs₂.answers.trans hs₁.answers
  · exact hs₂.questionSnapshot.trans hs₁.questionSnapshot
  · rcases hc.worksetOf attemptId with hw | ⟨b, _, _, _, rfl, hf, rfl⟩
    · exact hw.trans h.workset
    · obtain rfl : a₁ = b := Option.some.inj (ha₁.symm.trans hf.found)
      have := hs₁.frozen
      rcases hf.events.active with hs | hs <;> simp [ExamAttempt.Frozen, hs] at this

/-! ## One entry per question -/

def WorksetsSound (db : Db) : Prop :=
  ∀ attemptId a, db.findAttempt attemptId = some a → a.Frozen →
    db.worksetOf attemptId = a.questionSnapshot.map questionShape ∧
    (a.questionSnapshot.map (·.originalQuestionId)).Nodup

theorem worksetsSound_change (now : Int) (db db' : Db) (h : WorksetsSound db) (hc : Change now db db') :
    WorksetsSound db' := by
  intro attemptId a' ha' hf'
  rcases hc.row_cases ha' with ⟨input, hcr, -⟩ | ⟨a, ha, hstep⟩
  · rw [ExamAttempt.Frozen, hcr.status] at hf'; simp at hf'
  by_cases hf : a.Frozen
  · have hs := hstep.frozen hf
    obtain ⟨hw, hn⟩ := h attemptId a ha hf
    rw [hs.questionSnapshot]
    refine ⟨?_, hn⟩
    rcases hc.worksetOf attemptId with hw' | ⟨b, _, _, _, rfl, hfr, rfl⟩
    · exact hw'.trans hw
    · obtain rfl : a = b := Option.some.inj (ha.symm.trans hfr.found)
      rcases hfr.events.active with hs | hs <;> simp [ExamAttempt.Frozen, hs] at hf
  · cases hstep with
    | freeze submittedAt reason hfr hdb =>
      obtain rfl := Db.findAttempt_id ha
      subst hdb
      refine ⟨?_, hfr.distinct⟩
      simp only [Db.worksetOf, entriesOf_freeze, hfr.unmaterialized, if_true, List.nil_append,
        workset_shape]
      rfl
    | close h _ => exact absurd (.inl h.submitted) hf
    | same | save _ _ _ _ _ | extend _ _ => exact absurd hf' hf
    | touch hs | restore hs | detect _ hs =>
      simp [ExamAttempt.Frozen, ExamAttempt.touch, ExamAttempt.restore,
        ExamAttempt.markDisrupted, hs] at hf'

theorem Reachable.worksetsSound {db : Db} (h : Reachable db) : WorksetsSound db :=
  h.invariant (fun db hi attemptId a ha => by rw [hi.findAttempt] at ha; cases ha) worksetsSound_change

/-! ## Saves after the freeze -/

theorem save_frozen {db db' : Db} {c : SaveCommand} {a : ExamAttempt} {res : ProcessSaveResult}
    (ha : db.findAttempt c.context.attemptId = some a) (hf : a.Frozen)
    (h : saveStep c db = .ok (res, db')) :
    res = .rejected 0 c.context.checkedAt .attemptAlreadySubmitted none ∧ db' = db := by
  obtain ⟨b, question, hb, -, -, hdec, -⟩ := saveStep_decision h
  obtain rfl : a = b := Option.some.inj (ha.symm.trans hb)
  have hv : a.status ≠ .voided := by rcases hf with hf | hf <;> simp [hf]
  have hres : res = .rejected 0 c.context.checkedAt .attemptAlreadySubmitted none := by
    rw [hdec, processSaveAnswer]
    exact (if_neg hv).trans (if_pos hf)
  exact ⟨hres, saveStep_unwritten h (by simp [hres])⟩

/-! ## The whole run -/

/-- From a submit that succeeds in any reachable state, and from any reachable
state in which the attempt is submitted, every run of commands keeps the
submission, the live answers and the shape of the grading workset, which has
one entry for each question, and every save is rejected. -/
theorem submission_freezes (db : Db) (hreach : Reachable db) (attemptId : String) (now : Int)
    (opts : SubmitOptions) (a : ExamAttempt) (db₁ : Db)
    (hsubmit : submitAttempt db attemptId now opts = .ok (a, db₁) ∨
      (db₁ = db ∧ db.findAttempt attemptId = some a ∧ a.Frozen)) (cs : List Command) :
    ∃ a', (run Command.step db₁ cs).findAttempt attemptId = some a' ∧ SameSubmission a a' ∧
      (run Command.step db₁ cs).worksetOf attemptId = db₁.worksetOf attemptId ∧
      ((run Command.step db₁ cs).entriesOf attemptId).map (·.questionId) =
        a'.questionSnapshot.map (·.originalQuestionId) ∧
      (a'.questionSnapshot.map (·.originalQuestionId)).Nodup ∧
      ∀ c res db', c.context.attemptId = attemptId → saveStep c (run Command.step db₁ cs) = .ok
        (res, db') →
        res = .rejected 0 c.context.checkedAt .attemptAlreadySubmitted none ∧
        db' = run Command.step db₁ cs := by
  have hstart : Reachable db₁ ∧ FrozenAs attemptId a (db₁.worksetOf attemptId) db₁ := by
    rcases hsubmit with hsubmit | ⟨rfl, ha, hf⟩
    · refine ⟨hreach.changes (submit_quiets hsubmit now), ?_⟩
      obtain ⟨b, hb, hs⟩ := submitAttempt_ok hsubmit
      obtain rfl := Db.findAttempt_id hb
      rcases hs with ⟨hs, rfl, rfl⟩ | ⟨events, hf, -, rfl, rfl⟩
      · exact ⟨⟨_, hb, hs, rfl, rfl, rfl, rfl, rfl⟩, rfl⟩
      · exact ⟨⟨_, findAttempt_freeze hb, .inl rfl, rfl, rfl, rfl, rfl, rfl⟩, rfl⟩
    · exact ⟨hreach, ⟨_, ha, hf, rfl, rfl, rfl, rfl, rfl⟩, rfl⟩
  have hend : FrozenAs attemptId a (db₁.worksetOf attemptId) (run Command.step db₁ cs) :=
    closure_invariant (fun _ _ h hc => hc.elim fun _ hc => h.change hc) (run_changes cs db₁) hstart.2
  obtain ⟨a', ha', hsame⟩ := hend.row
  obtain ⟨hshape, hn⟩ := (reachable_run hstart.1 cs).worksetsSound attemptId a' ha' hsame.frozen
  refine ⟨a', ha', hsame, hend.workset, ?_, hn, ?_⟩
  · have hids := congrArg (List.map Prod.fst) hshape
    simpa [Db.worksetOf, entryShape, questionShape, Function.comp_def] using hids
  · rintro c res db' rfl h
    exact save_frozen ha' hsame.frozen h

end

/-- A save, a candidate's submit again, and the sweep after the deadline. -/
def sampleAfterSubmit : List Command :=
  [.submit "attempt" "candidate" 2000, .forceSubmit "attempt" 3000, .deadlineScan "attempt" 70000,
   .grade "attempt" "q2" 3 "" "grader" 80000]

def sampleSubmit : SubmitOptions :=
  { source := some .candidate, minSubmitAfterStartMinutes := none, submissionReason := none,
    resolution := .none }

theorem submission_freezes_sample :
    let db₁ := commit (@submitAttempt sampleHost sampleDb "attempt" 1000 sampleSubmit) sampleDb
    ∃ a', (run (@Command.step sampleHost) db₁ sampleAfterSubmit).findAttempt "attempt" = some a' ∧
      a'.submittedAt = some 1000 ∧ a'.submissionReason = some .manual := by
  let _ : Host := sampleHost
  intro db₁
  obtain ⟨a', ha', hs, -⟩ := submission_freezes sampleDb sampleDb_reachable "attempt" 1000 sampleSubmit
    (sampleAttempt.submittedRow 1000 none) db₁ (.inl (by decide +kernel)) sampleAfterSubmit
  exact ⟨a', ha', hs.submittedAt, hs.submissionReason⟩

end ExamSystem
