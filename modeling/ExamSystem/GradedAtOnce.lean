import ExamSystem.Sessions
import ExamSystem.StartSound

/-!
# Attempts that no grader has to score

In an exam without manual questions a submission is graded in the transaction
that makes it. While such an attempt is in flight its enrollment is started, so
that no grading finds an enrollment that is completed.
-/

namespace ExamSystem

open Tx

theorem presentation_freezeStatus (questions : List QuestionSnapshot) (flags : ControlFlags)
    (draws : List Nat) :
    freezeStatus (materializeAttemptPresentation questions flags draws) = freezeStatus questions := by
  have hperm := presentation_perm (g := (·.type)) (fun _ _ => rfl)
    (fun _ _ => rfl) questions flags draws
  have hany : ∀ l : List QuestionSnapshot, requiresManualGrading l = (l.map (·.type)).any
      (· == .textResponse) := by
    intro l
    rw [List.any_map]
    rfl
  unfold freezeStatus
  rw [hany, hany, hperm.any_eq]

def Exam.Automatic (exam : Exam) : Prop := freezeStatus exam.questionSnapshot ≠ .pendingManual

structure GradedAtOnce (db : Db) : Prop where
  questions : ∀ k a, db.findAttempt k = some a →
    freezeStatus a.questionSnapshot = freezeStatus db.exam.questionSnapshot
  resting : db.exam.Automatic → ∀ k a, db.findAttempt k = some a → a.status ≠ .submitted
  started : db.exam.Automatic → ∀ k a, db.findAttempt k = some a → a.Active →
    db.enrollment.status = .started

theorem Initial.gradedAtOnce {db : Db} (h : Initial db) : GradedAtOnce db := by
  refine ⟨fun k a ha => ?_, fun _ k a ha => ?_, fun _ k a ha => ?_⟩ <;>
    rw [h.findAttempt] at ha <;> cases ha

section
variable {db db' : Db} {now : Int} {a : ExamAttempt} {f : ExamAttempt → ExamAttempt}

theorem GradedAtOnce.rows (h : GradedAtOnce db) (hexam : db'.exam = db.exam)
    (hrow : ∀ k b', db'.findAttempt k = some b' → ∃ b, db.findAttempt k = some b ∧
      b'.questionSnapshot = b.questionSnapshot ∧
      (db.exam.Automatic → b'.status ≠ .submitted ∧ (b'.Active → db'.enrollment.status = .started))) :
    GradedAtOnce db' := by
  refine ⟨?_, ?_, ?_⟩
  · intro k b' hb'
    obtain ⟨b, hb, hq, -⟩ := hrow k b' hb'
    rw [hq, hexam]
    exact h.questions k b hb
  · intro hauto k b' hb'
    obtain ⟨b, hb, -, hrest⟩ := hrow k b' hb'
    exact (hrest (hexam ▸ hauto)).1
  · intro hauto k b' hb' hact
    obtain ⟨b, hb, -, hrest⟩ := hrow k b' hb'
    exact (hrest (hexam ▸ hauto)).2 hact

theorem GradedAtOnce.congr (h : GradedAtOnce db) (hexam : db'.exam = db.exam)
    (hattempts : db'.attempts = db.attempts) (henr : db'.enrollment = db.enrollment) :
    GradedAtOnce db' := by
  refine h.rows hexam fun k b hb => ?_
  have hfound : db.findAttempt k = some b := by
    rw [← hb, Db.findAttempt, Db.findAttempt, hattempts]
  exact ⟨b, hfound, rfl, fun hauto => ⟨h.resting hauto k b hfound,
      fun hact => henr ▸ h.started hauto k b hfound hact⟩⟩

theorem GradedAtOnce.update (h : GradedAtOnce db) (ha : db.findAttempt a.id = some a)
    (hid : ∀ x, (f x).id = x.id) (hq : (f a).questionSnapshot = a.questionSnapshot)
    (hrest : db.exam.Automatic → (f a).status ≠ .submitted ∧ ((f a).Active → a.Active)) :
    GradedAtOnce (db.updateAttempt a.id f) := by
  refine h.rows rfl fun k b hb => ?_
  rw [Db.findAttempt_updateAttempt db a.id hid] at hb
  split at hb
  · rename_i hk
    rw [ha] at hb
    obtain rfl := Option.some.inj hb
    exact ⟨a, hk ▸ ha, hq,
      fun hauto => ⟨(hrest hauto).1, fun hact => h.started hauto a.id a ha ((hrest hauto).2 hact)⟩⟩
  · exact ⟨b, hb, rfl, fun hauto => ⟨h.resting hauto k b hb, h.started hauto k b hb⟩⟩

theorem GradedAtOnce.close {aggregated : GradingEntryAggregate} (h : GradedAtOnce db)
    (ha : db.findAttempt a.id = some a) (hno : ¬ db.exam.Automatic) :
    GradedAtOnce (db.close a aggregated now) := by
  have hupdate := h.update (f := (·.gradedRow aggregated now)) ha (fun _ => rfl) rfl fun hauto =>
    absurd hauto hno
  exact ⟨hupdate.questions, fun hauto => absurd hauto hno, fun hauto => absurd hauto hno⟩

theorem GradedAtOnce.adjust {row : AttemptTimeAdjustment} (h : GradedAtOnce db)
    (hadj : Adjusts db a row now) :
    GradedAtOnce (db.adjust a row) :=
  (h.update (f := (·.extend row.afterDeadline)) hadj.found (fun _ => rfl) rfl fun hauto =>
    ⟨h.resting hauto a.id a hadj.found, id⟩).congr rfl rfl rfl

theorem GradedAtOnce.exam {exam' : Exam} (h : GradedAtOnce db)
    (hkept : db.attempts ≠ [] → db.exam.Kept exam') :
    GradedAtOnce { db with exam := exam' } := by
  have hquestions : ∀ k a, db.findAttempt k = some a →
      exam'.questionSnapshot = db.exam.questionSnapshot := by
    intro k a ha
    have hne : db.attempts ≠ [] := by
      intro hnil
      have hmem := Db.findAttempt_mem ha
      rw [hnil] at hmem
      exact absurd hmem List.not_mem_nil
    rw [(hkept hne).row]
  refine ⟨?_, ?_, ?_⟩
  · intro k a ha
    exact (h.questions k a ha).trans (congrArg freezeStatus (hquestions k a ha).symm)
  · intro hauto k a ha
    refine h.resting ?_ k a ha
    unfold Exam.Automatic
    rw [← hquestions k a ha]
    exact hauto
  · intro hauto k a ha
    refine h.started ?_ k a ha
    unfold Exam.Automatic
    rw [← hquestions k a ha]
    exact hauto

section
variable [Host]

theorem GradedAtOnce.settles {t : Int} (h : GradedAtOnce db) (hs : AttemptsSound db)
    (hset : Settles db a t now db') :
    GradedAtOnce db' := by
  have hfound := hset.found
  cases hset with
  | @held reason events hf _ hm =>
    refine (h.update (f := (·.submittedRow t reason)) hfound (fun _ => rfl) rfl fun hauto =>
        ?_).congr rfl rfl rfl
    exact absurd ((h.questions a.id a hfound).symm.trans hm) hauto
  | @closed reason events aggregated hf _ hm hc =>
    have hact : a.Active := hf.events.active
    have hfind : ∀ k,
        ((db.freeze a t reason events).close (a.submittedRow t reason) aggregated now).findAttempt k =
          if k = a.id then some ((a.submittedRow t reason).gradedRow aggregated now)
            else db.findAttempt k := by
      intro k
      change ((db.updateAttempt a.id (·.submittedRow t reason)).updateAttempt a.id
          (·.gradedRow aggregated now)).findAttempt k = _
      rw [Db.findAttempt_updateAttempt (f := (·.gradedRow aggregated now)) _ a.id (fun _ => rfl),
        Db.findAttempt_updateAttempt (f := (·.submittedRow t reason)) db a.id (fun _ => rfl),
        Db.findAttempt_updateAttempt (f := (·.submittedRow t reason)) db a.id (fun _ => rfl),
        if_pos rfl, hfound]
      by_cases hk : k = a.id
      · rw [if_pos hk, if_pos hk]
        rfl
      · rw [if_neg hk, if_neg hk, if_neg hk]
    refine h.rows rfl fun k b hb => ?_
    rw [hfind] at hb
    split at hb
    · rename_i hk
      obtain rfl := Option.some.inj hb
      refine ⟨a, hk ▸ hfound, rfl, fun _ => ⟨fun hs => (by cases hs), fun hact => ?_⟩⟩
      rcases hact with hs | hs <;> cases hs
    · rename_i hk
      refine ⟨b, hb, rfl, fun hauto => ⟨h.resting hauto k b hb, fun hactb => ?_⟩⟩
      exact absurd (hs.single k a.id b a hb hfound hactb hact) hk

theorem GradedAtOnce.move {target : Option String} (h : GradedAtOnce db) (hs : AttemptsSound db)
    (hm : Move now target db db') : GradedAtOnce db' := by
  -- In an automatic exam no submission is at rest that could be closed.
  have hmanual : ∀ {a : ExamAttempt}, db.findAttempt a.id = some a → a.status = .submitted →
      ¬ db.exam.Automatic :=
    fun ha hsub hauto => h.resting hauto _ _ ha hsub
  cases hm with
  | stay => exact h
  | @create a input syncDeadline hc hnow _ _ =>
    have hfind := Db.findAttempt_append hc.fresh
    obtain ⟨deadlineAt, snapshot, hrow⟩ := hc.row
    refine ⟨?_, ?_, fun _ _ _ _ _ => rfl⟩
    · intro k b hb
      rw [show (db.create a).findAttempt k = _ from hfind k] at hb
      split at hb
      · obtain rfl := Option.some.inj hb
        rw [hrow]
        exact presentation_freezeStatus _ _ _
      · exact h.questions k b hb
    · intro hauto k b hb
      rw [show (db.create a).findAttempt k = _ from hfind k] at hb
      split at hb
      · obtain rfl := Option.some.inj hb
        rw [hc.status]
        decide
      · exact h.resting hauto k b hb
  | @touch a ha hst =>
    exact h.update (f := (·.touch now)) ha (fun _ => rfl) rfl fun hauto =>
      ⟨h.resting hauto a.id a ha, id⟩
  | @save c a question record receipt hw _ _ =>
    have hid : a.id = c.context.attemptId := Db.findAttempt_id hw.found
    refine (h.update
        (f := (·.recordSave (applyAcceptedResult a.answers record c.request) c.context.checkedAt))
      (hid ▸ hw.found) (fun _ => rfl) rfl fun hauto => ⟨h.resting hauto _ a hw.found,
        id⟩).congr rfl ?_ rfl
    rw [hid]
    rfl
  | @detect a freshId _ _ ha hst _ _ =>
    exact (h.update (f := (·.markDisrupted freshId now)) ha (fun _ => rfl) rfl fun _ =>
      ⟨fun hs => (by cases hs), fun _ => .inl hst⟩).congr rfl rfl rfl
  | settle hset _ => exact h.settles hs hset
  | @restore a _ _ _ ha hst _ _ _ =>
    exact (h.update (f := (·.restore now)) ha (fun _ => rfl) rfl fun _ =>
      ⟨fun hs => (by cases hs), fun _ => .inr hst⟩).congr rfl rfl rfl
  | extend hadd => exact h.adjust hadd.adjusts
  | score hsc => exact h.congr rfl rfl rfl
  | @scoreLast a entry score comment graderId aggregated hsc hc =>
    have hno := hmanual hsc.found hsc.submitted
    have hscored : GradedAtOnce (db.updateEntry a.id entry.questionId
        (·.complete score comment graderId now)) :=
      h.congr rfl rfl rfl
    exact hscored.close hc.found hno
  | @close a aggregated hc _ =>
    exact h.close hc.found (hmanual hc.found hc.submitted)

theorem GradedAtOnce.moves {target : Option String} {due : ExamAttempt → Option Int}
    (h : GradedAtOnce db) (hs : AttemptsSound db) (hm : Moves now target due db db') :
    GradedAtOnce db' := by
  rcases hm with ⟨hm, -⟩ | ⟨a, row, -, hadd, -, -, hm⟩
  · exact h.move hs hm
  · exact (h.adjust hadd.adjusts).move (hs.change (.adjust hadd.adjusts)) hm

variable [RichContent]

theorem session_gradedAtOnce {db₀ : Db} (h₀ : Initial db₀) (hdraft : db₀.exam.status = .draft)
    {clock : Int} {rs : List Request} (horder : InOrder clock rs) :
    Session (clockAfter clock rs) (run Request.step db₀ rs) ∧
    GradedAtOnce (run Request.step db₀ rs) := by
  refine session_run (G := fun _ _ => True) (P := fun _ db => GradedAtOnce db)
    (fun _ _ _ _ h => h) ?_ rs clock db₀
    (h₀.session hdraft clock) h₀.gradedAtOnce horder (along_of_forall _ _ _ fun _ _ _ => trivial)
  intro clock db r u db' hsession h hclock _ hx
  cases Request.acts hx with
  | sitting hm => exact h.moves hsession.reachable.attemptsSound hm
  | exam hr => exact h.exam (hsession.kept hclock hr)

end

end

end ExamSystem
