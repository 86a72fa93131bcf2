import ExamSystem.AttemptLocks
import ExamSystem.GradedAtOnce

/-!
# The lock order

Every transaction locks Enrollment, then Attempt, then Exam, and what it locks
beside them is guarded by a row it holds or comes after all three. So whatever
transactions run at once, no cycle of them waits.
-/

namespace ExamSystem.Locking

open Tx RowLocks

/-! ## What views keep -/

section
variable {v v' : View} {attemptId examId candidateId : String} {a : ExamAttempt}

theorem View.findAttempt_eq_some :
    v.findAttempt attemptId = some a ↔ ∃ db ∈ v.sittings, db.findAttempt attemptId = some a := by
  constructor
  · intro h
    obtain ⟨_, db, _, hsplit, ha, -⟩ := List.findSome?_eq_some_iff.mp h
    exact ⟨db, by simp [hsplit], ha⟩
  · rintro ⟨db, hdb, ha⟩
    cases hfind : v.findAttempt attemptId with
    | none => exact absurd (ha.symm.trans (List.findSome?_eq_none_iff.mp hfind db hdb)) (by simp)
    | some b =>
      obtain ⟨_, other, _, hsplit, hb, -⟩ := List.findSome?_eq_some_iff.mp hfind
      rw [v.attempts other (by simp [hsplit]) db hdb attemptId b a hb ha]

structure Of (attemptId examId candidateId : String) (a : ExamAttempt) : Prop where
  id : a.id = attemptId
  exam : a.examId = examId
  candidate : a.candidateId = candidateId

def Knows (v : View) (attemptId examId candidateId : String) : Prop :=
  ∃ a, v.findAttempt attemptId = some a ∧ Of attemptId examId candidateId a

theorem Knows.evolves (h : Knows v attemptId examId candidateId) (hv : v.Evolves v') :
    Knows v' attemptId examId candidateId := by
  obtain ⟨a, ha, hof⟩ := h
  obtain ⟨db, hdb, ha⟩ := View.findAttempt_eq_some.mp ha
  obtain ⟨db', hdb', hremains⟩ := hv db hdb
  obtain ⟨a', ha', hsame⟩ := hremains.attempts attemptId a ha
  exact ⟨a', View.findAttempt_eq_some.mpr ⟨db', hdb', ha'⟩,
    ⟨Db.findAttempt_id ha', hsame.exam.trans hof.exam, hsame.candidate.trans hof.candidate⟩⟩

theorem Knows.found (h : Knows v attemptId examId candidateId) (ha : v.findAttempt attemptId = some a) :
    Of attemptId examId candidateId a := by
  obtain ⟨b, hb, hof⟩ := h
  obtain rfl := Option.some.inj (hb.symm.trans ha)
  exact hof

end

/-! ## What a transaction holds -/

/-- Whether the exam may be locked for share: it may still be locked, it is
locked, or it is not locked any more. -/
inductive ExamLock
  | ready | locked | off
  deriving DecidableEq

def ExamLock.Meets (e : ExamLock) (examId : String) (held : List (Row × Mode)) : Prop :=
  match e with
  | .ready => Covers held (.exam examId) .share ∨ Below 2 held
  | .locked => Covers held (.exam examId) .share
  | .off => True

/-- The enrollment and the attempt are held, and of the order only rows below `n`. -/
structure Holding (n : Nat) (e : ExamLock) (attemptId examId candidateId : String)
    (held : List (Row × Mode)) (v : View) : Prop where
  knows : Knows v attemptId examId candidateId
  enrollment : (.enrollment examId candidateId, .update) ∈ held
  attempt : (.attempt attemptId, .update) ∈ held
  below : Below n held
  exam : e.Meets examId held

def Own (attemptId examId candidateId : String) (row : Row) : Prop :=
  row = .enrollment examId candidateId ∨ row = .attempt attemptId ∨
    row.guard = some (.enrollment examId candidateId) ∨ row.guard = some (.attempt attemptId)

section
variable {held : List (Row × Mode)} {row : Row} {mode : Mode} {n m : Nat} {e : ExamLock} {v v' : View}
  {attemptId examId candidateId : String}

theorem covers_update (h : (row, .update) ∈ held) : Covers held row mode :=
  ⟨.update, h, by cases mode <;> decide⟩

theorem covers_cons {p : Row × Mode} (h : Covers held row mode) : Covers (p :: held) row mode := by
  obtain ⟨a, ha, hle⟩ := h
  exact ⟨a, List.mem_cons_of_mem _ ha, hle⟩

theorem ExamLock.Meets.cons {p : Row × Mode} (h : e.Meets examId held)
    (hbelow : Below 2 held → Below 2 (p :: held)) :
    e.Meets examId (p :: held) := by
  cases e with
  | ready => exact Or.imp covers_cons hbelow h
  | locked => exact covers_cons h
  | off => trivial

theorem below_own (h : Below n held) (hheld : (∃ a, (row, a) ∈ held) ∨ (row.guard).isSome) :
    Below n ((row, mode) :: held) := by
  refine below_cons h fun hguard => ?_
  rcases hheld with ⟨a, ha⟩ | hsome
  · exact h (row, a) ha hguard
  · change row.guard = none at hguard
    rw [hguard] at hsome
    cases hsome

theorem Holding.evolves (h : Holding n e attemptId examId candidateId held v) (hv : v.Evolves v') :
    Holding n e attemptId examId candidateId held v' :=
  ⟨h.knows.evolves hv, h.enrollment, h.attempt, h.below, h.exam⟩

theorem Holding.lift (h : Holding n e attemptId examId candidateId held v) (hle : n ≤ m) :
    Holding m e attemptId examId candidateId held v :=
  ⟨h.knows, h.enrollment, h.attempt, h.below.mono hle, h.exam⟩

theorem Holding.own (h : Holding n e attemptId examId candidateId held v)
    (hrow : Own attemptId examId candidateId row) :
    Admits held row mode ∧ ∀ v', v.Evolves v' → Holding n e attemptId examId candidateId
      ((row, mode) :: held) v' := by
  have hheld : (∃ a, (row, a) ∈ held) ∨ (row.guard).isSome := by
    rcases hrow with rfl | rfl | hguard | hguard
    · exact .inl ⟨_, h.enrollment⟩
    · exact .inl ⟨_, h.attempt⟩
    · exact .inr (by simp [hguard])
    · exact .inr (by simp [hguard])
  constructor
  · rcases hrow with rfl | rfl | hguard | hguard
    · exact .inl (covers_update h.enrollment)
    · exact .inl (covers_update h.attempt)
    · exact .inr (.inl ⟨_, hguard, h.enrollment⟩)
    · exact .inr (.inl ⟨_, hguard, h.attempt⟩)
  · intro v' hv
    exact ⟨h.knows.evolves hv, List.mem_cons_of_mem _ h.enrollment,
      List.mem_cons_of_mem _ h.attempt, below_own h.below hheld,
      h.exam.cons fun hbelow => below_own hbelow hheld⟩

end

/-! ## The statements -/

section
variable {n : Nat} {e : ExamLock} {attemptId examId candidateId : String}

/-- What a statement under the locks keeps, with a fact about the value it returns. -/
abbrev Held (n : Nat) (e : ExamLock) (attemptId examId candidateId : String) {α : Type} (p : Txn α)
    (φ : α → Prop) : Prop :=
  p.Keeps View.Evolves (Holding n e attemptId examId candidateId) φ

theorem held_done {α : Type} {a : α} {φ : α → Prop} (h : φ a) :
    Held n e attemptId examId candidateId (pure a) φ := keeps_done h

theorem held_one {α : Type} {φ : α → Prop} {row : Option α} {err : EngineError}
    (h : ∀ a, row = some a → φ a) :
    Held n e attemptId examId candidateId (one row err) φ :=
  keeps_ofExcept fun a ha => h a ((orThrow_eq_ok ..).mp ha)

theorem held_select {α : Type} {φ : α → Prop} {q : View → α}
    (h : ∀ v, Knows v attemptId examId candidateId → φ (q v)) :
    Held n e attemptId examId candidateId (select q) φ :=
  keeps_select (fun _ _ _ hs hv => hs.evolves hv) fun _ v hs => h v hs.knows

theorem held_selectFor {α : Type} {φ : α → Prop} {row : Row} {mode : Mode} {q : View → α}
    (hrow : Own attemptId examId candidateId row)
    (h : ∀ v, Knows v attemptId examId candidateId → φ (q v)) :
    Held n e attemptId examId candidateId (selectFor row mode q) φ :=
  keeps_selectFor (fun _ _ hs => hs.own hrow) fun _ v hs => h v hs.knows

theorem held_touch {row : Row} {mode : Mode} (hrow : Own attemptId examId candidateId row) :
    Held n e attemptId examId candidateId (touch row mode) fun _ => True :=
  held_selectFor hrow fun _ _ => trivial

theorem held_insert {row : Row} (hrow : Own attemptId examId candidateId row) :
    Held n e attemptId examId candidateId (insert row) fun _ => True :=
  held_touch hrow

theorem held_insertAll {rows : List Row} (h : ∀ row ∈ rows, Own attemptId examId candidateId row) :
    Held n e attemptId examId candidateId (insertAll rows) fun _ => True := by
  induction rows with
  | nil => exact held_done trivial
  | cons row rows ih =>
    exact (held_insert (h row (by simp))).bind fun _ _ => ih fun row hrow => h row (by simp [hrow])

theorem held_findAttempt (err : EngineError) :
    Held n e attemptId examId candidateId (findAttempt attemptId err)
      (Of attemptId examId candidateId) :=
  (held_select (φ := fun row => ∀ a, row = some a → Of attemptId examId candidateId a)
      fun _ hk _ ha => hk.found ha).bind
    fun _ hrow => held_one hrow

theorem held_findAttemptForUpdate (err : EngineError) :
    Held n e attemptId examId candidateId (findAttemptForUpdate attemptId err)
      (Of attemptId examId candidateId) :=
  (held_selectFor (φ := fun row => ∀ a, row = some a → Of attemptId examId candidateId a)
      (.inr (.inl rfl))
    fun _ hk _ ha => hk.found ha).bind fun _ hrow => held_one hrow

theorem held_updateAttempt :
    Held n e attemptId examId candidateId (updateAttempt attemptId) (Of attemptId examId candidateId) :=
  (held_selectFor (φ := fun row => ∀ a, row = some a → Of attemptId examId candidateId a)
      (.inr (.inl rfl))
    fun _ hk _ ha => hk.found ha).bind fun _ hrow => held_one hrow

theorem held_updateEnrollment :
    Held n e attemptId examId candidateId (updateEnrollment examId candidateId) fun _ => True :=
  held_touch (.inl rfl)

/-! ## The commands under the locks -/

theorem held_resolve {a : ExamAttempt} (ha : a.id = attemptId)
    (resolution : SubmitInterruptionResolution) :
    Held n e attemptId examId candidateId (resolveActiveInterruptionOnTerminalization a resolution)
      fun _ => True := by
  cases resolution with
  | none => exact held_done trivial
  | activeInterruption hint =>
    refine (held_one (φ := fun _ => True) fun _ _ => trivial).bind fun interruptionId _ => ?_
    have hown : ∀ row : Row, row.guard = some (.attempt a.id) → Own attemptId examId candidateId row :=
      fun row hrow => .inr (.inr (.inr (ha ▸ hrow)))
    exact (held_touch (hown _ rfl)).bind fun _ _ => held_insert (hown _ rfl)

theorem held_materializeGradingWorkset {a : ExamAttempt} (ha : a.id = attemptId) :
    Held n e attemptId examId candidateId (materializeGradingWorkset a) fun _ => True := by
  refine held_insertAll fun row hrow => ?_
  obtain ⟨q, -, rfl⟩ := List.mem_map.mp hrow
  exact .inr (.inr (.inr (by rw [← ha]; rfl)))

theorem held_submitAttempt (resolution : SubmitInterruptionResolution) :
    Held n e attemptId examId candidateId (submitAttempt attemptId resolution)
      (Of attemptId examId candidateId) := by
  refine (held_findAttemptForUpdate _).bind fun a ha => ?_
  refine (held_resolve ha.id resolution).bind fun _ _ => ?_
  split
  · exact held_done ha
  · refine held_updateAttempt.bind fun submitted hsubmitted => ?_
    exact (held_materializeGradingWorkset hsubmitted.id).bind fun _ _ => held_done hsubmitted

theorem held_finalizeTerminalGrading :
    Held n e attemptId examId candidateId (finalizeTerminalGrading attemptId) fun _ => True := by
  refine (held_findAttempt _).bind fun a ha => ?_
  split
  · exact held_done trivial
  · refine held_updateAttempt.bind fun _ _ => ?_
    rw [ha.exam, ha.candidate]
    exact held_updateEnrollment

theorem held_finalizeGrading :
    Held n e attemptId examId candidateId (finalizeGrading attemptId) fun _ => True := by
  refine (held_findAttempt _).bind fun a _ => ?_
  split
  · exact held_done trivial
  · exact held_finalizeTerminalGrading

theorem held_gradeAttemptIdempotent :
    Held n e attemptId examId candidateId (gradeAttemptIdempotent attemptId) fun _ => True := by
  refine (held_findAttempt _).bind fun a _ => ?_
  split
  · exact held_done trivial
  · exact held_finalizeGrading

theorem held_gradeManualQuestion (questionId : String) :
    Held n e attemptId examId candidateId (gradeManualQuestion attemptId questionId) fun _ => True := by
  refine (held_touch (.inr (.inr (.inr rfl)))).bind fun _ _ => ?_
  refine (held_select (φ := fun _ => True) fun _ _ => trivial).bind fun remainingPending _ => ?_
  split
  · exact held_finalizeTerminalGrading
  · exact held_done trivial

theorem held_findExamForShare (hn : 3 ≤ n) (he : e ≠ .off) :
    Held n e attemptId examId candidateId (findExamForShare examId) fun _ => True := by
  refine (keeps_selectFor (φ := fun _ => True) ?_ fun _ _ _ => trivial).bind fun _ _ =>
    held_one fun _ _ => trivial
  intro held v h
  have hexam := h.exam
  have hcovers : Covers ((Row.exam examId, Mode.share) :: held) (.exam examId) .share :=
    ⟨_, List.mem_cons_self, Nat.le_refl _⟩
  have hmeets : e.Meets examId ((Row.exam examId, Mode.share) :: held) := by
    cases e with
    | ready => exact .inl hcovers
    | locked => exact hcovers
    | off => exact absurd rfl he
  refine ⟨?_, fun v' hv => ⟨h.knows.evolves hv, List.mem_cons_of_mem _ h.enrollment,
      List.mem_cons_of_mem _ h.attempt,
    below_cons h.below fun _ => hn, hmeets⟩⟩
  cases e with
  | ready => exact hexam.imp id fun hbelow => .inr ⟨rfl, hbelow⟩
  | locked => exact .inl hexam
  | off => exact absurd rfl he

theorem held_ensureAttemptDeadlineReconciled (hn : 3 ≤ n) (he : e ≠ .off) (now : Int)
    (resolution : SubmitInterruptionResolution) :
    Held n e attemptId examId candidateId (ensureAttemptDeadlineReconciled attemptId now resolution)
      (Of attemptId examId candidateId) := by
  refine (held_findAttempt _).bind fun a ha => ?_
  split
  · exact held_done ha
  · rw [ha.exam]
    refine (held_findExamForShare hn he).bind fun exam _ => ?_
    refine (keeps_ofExcept (φ := fun _ => True) fun _ _ => trivial).bind fun expired _ => ?_
    split
    · exact held_done ha
    · refine (held_submitAttempt resolution).bind fun submitted hsubmitted => ?_
      split
      · exact held_done hsubmitted
      · exact held_finalizeGrading.bind fun _ _ => held_findAttempt _

theorem held_prepareReconciledAttemptMutation (hn : 3 ≤ n) (he : e ≠ .off) (now : Int)
    (resolution : SubmitInterruptionResolution) :
    Held n e attemptId examId candidateId
      (prepareReconciledAttemptMutation attemptId now resolution) fun _ => True := by
  refine (held_ensureAttemptDeadlineReconciled hn he now resolution).bind fun a ha => ?_
  rw [ha.exam]
  exact (held_findExamForShare hn he).bind fun exam _ => keeps_ofExcept fun _ _ => trivial

theorem held_saveAnswer [Host] {request : SaveAnswerRequest} (hid : request.attemptId = attemptId)
    (effectiveDeadline : Option Int) (now : Int)
    (validateAnswerForQuestion : QuestionSnapshot → CanonicalizeAnswer) :
    Held n e attemptId examId candidateId
      (saveAnswer effectiveDeadline request now validateAnswerForQuestion) fun _ => True := by
  subst hid
  refine (held_findAttempt _).bind fun a _ => ?_
  refine (held_one (φ := fun _ => True) fun _ _ => trivial).bind fun snapshotQuestion _ => ?_
  refine (keeps_ofExcept (φ := fun _ => True) fun _ _ => trivial).bind fun _ _ => ?_
  refine (held_select (φ := fun _ => True) fun _ _ => trivial).bind fun knownReceipt _ => ?_
  split
  · refine (keeps_ofExcept (φ := fun _ => True) fun _ _ => trivial).bind fun _ _ => ?_
    exact held_updateAttempt.bind fun _ _ => held_insert (.inr (.inr (.inr rfl)))
  · exact held_done trivial

/-! ## From one stage to the next -/

theorem spec_one {α : Type} {H : List (Row × Mode) → View → Prop}
    {Q : α → List (Row × Mode) → View → Prop} {row : Option α} {err : EngineError}
    (h : ∀ a held v, row = some a → H held v → Q a held v) : (one row err).Spec View.Evolves H Q :=
  fun held v hs => climbs_ofExcept fun a ha => h a held v ((orThrow_eq_ok ..).mp ha) hs

theorem spec_insert {m : Nat} (row : Row) (hguard : row.guard = none) (hrank : n ≤ row.rank)
    (hm : row.rank < m) (he : e ≠ .ready) :
    (insert row).Spec View.Evolves (Holding n e attemptId examId candidateId) fun _ =>
      Holding m e attemptId examId candidateId := by
  intro held v h
  refine ⟨.inr (.inr ⟨hguard, h.below.mono hrank⟩), fun v' hv => ?_⟩
  have hlift := h.lift (Nat.le_of_lt (Nat.lt_of_le_of_lt hrank hm))
  refine ⟨hlift.knows.evolves hv, List.mem_cons_of_mem _ h.enrollment, List.mem_cons_of_mem _ h.attempt,
    below_cons hlift.below fun _ => hm, ?_⟩
  have hexam := h.exam
  cases e with
  | ready => exact absurd rfl he
  | locked => exact covers_cons hexam
  | off => trivial

theorem spec_findExamForUpdate (hn : n ≤ 2) :
    (findExamForUpdate examId).Spec View.Evolves (Holding n e attemptId examId candidateId)
      fun _ => Holding 3 .locked attemptId examId candidateId := by
  refine Prog.Spec.bind (Q := fun _ => Holding 3 .locked attemptId examId candidateId) ?_ fun exam =>
    spec_one fun _ _ _ _ h => h
  intro held v h
  refine ⟨.inr (.inr ⟨rfl, h.below.mono hn⟩), fun v' hv => ?_⟩
  have hlift := h.lift (Nat.le_succ_of_le hn)
  exact ⟨hlift.knows.evolves hv, List.mem_cons_of_mem _ h.enrollment, List.mem_cons_of_mem _ h.attempt,
    below_cons hlift.below fun _ => Nat.lt_succ_self 2, ⟨_, List.mem_cons_self, by decide⟩⟩

theorem spec_lockAttempt {α : Type} (q : View → α) :
    (selectFor (.attempt attemptId) .update q).Spec View.Evolves
      (fun held v => held = [(.enrollment examId candidateId, .update)] ∧
        Knows v attemptId examId candidateId)
      fun _ => Holding 2 .ready attemptId examId candidateId := by
  rintro held v ⟨rfl, hknows⟩
  refine ⟨.inr (.inr ⟨rfl, below_cons (below_nil _) fun _ => Nat.one_pos⟩), fun v' hv => ?_⟩
  have hbelow : Below 2 [(Row.attempt attemptId, Mode.update),
      (.enrollment examId candidateId, .update)] :=
    below_cons (below_cons (below_nil _) fun _ => Nat.two_pos) fun _ => Nat.one_lt_two
  exact ⟨hknows.evolves hv, by simp, by simp, hbelow, .inr hbelow⟩

def Ends {α : Type} (H : List (Row × Mode) → View → Prop) (p : Txn α) : Prop :=
  p.Spec View.Evolves H fun _ _ _ => True

theorem ends_of_held {α : Type} {p : Txn α} {φ : α → Prop}
    (h : Held n e attemptId examId candidateId p φ) :
    Ends (Holding n e attemptId examId candidateId) p :=
  Prog.Spec.mono h (fun _ _ h => h) fun _ _ _ _ => trivial

def Seam (attemptId : String) (held : List (Row × Mode)) (v : View) : Prop :=
  ∃ examId candidateId, Holding 2 .ready attemptId examId candidateId held v

theorem spec_lockEnrollmentAndAttempt :
    (lockEnrollmentAndAttempt attemptId).Spec View.Evolves (fun held _ => held = []) fun _ =>
      Seam attemptId := by
  refine Prog.Spec.bind (Q := fun locator held v => held = [] ∧
    Knows v attemptId locator.examId locator.candidateId) ?_ fun locator => ?_
  · refine Prog.Spec.bind (Q := fun row held v => held = [] ∧ v.findAttempt attemptId = row)
      (fun held v hs v' _ => ⟨hs, rfl⟩) fun row => spec_one ?_
    rintro a held v rfl ⟨hheld, hfind⟩
    obtain ⟨db, -, ha⟩ := View.findAttempt_eq_some.mp hfind
    exact ⟨hheld, a, hfind, Db.findAttempt_id ha, rfl, rfl⟩
  refine Prog.Spec.bind
    (Q := fun _ held v => held = [(.enrollment locator.examId locator.candidateId, .update)] ∧
    Knows v attemptId locator.examId locator.candidateId) ?_ fun enrollment => ?_
  · refine Prog.Spec.bind
      (Q := fun _ held v => held = [(.enrollment locator.examId locator.candidateId, .update)] ∧
      Knows v attemptId locator.examId locator.candidateId) ?_ fun row => spec_one fun _ _ _ _ h => h
    rintro held v ⟨rfl, hknows⟩
    exact ⟨.inr (.inr ⟨rfl, below_nil _⟩), fun v' hv => ⟨rfl, hknows.evolves hv⟩⟩
  · refine Prog.Spec.bind (Q := fun _ => Seam attemptId) ?_ fun _ held v h => h
    refine Prog.Spec.bind (Q := fun _ => Seam attemptId) ?_ fun row => spec_one fun _ _ _ _ h => h
    exact (spec_lockAttempt _).mono (fun _ _ h => h) fun _ _ _ h => ⟨_, _, h⟩

/-- After the seam a transaction goes on under the locks of its attempt. -/
theorem ends_seam {α : Type} {p : Txn α}
    (h : ∀ examId candidateId, Ends (Holding 2 .ready attemptId examId candidateId) p) :
    Ends (fun held _ => held = []) (do lockEnrollmentAndAttempt attemptId; p) :=
  spec_lockEnrollmentAndAttempt.bind fun _ held v hs => by
    obtain ⟨examId, candidateId, hs⟩ := hs
    exact h examId candidateId held v hs

/-! ## The start seam -/

def Enrolled (v : View) (enrollmentId examId candidateId : String) : Prop :=
  ∃ db ∈ v.sittings, db.enrollment.id = enrollmentId ∧ db.enrollment.examId = examId ∧
    db.enrollment.candidateId = candidateId

theorem Enrolled.evolves {v v' : View} {enrollmentId : String}
    (h : Enrolled v enrollmentId examId candidateId) (hv : v.Evolves v') :
    Enrolled v' enrollmentId examId candidateId := by
  obtain ⟨db, hdb, hid, hexam, hcandidate⟩ := h
  obtain ⟨db', hdb', hremains⟩ := hv db hdb
  exact ⟨db', hdb', hremains.enrollment.trans hid, hremains.enrollmentExam.trans hexam,
    hremains.enrollmentCandidate.trans hcandidate⟩

theorem View.findEnrollment_enrolled {v : View} {enrollment : ExamEnrollment}
    (h : v.findEnrollment examId candidateId = some enrollment) :
    Enrolled v enrollment.id examId candidateId := by
  obtain ⟨_, db, _, hsplit, hfind, -⟩ := List.findSome?_eq_some_iff.mp h
  simp only [Db.findEnrollment, Option.ite_none_right_eq_some, Option.some.injEq] at hfind
  obtain ⟨⟨hexam, hcandidate⟩, rfl⟩ := hfind
  exact ⟨db, by simp [hsplit], rfl, hexam, hcandidate⟩

theorem View.findActiveByEnrollment_one {v : View} {enrollmentId : String}
    (h : Enrolled v enrollmentId examId candidateId) {a : ExamAttempt}
    (ha : a ∈ v.findActiveByEnrollment enrollmentId) :
    Knows v a.id examId candidateId ∧ ∀ b ∈ v.findActiveByEnrollment enrollmentId, b.id = a.id := by
  obtain ⟨db, hdb, hid, hexam, hcandidate⟩ := h
  have hof : ∀ b ∈ v.findActiveByEnrollment enrollmentId, b ∈ db.attempts ∧ b.Active := by
    intro b hb
    obtain ⟨hmem, hb⟩ := List.mem_filter.mp hb
    obtain ⟨other, hother, hb'⟩ := List.mem_flatMap.mp hmem
    obtain ⟨henrollment, hactive⟩ := of_decide_eq_true hb
    obtain rfl := v.enrollments other hother db hdb (by rw [← (v.owned other hother b hb').1,
        henrollment, hid])
    exact ⟨hb', hactive⟩
  obtain ⟨hmem, hactive⟩ := hof a ha
  obtain ⟨-, hbelongs⟩ := v.owned db hdb a hmem
  have hfind : db.findAttempt a.id = some a :=
    Rows.row_of_mem (fun a : ExamAttempt => a.id) (v.ids db hdb) hmem
  refine ⟨⟨a, View.findAttempt_eq_some.mpr ⟨db, hdb, hfind⟩, rfl, ?_, ?_⟩, ?_⟩
  · rw [← hbelongs.1, hexam]
  · rw [← hbelongs.2, hcandidate]
  · intro b hb
    obtain ⟨hb, hbactive⟩ := hof b hb
    exact v.single db hdb b hb a hmem hbactive hactive

theorem held_lockAttempts {rows : List ExamAttempt} (h : ∀ a ∈ rows, a.id = attemptId) :
    Held n e attemptId examId candidateId (lockAttempts rows) fun _ => True := by
  induction rows with
  | nil => exact held_done trivial
  | cons a rows ih =>
    have hrow : Own attemptId examId candidateId (.attempt a.id) := .inr (.inl (by rw [h a (by simp)]))
    exact (held_touch hrow).bind fun _ _ => ih fun b hb => h b (by simp [hb])

/-- Where the start seam ends: only the enrollment is held, or the active attempt with it. -/
def Entered (examId candidateId : String) (active : Option ExamAttempt) (held : List (Row × Mode))
    (v : View) : Prop :=
  match active with
  | none => held = [(.enrollment examId candidateId, .update)]
  | some a => Holding 2 .ready a.id examId candidateId held v

theorem spec_findActiveByEnrollment (enrollmentId : String) :
    (findActiveByEnrollment enrollmentId).Spec View.Evolves
      (fun held v => held = [(.enrollment examId candidateId, .update)] ∧
        Enrolled v enrollmentId examId candidateId)
      (Entered examId candidateId) := by
  refine Prog.Spec.bind (Q := fun rows held v => held = [(.enrollment examId candidateId, .update)] ∧
    ∀ a ∈ rows, Knows v a.id examId candidateId ∧ ∀ b ∈ rows, b.id = a.id) ?_ fun rows => ?_
  · rintro held v ⟨rfl, henrolled⟩ v' hv
    exact ⟨rfl, fun a ha => View.findActiveByEnrollment_one (henrolled.evolves hv) ha⟩
  refine Prog.Spec.bind (Q := fun _ => Entered examId candidateId rows.head?) ?_ fun _ held v h => h
  cases rows with
  | nil => exact fun held v h => h.1
  | cons a rows =>
    rintro held v ⟨hheld, hrows⟩
    obtain ⟨hknows, hsame⟩ := hrows a (by simp)
    refine (Prog.Spec.bind (spec_lockAttempt _) fun _ => ?_) held v ⟨hheld, hknows⟩
    have hrest : ∀ b ∈ rows, b.id = a.id := fun b hb => hsame b (List.mem_cons_of_mem _ hb)
    exact Prog.Spec.mono (held_lockAttempts hrest) (fun _ _ h => h) fun _ _ _ h => h.2

theorem spec_lockEnrollmentAndActiveAttempt :
    (lockEnrollmentAndActiveAttempt examId candidateId).Spec View.Evolves (fun held _ => held = [])
      (Entered examId candidateId) := by
  refine Prog.Spec.bind (Q := fun enrollment held v => held = [(.enrollment examId candidateId,
        .update)] ∧
    Enrolled v enrollment.id examId candidateId) ?_ fun enrollment => ?_
  · refine Prog.Spec.bind (Q := fun row held v => held = [(.enrollment examId candidateId, .update)] ∧
      v.findEnrollment examId candidateId = row) ?_ fun row => spec_one ?_
    · rintro held v rfl
      exact ⟨.inr (.inr ⟨rfl, below_nil _⟩), fun v' _ => ⟨rfl, rfl⟩⟩
    · rintro enrollment held v rfl ⟨hheld, hfind⟩
      exact ⟨hheld, View.findEnrollment_enrolled hfind⟩
  refine (spec_findActiveByEnrollment enrollment.id).bind fun active => ?_
  cases active with
  | none => exact fun held v h => h
  | some active =>
    refine (held_findAttemptForUpdate _).bind fun locked hlocked held v h => ?_
    change Holding 2 .ready locked.id examId candidateId held v
    rw [hlocked.id]
    exact h

/-! ## Restores and grants -/

theorem spec_compensateInterruption {a : ExamAttempt} (ha : a.id = attemptId) (exam : Exam)
    (snapshot : AttemptTimingPolicySnapshot) (interruptionId : String) (detectedAt now : Int)
    (fresh : FreshAdjustment) :
    (compensateInterruption a exam snapshot interruptionId detectedAt now fresh).Spec View.Evolves
      (Holding 3 .locked attemptId examId candidateId) fun _ =>
        Holding 5 .locked attemptId examId candidateId := by
  refine (held_select (φ := fun _ => True) fun _ _ => trivial).bind fun sitting _ => ?_
  refine (held_one (φ := fun _ => True) fun _ _ => trivial).bind fun db _ => ?_
  refine (keeps_ofExcept (φ := fun _ => True) fun _ _ => trivial).bind fun decision _ => ?_
  split
  · refine (spec_insert (.timeAdjustment _) rfl (Nat.le_succ 3) (Nat.lt_succ_self 4)
        (fun h => by cases h)).bind fun _ => ?_
    rw [ha]
    exact held_updateAttempt.bind fun _ _ held v h => h
  · exact fun held v h => h.lift (by decide)

theorem ends_restoreInterruptedAttempt (now : Int) (fresh : FreshAdjustment) :
    Ends (Holding 2 .ready attemptId examId candidateId)
      (restoreInterruptedAttempt attemptId now fresh) := by
  refine (held_findAttemptForUpdate _).bind fun a ha => ?_
  rw [ha.exam]
  refine (spec_findExamForUpdate (Nat.le_refl 2)).bind fun exam => ?_
  split
  · refine (held_one (φ := fun _ => True) fun _ _ => trivial).bind fun interruptionId _ => ?_
    refine (held_one (φ := fun _ => True) fun _ _ => trivial).bind fun interruptedAt _ => ?_
    refine (held_one (φ := fun _ => True) fun _ _ => trivial).bind fun snapshot _ => ?_
    have hown : ∀ row : Row, row.guard = some (.attempt a.id) → Own attemptId examId candidateId row :=
      fun row hrow => .inr (.inr (.inr (ha.id ▸ hrow)))
    refine (held_touch (hown _ rfl)).bind fun _ _ => ?_
    refine (spec_compensateInterruption ha.id exam snapshot interruptionId interruptedAt now
        fresh).bind fun decision => ?_
    refine (held_ensureAttemptDeadlineReconciled (by decide) (fun h => by cases h) now _).bind
      fun reconciled _ => ?_
    split
    · exact fun _ _ _ => trivial
    · rw [ha.id]
      exact ends_of_held (held_updateAttempt.bind fun _ _ => held_insert (.inr (.inr (.inr rfl))))
  · exact fun _ _ _ => trivial

theorem held_findInterruptionForUpdate {id : String} (hid : id = attemptId)
    (interruptionId : Option String) :
    Held n e attemptId examId candidateId (findInterruptionForUpdate id interruptionId) fun _ =>
      True := by
  cases interruptionId with
  | none => exact held_done trivial
  | some interruptionId => exact held_touch (.inr (.inr (.inr (by rw [← hid]; rfl))))

theorem spec_grantAttemptTime (input : GrantAttemptTimeInput) (freshId : String) :
    (grantAttemptTime attemptId input freshId).Spec View.Evolves
      (Holding 2 .ready attemptId examId candidateId)
      fun _ => Holding 5 .locked attemptId examId candidateId := by
  refine (held_findAttemptForUpdate _).bind fun a ha => ?_
  rw [ha.exam]
  refine (spec_findExamForUpdate (Nat.le_refl 2)).bind fun exam => ?_
  have hlift : ∀ held v, Holding 3 .locked attemptId examId candidateId held v →
      Holding 5 .locked attemptId examId candidateId held v :=
    fun _ _ h => h.lift (by decide)
  refine (held_select (φ := fun _ => True) fun _ _ => trivial).bind fun existing _ => ?_
  cases existing with
  | some existing => exact hlift
  | none =>
    refine (held_one (φ := fun _ => True) fun _ _ => trivial).bind fun snapshot _ => ?_
    refine (held_ensureAttemptDeadlineReconciled (Nat.le_refl 3)
        (fun h => by cases h) input.now _).bind fun reconciled _ => ?_
    split
    · exact hlift
    · refine (held_findInterruptionForUpdate ha.id input.interruptionId).bind fun _ _ => ?_
      refine (spec_insert (.timeAdjustment _) rfl (Nat.le_succ 3) (Nat.lt_succ_self 4)
          (fun h => by cases h)).bind fun _ => ?_
      exact held_updateAttempt.bind fun _ _ held v h => h

theorem ends_linkIncidentAction (operationId actionId : String) :
    Ends (Holding 5 .locked attemptId examId candidateId)
      (linkIncidentAction operationId actionId) := by
  refine (held_select (φ := fun _ => True) fun _ _ => trivial).bind fun replay _ => ?_
  split
  · exact fun _ _ _ => trivial
  · have hready : ExamLock.locked ≠ .ready := fun h => by cases h
    refine (spec_insert (.incidentEvent _) rfl (Nat.le_refl 5) (Nat.lt_succ_self 5) hready).bind
      fun _ => ?_
    exact (spec_insert (.incidentAction _) rfl (Nat.le_refl 6) (Nat.lt_succ_self 6) hready).mono
      (fun _ _ h => h) fun _ _ _ _ => trivial

/-! ## Starts -/

structure Creating (n : Nat) (examId candidateId : String) (held : List (Row × Mode)) : Prop where
  enrollment : (.enrollment examId candidateId, .update) ∈ held
  below : Below n held

theorem creating_touch {row : Row} (mode : Mode)
    (hrow : row = .enrollment examId candidateId ∨
      row.guard = some (.enrollment examId candidateId)) :
    (touch row mode).Keeps View.Evolves (fun held _ => Creating n examId candidateId held) fun _ =>
      True := by
  refine keeps_selectFor (fun held v h => ⟨?_, fun v' _ => ⟨List.mem_cons_of_mem _ h.enrollment,
        ?_⟩⟩) fun _ _ _ => trivial
  · rcases hrow with rfl | hguard
    · exact .inl (covers_update h.enrollment)
    · exact .inr (.inl ⟨_, hguard, h.enrollment⟩)
  · refine below_own h.below ?_
    rcases hrow with rfl | hguard
    · exact .inl ⟨_, h.enrollment⟩
    · exact .inr (by simp [hguard])

theorem creating_next (row : Row) {mode : Mode} (hguard : row.guard = none) (hrank : row.rank = n) :
    (touch row mode).Spec View.Evolves (fun held _ => Creating n examId candidateId held)
      fun _ held _ => Creating (n + 1) examId candidateId held := by
  intro held v h
  refine ⟨.inr (.inr ⟨hguard, h.below.mono (Nat.le_of_eq hrank.symm)⟩),
    fun v' _ => ⟨List.mem_cons_of_mem _ h.enrollment, ?_⟩⟩
  exact below_cons (h.below.mono (Nat.le_succ n)) fun _ => Nat.lt_succ_of_le (Nat.le_of_eq hrank)

theorem creating_done {a : Unit} :
    (pure a : Txn Unit).Keeps View.Evolves (fun held _ => Creating n examId candidateId held)
      fun _ => True :=
  fun _ _ h => ⟨trivial, h⟩

theorem ends_createNewAttempt (organizationId : String) {exam : Exam} {input : StartAttemptInput}
    (hexam : exam.id = input.examId) :
    Ends (fun held _ => held = [(.enrollment input.examId input.candidateId, .update)])
      (createNewAttempt organizationId exam input) := by
  have hadmission : ∀ {n : Nat}, (touch (.admission exam.id input.candidateId) .noKeyUpdate).Keeps
      View.Evolves
        (fun held _ => Creating n input.examId input.candidateId held) fun _ => True :=
    creating_touch _ (.inr (by rw [hexam]; rfl))
  have hgate : (ensureStartAdmission organizationId exam input.candidateId input.now).Keeps View.Evolves
      (fun held _ => Creating 1 input.examId input.candidateId held) fun _ => True := by
    refine (keeps_select (φ := fun _ => True) (fun _ _ _ h _ => h) fun _ _ _ => trivial).bind
      fun admits _ => ?_
    split
    · exact hadmission
    · exact creating_done
  have hconsume : (consumeActive exam input.candidateId).Keeps View.Evolves
      (fun held _ => Creating 3 input.examId input.candidateId held) fun _ => True := by
    unfold consumeActive
    split
    · exact hadmission
    · exact creating_done
  have henrollment : ∀ mode, (touch (.enrollment input.examId input.candidateId) mode).Keeps
      View.Evolves
        (fun held _ => Creating 3 input.examId input.candidateId held) fun _ => True :=
    fun mode => creating_touch mode (.inl rfl)
  have hcreate : (createNewAttempt organizationId exam input).Spec View.Evolves
      (fun held _ => Creating 1 input.examId input.candidateId held) fun _ _ _ => True := by
    refine hgate.bind fun _ _ => ?_
    refine (creating_next (.attempt _) rfl rfl).bind fun _ => ?_
    refine (creating_next (.exam _) rfl rfl).bind fun _ => ?_
    refine (henrollment .keyShare).bind fun _ _ => ?_
    refine hconsume.bind fun _ _ => ?_
    exact Prog.Spec.mono (henrollment .noKeyUpdate) (fun _ _ h => h) fun _ _ _ _ => trivial
  rintro held v rfl
  exact hcreate _ v ⟨by simp, below_cons (below_nil _) fun _ => Nat.one_pos⟩

theorem ends_startOrRestoreAttempt (organizationId : String) (input : StartAttemptInput) :
    Ends (fun held _ => held = []) (startOrRestoreAttempt organizationId input) := by
  refine Prog.Keeps.bind (φ := fun exam : Exam => exam.id = input.examId) ?_ fun exam hexam => ?_
  · refine (keeps_select (φ := fun row => ∀ exam, row = some exam → exam.id = input.examId)
        (fun _ _ _ h _ => h) ?_).bind
      fun row hrow => keeps_ofExcept fun exam hexam => hrow exam ((orThrow_eq_ok ..).mp hexam)
    intro held v _ exam hfind
    obtain ⟨_, db, _, -, hfind, -⟩ := List.findSome?_eq_some_iff.mp hfind
    simp only [Db.findExam, Option.ite_none_right_eq_some, Option.some.injEq] at hfind
    obtain ⟨hid, rfl⟩ := hfind
    exact hid
  refine spec_lockEnrollmentAndActiveAttempt.bind fun active => ?_
  cases active with
  | none => exact ends_createNewAttempt organizationId hexam
  | some locked =>
    dsimp only
    split
    · exact ends_restoreInterruptedAttempt input.now input.freshAdjustment
    · exact fun _ _ _ => trivial

/-! ## The transactions -/

theorem ends_autoSubmitAndGrade (attemptId : String) (now : Int) :
    Ends (fun held _ => held = []) (autoSubmitAndGrade attemptId now) := by
  refine ends_seam fun examId candidateId => ?_
  refine (held_findAttempt _).bind fun locked hlocked => ?_
  split
  · exact fun _ _ _ => trivial
  · rw [hlocked.exam]
    refine (spec_findExamForUpdate (Nat.le_refl 2)).bind fun exam => ?_
    refine (keeps_ofExcept (φ := fun _ => True) fun _ _ => trivial).bind fun expired _ => ?_
    split
    · exact fun _ _ _ => trivial
    · exact ends_of_held ((held_submitAttempt _).bind fun _ _ => held_gradeAttemptIdempotent)

theorem ends_runForceSubmitTransaction (attemptId operationId : String) (now : Int) :
    Ends (fun held _ => held = []) (runForceSubmitTransaction attemptId operationId now) := by
  refine ends_seam fun examId candidateId => ?_
  refine (held_findAttempt _).bind fun locked _ => ?_
  refine (keeps_ofExcept (φ := fun _ => True) fun _ _ => trivial).bind fun plan _ => ?_
  -- no exam lock follows the receipt
  have hreceipt : (insert (.commandReceipt (uuidText operationId))).Spec View.Evolves
      (Holding 2 .off attemptId examId candidateId)
        fun _ => Holding 4 .off attemptId examId candidateId :=
    spec_insert _ rfl (Nat.le_succ 2) (Nat.lt_succ_self 3) (fun h => by cases h)
  refine (hreceipt.mono (fun _ _ h => ⟨h.knows, h.enrollment, h.attempt, h.below,
        trivial⟩) fun _ _ _ h => h).bind fun _ => ?_
  split
  · exact ends_of_held ((held_submitAttempt _).bind fun _ _ => held_gradeAttemptIdempotent)
  · exact fun _ _ _ => trivial

theorem held_gradeAfterSubmit :
    Held n e attemptId examId candidateId (gradeAfterSubmit attemptId) fun _ => True := by
  refine (held_findAttemptForUpdate _).bind fun a _ => ?_
  split
  · exact held_done trivial
  · exact held_finalizeGrading

theorem ends_submitAndGradeAttempt (attemptId : String) (now : Int) :
    Ends (fun held _ => held = []) (submitAndGradeAttempt attemptId now) := by
  refine ends_seam fun examId candidateId => ?_
  refine (held_findAttempt _).bind fun locked _ => ?_
  have hlift : ∀ held v, Holding 2 .ready attemptId examId candidateId held v →
      Holding 3 .ready attemptId examId candidateId held v :=
    fun _ _ h => h.lift (Nat.le_succ 2)
  have hactive (resolution : SubmitInterruptionResolution) :
      Ends (Holding 2 .ready attemptId examId candidateId) (do
        let reconciled ← ensureAttemptDeadlineReconciled attemptId now resolution
        if reconciled.status = .graded ∨ reconciled.status = .submitted then pure ()
        else
          let _ ← submitAttempt attemptId resolution
          gradeAfterSubmit attemptId) := by
    refine Prog.Spec.mono (ends_of_held (n := 3) (φ := fun _ => True) ?_) hlift fun _ _ _ h => h
    refine (held_ensureAttemptDeadlineReconciled (Nat.le_refl 3) (fun h => by cases h) now _).bind
      fun reconciled _ => ?_
    split
    · exact held_done trivial
    · exact (held_submitAttempt _).bind fun _ _ => held_gradeAfterSubmit
  split
  · exact ends_of_held held_gradeAfterSubmit
  · exact hactive _
  · exact hactive _
  · exact fun _ _ _ => trivial

theorem ends_takeAttempt (attemptId : String) (now : Int) :
    Ends (fun held _ => held = []) (takeAttempt attemptId now) := by
  refine ends_seam fun examId candidateId => ?_
  refine Prog.Spec.mono (ends_of_held (n := 3) (e := .ready) (φ := fun _ => True) ?_)
    (fun _ _ h => h.lift (Nat.le_succ 2)) fun _ _ _ h => h
  refine (held_findAttempt _).bind fun preRead _ => ?_
  exact (held_ensureAttemptDeadlineReconciled (Nat.le_refl 3) (fun h => by cases h) now _).bind
    fun _ _ => held_done trivial

theorem ends_saveAttemptAnswer [Host] (request : SaveAnswerRequest) (now : Int)
    (validateAnswerForQuestion : QuestionSnapshot → CanonicalizeAnswer) :
    Ends (fun held _ => held = []) (saveAttemptAnswer request now validateAnswerForQuestion) := by
  refine ends_seam fun examId candidateId => ?_
  refine Prog.Spec.mono (ends_of_held (n := 3) (e := .ready) (φ := fun _ => True) ?_)
    (fun _ _ h => h.lift (Nat.le_succ 2)) fun _ _ _ h => h
  refine (held_findAttempt _).bind fun preAttempt _ => ?_
  refine (held_prepareReconciledAttemptMutation (Nat.le_refl 3) (fun h => by cases h) now _).bind
    fun effectiveDeadline _ => ?_
  exact held_saveAnswer rfl effectiveDeadline now validateAnswerForQuestion

theorem ends_runGrantTransaction (input : GrantAttemptTimeInput) (freshId : String) :
    Ends (fun held _ => held = []) (runGrantTransaction input freshId) := by
  refine ends_seam fun examId candidateId => ?_
  refine (spec_grantAttemptTime input freshId).bind fun actionId => ?_
  split
  · exact ends_linkIncidentAction _ _
  · exact fun _ _ _ => trivial

theorem ends_markDisrupted (attemptId : String) (scannerTickNow heartbeatTimeoutSeconds : Int)
    (freshId : String) :
    Ends (fun held _ => held = [])
      (markDisrupted attemptId scannerTickNow heartbeatTimeoutSeconds freshId) := by
  have hguarded : ∀ {row : Row} {mode : Mode}, row = .attempt attemptId ∨
      row.guard = some (.attempt attemptId) →
      (touch row mode).Keeps View.Evolves (fun held _ => (Row.attempt attemptId,
          Mode.update) ∈ held) fun _ => True := by
    intro row mode hrow
    refine keeps_selectFor (fun held v h => ⟨?_, fun v' _ => List.mem_cons_of_mem _ h⟩) fun _ _ _ =>
      trivial
    rcases hrow with rfl | hguard
    · exact .inl (covers_update h)
    · exact .inr (.inl ⟨_, hguard, h⟩)
  refine Prog.Spec.bind (Q := fun _ held _ => (Row.attempt attemptId, Mode.update) ∈ held) ?_
    fun row => ?_
  · rintro held v rfl
    exact ⟨.inr (.inr ⟨rfl, below_nil _⟩), fun v' _ => List.mem_cons_self⟩
  split
  · exact fun _ _ _ => trivial
  · split
    · exact fun _ _ _ => trivial
    · split
      · exact fun _ _ _ => trivial
      · split
        · exact fun _ _ _ => trivial
        · refine (hguarded (.inr rfl)).bind fun _ _ => (hguarded (.inr rfl)).bind fun _ _ => ?_
          exact Prog.Spec.mono (hguarded (.inl rfl)) (fun _ _ h => h) fun _ _ _ _ => trivial

theorem ends_examWrite (examId : String) :
    Ends (fun held _ => held = []) (do
      let _ ← findExamForUpdate examId
      touch (.exam examId) .noKeyUpdate) := by
  refine Prog.Spec.bind (Q := fun _ held _ => (Row.exam examId, Mode.update) ∈ held) ?_
    fun exam held v h =>
    ⟨.inl (covers_update h), fun _ _ => trivial⟩
  refine Prog.Spec.bind (Q := fun _ held _ => (Row.exam examId, Mode.update) ∈ held) ?_ fun row =>
    spec_one fun _ _ _ _ h => h
  rintro held v rfl
  exact ⟨.inr (.inr ⟨rfl, below_nil _⟩), fun v' _ => List.mem_cons_self⟩

theorem AttemptCommand.ends [Host] (c : AttemptCommand) : Ends (fun held _ => held = []) c.txn := by
  cases c with
  | start organizationId input => exact ends_startOrRestoreAttempt organizationId input
  | take attemptId now => exact ends_takeAttempt attemptId now
  | save request now validateAnswerForQuestion =>
    exact ends_saveAttemptAnswer request now validateAnswerForQuestion
  | heartbeat attemptId =>
    rintro held v rfl
    exact ⟨.inr (.inr ⟨rfl, below_nil _⟩), fun _ _ => trivial⟩
  | submit attemptId now => exact ends_submitAndGradeAttempt attemptId now
  | forceSubmit attemptId operationId now =>
    exact ends_runForceSubmitTransaction attemptId operationId now
  | deadlineScan attemptId now => exact ends_autoSubmitAndGrade attemptId now
  | heartbeatScan attemptId now heartbeatTimeoutSeconds freshId =>
    exact ends_markDisrupted attemptId now heartbeatTimeoutSeconds freshId
  | restore attemptId now fresh =>
    exact ends_seam fun examId candidateId => ends_restoreInterruptedAttempt now fresh
  | grant input freshId => exact ends_runGrantTransaction input freshId
  | grade attemptId questionId =>
    exact ends_seam fun examId candidateId => ends_of_held (held_gradeManualQuestion questionId)
  | examWrite examId => exact ends_examWrite examId

end

/-! ## Every interleaving -/

theorem Row.Main.guard {row : Row} (h : row.Main) : row.guard = none := by
  cases row <;> first | rfl | exact absurd h id

theorem Row.Main.before {row other : Row} (h : row.Main) (hother : other.Main)
    (hrank : other.rank < row.rank) : other.Before row := by
  cases row <;> first | exact absurd h id | skip
  all_goals cases other <;> first | exact absurd hother id | exact trivial | skip
  all_goals exact absurd hrank (by simp [Row.rank])

/-- A row that a transaction may lock next, and holds in no mode, comes after
every row of the order that it holds. -/
theorem admits_before {held : List (Row × Mode)} {row other : Row} {mode a : Mode}
    (h : Admits held row mode) (hmain : row.Main) (hnew : ∀ a, (row, a) ∉ held)
    (hother : (other, a) ∈ held) (hothermain : other.Main) : other.Before row := by
  rcases h with ⟨b, hb, -⟩ | ⟨g, hg, -⟩ | ⟨-, hbelow⟩
  · exact absurd hb (hnew b)
  · exact absurd (hmain.guard.symm.trans hg) (by simp)
  · exact hmain.before hothermain (hbelow (other, a) hother hothermain.guard)

theorem admits_covered {held : List (Row × Mode)} {row : Row} {mode a : Mode}
    (h : Admits held row mode) (hmain : row.Main) (hheld : (row, a) ∈ held) :
    Covers held row mode := by
  rcases h with hcovers | ⟨g, hg, -⟩ | ⟨hguard, hbelow⟩
  · exact hcovers
  · exact absurd (hmain.guard.symm.trans hg) (by simp)
  · exact absurd (hbelow (row, a) hheld hguard) (Nat.lt_irrefl _)

section
variable [Host] {ι : Type} (commands : ι → AttemptCommand) (views : ι → View)
    {m : Machine ι View Row EngineError Unit}

theorem runs_disciplined (h : Runs View.Evolves (begin (fun i => (commands i).txn) views) m) :
    Disciplined View.Evolves m :=
  (begin_disciplined fun i s => (commands i).ends [] s rfl).runs h

/-- In every interleaving the commands lock Enrollment, then Attempt, then Exam;
an exam that is held is locked for update only if it is held so already; and no
cycle of commands waits. -/
theorem locks_in_order (h : Runs View.Evolves (begin (fun i => (commands i).txn) views) m) :
    (∀ i row mode, Requests m i row mode → row.Main → (∀ a, (row, a) ∉ (m i).held) →
      ∀ other a, (other, a) ∈ (m i).held → other.Main → other.Before row) ∧
    (∀ i examId a, Requests m i (.exam examId) .update → (.exam examId, a) ∈ (m i).held →
      (.exam examId, .update) ∈ (m i).held) ∧
    ∀ i, ¬ Relation.TransGen (Waits m) i i := by
  have hsound := runs_disciplined commands views h
  have hadmits : ∀ {i row mode}, Requests m i row mode → Admits (m i).held row mode := by
    rintro i row mode ⟨next, hrest⟩
    have hclimbs := hsound.climbs i
    rw [hrest] at hclimbs
    exact hclimbs.1
  refine ⟨?_, ?_, hsound.acyclic⟩
  · intro i row mode hreq hmain hnew other a hother hothermain
    exact admits_before (hadmits hreq) hmain hnew hother hothermain
  · intro i examId a hreq hheld
    obtain ⟨b, hb, hle⟩ := admits_covered (hadmits hreq) trivial hheld
    have hupdate : b = .update := by cases b <;> first | rfl | exact absurd hle (by decide)
    exact hupdate ▸ hb

end

/-! ## The engine's runs -/

theorem reachable_belongs [Host] {db : Db} (h : Reachable db) :
    ∀ attemptId a, db.findAttempt attemptId = some a → Belongs db a := by
  refine h.invariant (P := fun db => ∀ attemptId a, db.findAttempt attemptId = some a →
    Belongs db a) ?_ ?_
  · intro db hinit attemptId a ha
    rw [hinit.findAttempt] at ha
    cases ha
  · intro now db db' hbelongs hc attemptId a ha
    rcases hc.row_cases ha with ⟨input, hcreates, rfl⟩ | ⟨b, hb, hstep⟩
    · exact hcreates.belongs
    · have hremains := hc.remains
      have hsame := hstep.sameSitting
      obtain ⟨hexam, hcandidate⟩ := hbelongs attemptId b hb
      exact ⟨by rw [hremains.enrollmentExam, hexam,
          hsame.exam], by rw [hremains.enrollmentCandidate, hcandidate, hsame.candidate]⟩

def View.ofStores [Host] (stores : List Db) (admissions : Admission.Admissions)
    (incidentOperations : List String) (hreach : ∀ db ∈ stores, Reachable db)
    (hattempts : ∀ db ∈ stores, ∀ db' ∈ stores, ∀ attemptId a a',
        db.findAttempt attemptId = some a → db'.findAttempt attemptId = some a' → a = a')
    (henrollments : ∀ db ∈ stores, ∀ db' ∈ stores, db.enrollment.id = db'.enrollment.id → db = db') :
    View where
  sittings := stores
  admissions := admissions
  incidentOperations := incidentOperations
  attempts := hattempts
  enrollments := henrollments
  ids db hdb := (hreach db hdb).attemptsSound.ids
  owned db hdb a ha := by
    have hsound := (hreach db hdb).attemptsSound
    have hfind : db.findAttempt a.id = some a :=
      Rows.row_of_mem (fun a : ExamAttempt => a.id) hsound.ids ha
    exact ⟨hsound.owned a.id a hfind, reachable_belongs (hreach db hdb) a.id a hfind⟩
  single db hdb a ha b hb hactive hbactive := by
    have hsound := (hreach db hdb).attemptsSound
    have hfind : ∀ a ∈ db.attempts, db.findAttempt a.id = some a :=
      fun a ha => Rows.row_of_mem (fun a : ExamAttempt => a.id) hsound.ids ha
    exact hsound.single a.id b.id a b (hfind a ha) (hfind b hb) hactive hbactive

/-! ## A submission, a grade and an edit -/

def sampleView : View :=
  @View.ofStores sampleHost [sampleDb] Table.empty [] (by simpa using sampleDb_reachable)
    (by
      intro db hdb db' hdb' attemptId a a' ha ha'
      obtain rfl := List.mem_singleton.mp hdb
      obtain rfl := List.mem_singleton.mp hdb'
      exact Option.some.inj (ha.symm.trans ha'))
    (by
      intro db hdb db' hdb' _
      exact (List.mem_singleton.mp hdb).trans (List.mem_singleton.mp hdb').symm)

inductive Client
  | submits | grades | edits
  deriving DecidableEq

def sampleCommands : Client → AttemptCommand
  | .submits => .submit "attempt" 1000
  | .grades => .grade "attempt" "q2"
  | .edits => .examWrite "exam"

/-- The grade has found its attempt, and the submission has locked all three rows. -/
def sampleMachine : Machine Client View Row EngineError Unit :=
  let m := begin (fun c => @AttemptCommand.txn sampleHost (sampleCommands c)) fun _ => sampleView
  let found := Function.update m .grades (m .grades).advance
  Function.update found .submits (Task.advance^[6] (found .submits))

theorem locks_in_order_sample :
    Waits sampleMachine .grades .submits ∧ Waits sampleMachine .edits .submits ∧
      ¬ Relation.TransGen (Waits sampleMachine) .submits .submits := by
  let _ : Host := sampleHost
  have hrefl : ∀ v : View, v.Evolves v := fun v db hdb => ⟨db, hdb, .refl db⟩
  have hrun : Runs View.Evolves (begin (fun c => (sampleCommands c).txn) fun _ => sampleView)
      sampleMachine :=
    (advance_runs hrefl fun _ _ => rfl).trans (advances_run hrefl (fun j _ => by cases j <;> rfl) 6)
  have hheld : (sampleMachine .submits).held =
      [(.exam "exam", .share), (.attempt "attempt", .update),
        (.enrollment "exam" "candidate", .update)] := by
    decide +kernel
  have hgrades : (sampleMachine .grades).request = some (.enrollment "exam" "candidate",
    .update) := by decide +kernel
  have hedits : (sampleMachine .edits).request = some (.exam "exam", .update) := by decide +kernel
  refine ⟨⟨by decide, _, _, .update, requests_of_request hgrades, by simp [hheld], by decide⟩,
    ⟨by decide, _, _, .share, requests_of_request hedits, by simp [hheld], by decide⟩, ?_⟩
  exact (locks_in_order sampleCommands (fun _ => sampleView) hrun).2.2 .submits

end ExamSystem.Locking
