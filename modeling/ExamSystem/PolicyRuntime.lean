import ExamSystem.Chronology

/-!
# Accepted policies at run time

The validator accepts a policy once, at publish; the resolvers of the running
exam read it many times, each with checks of its own. None of their errors is
reached: not under the accepted policy, and not after the schedule edits,
extensions and grants that follow.
-/

namespace ExamSystem

open Tx

/-! ## What the resolvers need -/

/-- The caps that a policy needs: two positive ones in order for bounded grace,
none for the others. -/
def AttemptTimingPolicySnapshot.Capped (snapshot : AttemptTimingPolicySnapshot) : Prop :=
  match snapshot.policy with
  | .boundedGrace => ∃ perIncident perAttempt, snapshot.perIncidentCapSeconds = some perIncident ∧
      snapshot.perAttemptAggregateCapSeconds = some perAttempt ∧ 0 < perIncident ∧ 0 < perAttempt ∧
      perIncident ≤ perAttempt
  | _ => snapshot.perIncidentCapSeconds = none ∧ snapshot.perAttemptAggregateCapSeconds = none

theorem effectiveDeadline_ok_iff {closeAt deadlineAt : Option Int} :
    (∃ d, computeEffectiveDeadline closeAt deadlineAt = .ok d) ↔
    (deadlineAt ≠ none → closeAt ≠ none) := by
  cases closeAt <;> cases deadlineAt <;> simp [computeEffectiveDeadline]

theorem zeroGrant_ok_iff {input : EvaluateInterruptionPolicyInput} {reasonCode : String} :
    (∃ decision, zeroGrant input reasonCode = .ok decision) ↔
      input.snapshot.perIncidentCapSeconds = none ∧
      input.snapshot.perAttemptAggregateCapSeconds = none := by
  simp only [zeroGrant, bind_eq_ok, require_eq_ok, exists_const, pure_eq_ok, exists_and_left,
    exists_eq', and_true]

theorem evaluate_ok_iff {input : EvaluateInterruptionPolicyInput} :
    (∃ decision, evaluateInterruptionTimePolicy input = .ok decision) ↔ input.snapshot.Capped ∧
      (input.snapshot.policy = .boundedGrace → input.beforeDeadline ≠ none ∧
        input.examCloseAt ≠ none) := by
  unfold evaluateInterruptionTimePolicy AttemptTimingPolicySnapshot.Capped
  cases hp : input.snapshot.policy with
  | strict | operatorIncident => simpa using zeroGrant_ok_iff
  | boundedGrace =>
    cases hi : input.snapshot.perIncidentCapSeconds with
    | none => simp
    | some perIncident =>
      cases ha : input.snapshot.perAttemptAggregateCapSeconds with
      | none => simp
      | some perAttempt =>
        simp only [bind_eq_ok, require_eq_ok, exists_const, orThrow_eq_ok, pure_eq_ok, forall_const]
        constructor
        · rintro ⟨_, hcaps, before, hbefore, close, hclose, -⟩
          exact ⟨⟨_, _, rfl, rfl, hcaps⟩, by simp [hbefore], by simp [hclose]⟩
        · rintro ⟨⟨_, _, hi', ha', hcaps⟩, hbefore, hclose⟩
          obtain ⟨before, hbefore⟩ := Option.ne_none_iff_exists'.mp hbefore
          obtain ⟨close, hclose⟩ := Option.ne_none_iff_exists'.mp hclose
          obtain rfl := Option.some.inj hi'
          obtain rfl := Option.some.inj ha'
          exact ⟨_, hcaps, before, hbefore, close, hclose, rfl⟩

theorem resolve_capped {exam : Exam} {snapshot : AttemptTimingPolicySnapshot}
    (h : resolveAttemptTimingPolicySnapshot exam = .ok snapshot) :
    snapshot.Capped ∧ snapshot.policy = exam.interruptionTimePolicy.getD .strict := by
  unfold resolveAttemptTimingPolicySnapshot at h
  unfold AttemptTimingPolicySnapshot.Capped
  cases hp : exam.interruptionTimePolicy.getD .strict with
  | boundedGrace =>
    rw [hp] at h
    dsimp only at h
    split at h
    · simp only [bind_eq_ok, require_eq_ok, exists_const, pure_eq_ok] at h
      obtain ⟨⟨hi, ha⟩, hle, rfl⟩ := h
      exact ⟨⟨_, _, rfl, rfl, hi, ha, hle⟩, rfl⟩
    · cases h
  | strict | operatorIncident =>
    rw [hp] at h
    simp only [bind_eq_ok, require_eq_ok, exists_const, pure_eq_ok] at h
    obtain ⟨-, rfl⟩ := h
    exact ⟨⟨rfl, rfl⟩, rfl⟩

/-- What the resolvers need of the exam: a snapshot, no synchronized sitting, and
a window whose ends are set when attempts have deadlines of their own. -/
structure Exam.Configured (exam : Exam) : Prop where
  snapshot : ∃ snapshot, resolveAttemptTimingPolicySnapshot exam = .ok snapshot
  mode : exam.timingMode ≠ .timedSync
  window : exam.timingMode = .timedWindow → exam.durationMinutes ≠ none ∧ exam.closeAt ≠ none
  bounded : exam.interruptionTimePolicy.getD .strict = .boundedGrace → exam.timingMode = .timedWindow

theorem Exam.ValidPolicy.configured {exam : Exam} (h : exam.ValidPolicy) : exam.Configured := by
  have hmatrix := matrix_eq_nil.mp (validPolicy_matrix h)
  simp only [resolveExamPolicy] at hmatrix
  refine ⟨validPolicy_snapshot (assertExamPolicyValid_eq_ok.mpr h), ?_, ?_, ?_⟩
  · intro hmode
    simp [hmode] at hmatrix
  · intro hmode
    simpa [hmode] using hmatrix
  · intro hbounded
    cases hmode : exam.timingMode with
    | timedWindow => rfl
    | timedSync => simp [hmode] at hmatrix
    | deadline | untimed => simp [hmode, hbounded] at hmatrix

/-- The same rules with another window, which has a close if attempts have
deadlines of their own. -/
theorem Exam.Configured.window_moved {exam exam' : Exam} (h : exam.Configured)
    (hsnapshot : resolveAttemptTimingPolicySnapshot exam' = resolveAttemptTimingPolicySnapshot exam)
    (hmode : exam'.timingMode = exam.timingMode)
    (hduration : exam'.durationMinutes = exam.durationMinutes)
    (hpolicy : exam'.interruptionTimePolicy = exam.interruptionTimePolicy)
    (hclose : exam.timingMode = .timedWindow → exam.closeAt ≠ none → exam'.closeAt ≠ none) :
    exam'.Configured := by
  refine ⟨hsnapshot ▸ h.snapshot, hmode ▸ h.mode, fun htimed => ?_, ?_⟩
  · rw [hmode] at htimed
    obtain ⟨hset, hclosed⟩ := h.window htimed
    exact ⟨hduration ▸ hset, hclose htimed hclosed⟩
  · rw [hpolicy, hmode]
    exact h.bounded

theorem NoEarlier.ne_none {t t' : Option Int} (h : NoEarlier t t') (hne : t ≠ none) : t' ≠ none := by
  rcases h with rfl | ⟨_, u', -, rfl, -⟩
  · exact hne
  · exact Option.some_ne_none u'

theorem Exam.Kept.configured {exam exam' : Exam} (hk : exam.Kept exam') (h : exam.Configured) :
    exam'.Configured := by
  refine h.window_moved ?_ ?_ ?_ ?_ fun _ => hk.closeAt.ne_none
  · rw [hk.row]
    rfl
  · rw [hk.row]
  · rw [hk.row]
  · rw [hk.row]

def Exam.Ready (exam : Exam) : Prop := exam.status ≠ .draft → exam.Configured

theorem Exam.Revised.ready {now : Option Int} {exam exam' : Exam} (hr : exam.Revised now exam')
    (h : exam.Ready) :
    exam'.Ready := by
  intro hlive
  cases hr with
  | same => exact h hlive
  | redrafted _ _ hdraft => exact absurd hdraft hlive
  | published _ _ _ hvalid => exact hvalid.configured
  | pending hp _ hrow hclose =>
    have hconfigured : exam.Configured := by
      refine h ?_
      rw [hp]
      decide
    refine hconfigured.window_moved ?_ ?_ ?_ ?_ fun hmode hset hnone => ?_
    · rw [hrow]
      rfl
    · rw [hrow]
    · rw [hrow]
    · rw [hrow]
    · rcases hclose hnone with hcleared | huntimed
      · exact hset hcleared
      · rw [hmode] at huntimed
        cases huntimed
  | kept hk => exact hk.configured (h hk.before)

/-! ## What the resolvers need of an attempt -/

/-- The deadline and the snapshot of an attempt fit each other and the close. -/
structure ExamAttempt.Timed (closeAt : Option Int) (a : ExamAttempt) : Prop where
  closes : a.deadlineAt ≠ none → closeAt ≠ none
  policy : ∃ snapshot, a.interruptionTimingPolicySnapshot = some snapshot ∧ snapshot.Capped ∧
    (snapshot.policy = .boundedGrace → a.deadlineAt ≠ none)

/-- The evaluation of a restore that found the attempt interrupted at
`detectedAt`, and has granted `prior` seconds before. -/
def ExamAttempt.evaluation (a : ExamAttempt) (snapshot : AttemptTimingPolicySnapshot)
    (closeAt : Option Int) (detectedAt decisionNow prior : Int) : EvaluateInterruptionPolicyInput :=
  { snapshot := snapshot
    detectedAt := detectedAt
    decisionNow := decisionNow
    beforeDeadline := a.deadlineAt
    examCloseAt := closeAt
    priorBoundedGraceAddedSeconds := prior }

/-- At every instant the deadline of the attempt is known, and a restore of it
is evaluated. -/
structure ExamAttempt.Resolves (closeAt : Option Int) (a : ExamAttempt) : Prop where
  deadline : ∃ d, computeEffectiveDeadline closeAt a.deadlineAt = .ok d
  expiry : ∀ now, ∃ b, isAttemptDeadlineExpired closeAt a.deadlineAt now = .ok b
  compensation : ∃ snapshot, a.interruptionTimingPolicySnapshot = some snapshot ∧
    ∀ detectedAt decisionNow prior, ∃ decision,
      evaluateInterruptionTimePolicy (a.evaluation snapshot closeAt detectedAt decisionNow prior) =
        .ok decision

theorem ExamAttempt.Timed.resolves {closeAt : Option Int} {a : ExamAttempt} (h : a.Timed closeAt) :
    a.Resolves closeAt := by
  obtain ⟨d, hd⟩ := effectiveDeadline_ok_iff.mpr h.closes
  obtain ⟨snapshot, hsnapshot, hcapped, hbounded⟩ := h.policy
  refine ⟨⟨d, hd⟩, fun now => ?_, snapshot, hsnapshot, fun detectedAt decisionNow prior => ?_⟩
  · rw [isAttemptDeadlineExpired, hd]
    exact ⟨_, rfl⟩
  · exact evaluate_ok_iff.mpr ⟨hcapped, fun hp => ⟨hbounded hp, h.closes (hbounded hp)⟩⟩

theorem ExamAttempt.Timed.later {closeAt closeAt' : Option Int} {a : ExamAttempt} (h : a.Timed closeAt)
    (hle : NoEarlier closeAt closeAt') : a.Timed closeAt' :=
  ⟨fun hd => hle.ne_none (h.closes hd), h.policy⟩

theorem BornTimed.timed {exam : Exam} {now : Int} {syncDeadline : Option Int} {a : ExamAttempt}
    (h : BornTimed exam now syncDeadline a) (hexam : exam.Configured) : a.Timed exam.closeAt := by
  obtain ⟨snapshot, hresolve, hsnapshot⟩ := h.policy
  obtain ⟨hcapped, hpolicy⟩ := resolve_capped hresolve
  refine ⟨fun hd => ?_, snapshot, hsnapshot, hcapped, fun hbounded => ?_⟩
  · -- Only a personal window gives a deadline, and that one is closed.
    rw [h.deadline] at hd
    cases hmode : exam.timingMode with
    | timedWindow => exact (hexam.window hmode).2
    | timedSync => exact absurd hmode hexam.mode
    | deadline | untimed => simp [startDeadline, hmode] at hd
  · have hmode := hexam.bounded (hpolicy ▸ hbounded)
    obtain ⟨minutes, hminutes⟩ := Option.ne_none_iff_exists'.mp (hexam.window hmode).1
    rw [h.deadline]
    simp [startDeadline, hmode, hminutes]

/-! ## Rows under commands -/

/-- The attempt keeps its snapshot, and a deadline that it has is only moved. -/
structure SameTiming (a a' : ExamAttempt) : Prop where
  snapshot : a'.interruptionTimingPolicySnapshot = a.interruptionTimingPolicySnapshot
  deadline : a'.deadlineAt = none ↔ a.deadlineAt = none

theorem SameTiming.refl (a : ExamAttempt) : SameTiming a a := ⟨rfl, Iff.rfl⟩

theorem SameTiming.trans {a a' a'' : ExamAttempt} (h : SameTiming a a') (h' : SameTiming a' a'') :
    SameTiming a a'' :=
  ⟨h'.snapshot.trans h.snapshot, h'.deadline.trans h.deadline⟩

theorem SameTiming.timed {closeAt : Option Int} {a a' : ExamAttempt} (h : SameTiming a a')
    (ht : a.Timed closeAt) :
    a'.Timed closeAt := by
  obtain ⟨snapshot, hsnapshot, hcapped, hbounded⟩ := ht.policy
  refine ⟨fun hd => ht.closes (h.deadline.not.mp hd), snapshot, h.snapshot.trans hsnapshot, hcapped,
    fun hp => ?_⟩
  exact h.deadline.not.mpr (hbounded hp)

/-- A step that creates no attempt takes every row from one with the same timing. -/
def SameTimings (db db' : Db) : Prop :=
  ∀ k a', db'.findAttempt k = some a' → ∃ a, db.findAttempt k = some a ∧ SameTiming a a'

theorem SameTimings.refl (db : Db) : SameTimings db db := fun _ a' ha' => ⟨a', ha', .refl a'⟩

theorem SameTimings.trans {db db' db'' : Db} (h : SameTimings db db') (h' : SameTimings db' db'') :
    SameTimings db db'' := by
  intro k a'' ha''
  obtain ⟨a', ha', ht'⟩ := h' k a'' ha''
  obtain ⟨a, ha, ht⟩ := h k a' ha'
  exact ⟨a, ha, ht.trans ht'⟩

def Db.Timed (db : Db) : Prop := ∀ k a, db.findAttempt k = some a → a.Timed db.exam.closeAt

theorem SameTimings.timed {db db' : Db} (h : SameTimings db db') (hexam : db'.exam = db.exam)
    (ht : db.Timed) : db'.Timed := by
  intro k a' ha'
  obtain ⟨a, ha, hsame⟩ := h k a' ha'
  rw [hexam]
  exact hsame.timed (ht k a ha)

section
variable [Host] {now : Int} {db db' : Db}

theorem RowStep.sameTiming {a a' : ExamAttempt} (h : RowStep now db db' a a') : SameTiming a a' := by
  cases h with
  | extend hadj _ =>
    refine ⟨rfl, ?_⟩
    rw [hadj.before]
    exact ⟨fun h => (by cases h), fun h => (by cases h)⟩
  | same => exact .refl a
  | save _ _ _ _ _ => exact ⟨rfl, Iff.rfl⟩
  | touch _ => exact ⟨rfl, Iff.rfl⟩
  | detect _ _ => exact ⟨rfl, Iff.rfl⟩
  | restore _ => exact ⟨rfl, Iff.rfl⟩
  | freeze _ _ _ _ => exact ⟨rfl, Iff.rfl⟩
  | close _ _ => exact ⟨rfl, Iff.rfl⟩

theorem Change.sameTimings (h : Change now db db') (hsame : SameAttempts db db') :
    SameTimings db db' := by
  intro k a' ha'
  rcases h.row_cases ha' with ⟨input, -, rfl⟩ | ⟨a, ha, hstep⟩
  · have hlength := congrArg List.length hsame.rows
    simp [Db.create] at hlength
  · exact ⟨a, ha, hstep.sameTiming⟩

theorem Settles.sameTimings {a : ExamAttempt} {t : Int} (h : Settles db a t now db') :
    SameTimings db db' := by
  have hfreeze : ∀ {reason : Option SubmissionReason} {events : List AttemptInterruptionEvent},
      Freezes db a events → SameTimings db (db.freeze a t reason events) := by
    intro reason events hf
    have hchange : Change now db (db.freeze a t reason events) := .quiet (.freeze hf)
    exact hchange.sameTimings (sameAttempts_freeze db a t reason events)
  cases h with
  | held hf _ _ => exact hfreeze hf
  | closed hf _ _ hc =>
    exact (hfreeze hf).trans (Change.sameTimings (.quiet (.close hc)) (sameAttempts_close _ _ _ now))

omit [Host] in
theorem Db.Timed.create {a : ExamAttempt} {input : StartAttemptInput} {syncDeadline : Option Int}
    (h : db.Timed) (hexam : db.exam.Ready) (hc : Creates db a input)
    (hwindow : checkStartWindow db.exam now = .ok syncDeadline)
    (htimed : BornTimed db.exam now syncDeadline a) : (db.create a).Timed := by
  obtain ⟨hlive, -, -⟩ := checkStartWindow_ok hwindow
  have hne : db.exam.status ≠ .draft := by
    rcases hlive with hs | hs <;> rw [hs] <;> decide
  intro k b hb
  rw [show (db.create a).findAttempt k = _ from Db.findAttempt_append hc.fresh k] at hb
  split at hb
  · obtain rfl := Option.some.inj hb
    exact htimed.timed (hexam hne)
  · exact h k b hb

theorem Move.timed {target : Option String} (hm : Move now target db db') (hexam : db.exam.Ready)
    (h : db.Timed) :
    db'.Timed := by
  have hquiet : Quiet now db db' → SameAttempts db db' → db'.Timed := fun hq hsame =>
    (Change.sameTimings (.quiet hq) hsame).timed hm.exam h
  cases hm with
  | stay => exact h
  | create hc _ hwindow htimed => exact h.create hexam hc hwindow htimed
  | touch ha hs =>
    exact hquiet (.touch ha hs) ⟨sameAttempts_update db _ (f := (·.touch now)) fun _ => rfl, rfl⟩
  | save hw _ _ =>
    exact hquiet (.save hw) ⟨sameAttempts_update db _ (f := (·.recordSave _ _)) fun _ => rfl, rfl⟩
  | detect ha hs hfresh hevent =>
    exact hquiet (.detect ha hs hfresh hevent)
      ⟨sameAttempts_update db _ (f := (·.markDisrupted _ now)) fun _ => rfl, rfl⟩
  | settle hset _ => exact hset.sameTimings.timed hset.exam h
  | restore ha hs hopen hout _ =>
    exact hquiet (.restore ha hs hopen hout)
      ⟨sameAttempts_update db _ (f := (·.restore now)) fun _ => rfl, rfl⟩
  | extend hadd =>
    exact (Change.sameTimings (.adjust hadd.adjusts) (sameAttempts_adjust db _ _)).timed rfl h
  | score hs => exact hquiet (.score hs) ⟨rfl, rfl⟩
  | @scoreLast a entry score comment graderId aggregated hs hc =>
    have hscored : SameTimings db (db.updateEntry a.id entry.questionId
        (·.complete score comment graderId now)) :=
      Change.sameTimings (.quiet (.score hs)) ⟨rfl, rfl⟩
    exact (hscored.trans (Change.sameTimings (.quiet (.close hc))
          (sameAttempts_close _ _ _ now))).timed rfl h
  | close hc _ => exact hquiet (.close hc) (sameAttempts_close db _ _ now)

theorem Moves.timed {target : Option String} {due : ExamAttempt → Option Int}
    (hm : Moves now target due db db') (hexam : db.exam.Ready) (h : db.Timed) : db'.Timed := by
  rcases hm with ⟨hm, -⟩ | ⟨a, row, -, hadd, -, -, hm⟩
  · exact hm.timed hexam h
  · have hadjusted :=
      (Change.sameTimings (.adjust hadd.adjusts) (sameAttempts_adjust db a row)).timed rfl h
    exact hm.timed hexam hadjusted

end

/-! ## The policy step of a restore -/

/-- A failure over the ledger: a recorded adjustment that is not the episode's,
or a row that the ledger does not take. -/
def LedgerFailure (db : Db) (interruptionId : String) (e : EngineError) : Prop :=
  (e = .validation "Existing bounded_grace adjustment failed identity validation" ∧
    db.findBoundedByInterruption interruptionId ≠ none) ∨ ∃ row, db.insertAdjustment row = .error e

/-- On a timed attempt the policy step of a restore fails only over the ledger. -/
theorem compensate_raises {db : Db} {a : ExamAttempt} {exam : Exam}
    {snapshot : AttemptTimingPolicySnapshot} {interruptionId : String} {detectedAt now : Int}
    {fresh : FreshAdjustment} (ht : a.Timed exam.closeAt)
    (hsnapshot : a.interruptionTimingPolicySnapshot = some snapshot) :
    Raises (LedgerFailure db interruptionId)
      (compensateInterruption db a exam snapshot interruptionId detectedAt now fresh) := by
  obtain ⟨s, hs, hevaluates⟩ := ht.resolves.compensation
  obtain rfl : s = snapshot := Option.some.inj (hs.symm.trans hsnapshot)
  unfold ExamAttempt.evaluation at hevaluates
  unfold compensateInterruption
  dsimp only
  split
  · rename_i hp
    split
    · rename_i existing hfound
      refine raises_bind (raises_require (.inl ⟨rfl, ?_⟩)) fun _ _ => raises_pure _
      rw [hfound]
      exact Option.some_ne_none existing
    · obtain ⟨decision, hdecision⟩ := hevaluates detectedAt now (db.sumBoundedGraceSeconds a.id)
      obtain ⟨_, _, before, _, -, -, hbefore, -, -, hafter, -⟩ := evaluate_bounded hp hdecision
      change a.deadlineAt = some before at hbefore
      rw [hdecision, ok_bind]
      split
      · rw [hbefore, hafter, orThrow_some, ok_bind, orThrow_some, ok_bind]
        exact raises_bind (fun e he => .inr ⟨_, he⟩) fun _ _ => raises_pure _
      · exact raises_pure _
  · obtain ⟨decision, hdecision⟩ := hevaluates detectedAt now 0
    rw [hdecision, ok_bind]
    exact raises_pure _

/-! ## Runs -/

/-- The exam gives every new attempt a snapshot and a deadline that resolve. -/
def Exam.Resolves (exam : Exam) : Prop :=
  ∃ snapshot, resolveAttemptTimingPolicySnapshot exam = .ok snapshot ∧
    ∀ (enrollment : ExamEnrollment) (input : StartAttemptInput) (syncDeadline : Option Int),
      (newAttempt exam enrollment input (startDeadline exam input.now syncDeadline)
          snapshot).Resolves exam.closeAt

theorem Exam.Configured.resolves {exam : Exam} (h : exam.Configured) : exam.Resolves := by
  obtain ⟨snapshot, hsnapshot⟩ := h.snapshot
  refine ⟨snapshot, hsnapshot, fun enrollment input syncDeadline => ?_⟩
  have hborn : BornTimed exam input.now syncDeadline
      (newAttempt exam enrollment input (startDeadline exam input.now syncDeadline) snapshot) :=
    ⟨rfl, snapshot, hsnapshot, rfl⟩
  exact (hborn.timed h).resolves

/-- Every attempt resolves under the exam as it is, and a restore of it fails
only over the ledger, never over its policy. -/
structure Db.Resolves (db : Db) : Prop where
  attempts : ∀ k a, db.findAttempt k = some a → a.Resolves db.exam.closeAt
  restores : ∀ k a snapshot, db.findAttempt k = some a →
    a.interruptionTimingPolicySnapshot = some snapshot →
    ∀ interruptionId detectedAt now fresh, Raises (LedgerFailure db interruptionId)
      (compensateInterruption db a db.exam snapshot interruptionId detectedAt now fresh)

theorem Db.Timed.resolves {db : Db} (h : db.Timed) : db.Resolves :=
  ⟨fun k a ha => (h k a ha).resolves,
    fun k a _ ha hsnapshot _ _ _ _ => compensate_raises (h k a ha) hsnapshot⟩

theorem Initial.timed {db : Db} (h : Initial db) : db.Timed := by
  intro k a ha
  rw [h.findAttempt] at ha
  cases ha

section
variable [Host]

theorem command_timed {c : Command} {db db' : Db} {u : Unit} (hc : c.isExamWrite = false)
    (h : db.exam.Configured ∧ db.Timed) (hstep : c.step db = .ok (u, db')) :
    db'.exam.Configured ∧ db'.Timed := by
  rcases step_moves hstep with hm | ⟨exam, now, rfl, -, -⟩
  · exact ⟨hm.exam ▸ h.1, hm.timed (fun _ => h.1) h.2⟩
  · cases hc

variable [RichContent]

/-- A request in a session: a command, or a write of the exam, under which the
attempts there are keep their close. -/
theorem request_timed {clock : Int} {r : Request} {db db' : Db} {u : Unit} (hs : Session clock db)
    (hclock : ∀ t ∈ r.now, clock ≤ t) (h : db.exam.Ready ∧ db.Timed)
    (hstep : r.step db = .ok (u, db')) :
    db'.exam.Ready ∧ db'.Timed := by
  cases Request.acts hstep with
  | sitting hm => exact ⟨hm.exam ▸ h.1, hm.timed h.1 h.2⟩
  | @exam r exam' hr =>
    refine ⟨hr.ready h.1, fun k a ha => ?_⟩
    have hne : db.attempts ≠ [] := by
      intro hnil
      have hmem := Db.findAttempt_mem ha
      rw [hnil] at hmem
      exact absurd hmem List.not_mem_nil
    exact (h.2 k a ha).later (hs.kept hclock hr hne).closeAt

/-- What the validator accepts runs. An accepted policy resolves for every new
attempt; over every run of commands under it every attempt resolves at every
instant; and so it is over every run from the draft on, in the order of the
clock, whatever the routes make of the exam in between. -/
theorem accepted_policy_resolves :
    (∀ exam : Exam, assertExamPolicyValid exam = .ok () → exam.Resolves) ∧
      (∀ db₀ : Db, Initial db₀ → assertExamPolicyValid db₀.exam = .ok () → ∀ cs : List Command,
        (∀ c ∈ cs, c.isExamWrite = false) → (run Command.step db₀ cs).Resolves) ∧
      ∀ db₀ : Db, Initial db₀ → db₀.exam.status = .draft → ∀ (clock : Int) (rs : List Request),
        InOrder clock rs →
        ((run Request.step db₀ rs).exam.status ≠ .draft → (run Request.step db₀ rs).exam.Resolves) ∧
          (run Request.step db₀ rs).Resolves := by
  refine ⟨fun exam hvalid => ?_, fun db₀ hinit hvalid cs hcs => ?_,
    fun db₀ hinit hdraft clock rs horder => ?_⟩
  · exact (Exam.ValidPolicy.configured (assertExamPolicyValid_eq_ok.mp hvalid)).resolves
  · have hconfigured : db₀.exam.Configured :=
      Exam.ValidPolicy.configured (assertExamPolicyValid_eq_ok.mp hvalid)
    have hrun : (run Command.step db₀ cs).exam.Configured ∧ (run Command.step db₀ cs).Timed :=
      run_along (G := fun c _ => c.isExamWrite = false) (P := fun db => db.exam.Configured ∧
        db.Timed) Command.step
        (fun c db u db' h hc hstep => command_timed hc h hstep) cs db₀ ⟨hconfigured, hinit.timed⟩
        (along_of_forall _ cs db₀ fun c hc _ => hcs c hc)
    exact hrun.2.resolves
  · have hready : db₀.exam.Ready := fun hne => absurd hdraft hne
    have hrun := session_run (G := fun _ _ => True) (P := fun _ db => db.exam.Ready ∧ db.Timed)
      (fun _ _ _ _ h => h)
      (fun clock db r u db' hs h hclock _ hstep => request_timed hs hclock h hstep) rs clock db₀
      (hinit.session hdraft clock) ⟨hready,
        hinit.timed⟩ horder (along_of_forall _ _ _ fun _ _ _ => trivial)
    exact ⟨fun hlive => (hrun.2.1 hlive).resolves, hrun.2.2.resolves⟩

end

/-! ## A grant of bounded grace -/

/-- A draft of one minute that allows 20 s for an interruption and 30 s in all. -/
def sampleGrace : CreateExamRequest :=
  { sampleCreate .timedWindow (some 1) (some 600000) with
    interruptionTimePolicy := some .boundedGrace
    interruptionGracePerIncidentSeconds := some (some 20)
    interruptionGracePerAttemptSeconds := some (some 30) }

/-- Started at 1 s, found without a heartbeat at 15 s, and back at 40 s. -/
def sampleGraceReturn : List Request :=
  (sampleReturn 15000).take 3 ++ [.sitting (.restore "attempt" 40000
    { id := "t1", operationId := "o1" }) rfl]

/-- The attempt gets its 20 s, and its deadline resolves afterwards. -/
theorem accepted_policy_resolves_sample :
    let db := run (@Request.step sampleHost sampleContent) (sampleStore sampleGrace) sampleGraceReturn
    (db.findAttempt "attempt").map (·.deadlineAt) = some (some 81000) ∧
      (∀ a, db.findAttempt "attempt" = some a → a.Resolves db.exam.closeAt) ∧ db.exam.Resolves ∧
      (run (@Command.step sampleHost) { sampleStore sampleGrace with exam := db.exam }
          [sampleStart]).Resolves := by
  have hinit : Initial (sampleStore sampleGrace) := ⟨rfl, rfl, rfl, rfl, rfl, rfl, rfl, rfl,
    ⟨rfl, rfl, rfl⟩⟩
  have horder : InOrder 0 sampleGraceReturn := by
    simp [InOrder, sampleGraceReturn, sampleReturn, Request.now, ExamCommand.now, Command.now,
      sampleArrival]
  have hruns := (@accepted_policy_resolves sampleHost sampleContent).2.2
      (sampleStore sampleGrace) hinit rfl 0
    sampleGraceReturn horder
  refine ⟨by decide +kernel, hruns.2.attempts "attempt", hruns.1 (by decide +kernel), ?_⟩
  refine (@accepted_policy_resolves sampleHost sampleContent).2.1 _ ⟨rfl, rfl, rfl, rfl, rfl, rfl,
    rfl, rfl, ⟨rfl, rfl, rfl⟩⟩
    (by decide +kernel) _ ?_
  intro c hc
  rw [List.mem_singleton.mp hc]
  rfl

end ExamSystem
