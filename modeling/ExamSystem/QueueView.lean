import ExamSystem.WaitingRoom

/-!
# The view of the waiting room

The position, the count and the estimate that a waiting candidate is shown. The
count compares a position among the active memberships with a release of all of
them; the estimate inverts the release schedule.
-/

namespace ExamSystem.Admission

open Tx

inductive AdmissionState
  | waiting | admitted | consumed
  deriving DecidableEq, Repr

structure AdmissionQueueView where
  state : AdmissionState
  position : Int
  waitCount : Int
  estimatedWaitSeconds : Int
  ready : Bool
  deriving DecidableEq, Repr

def deriveAdmissionState (record : ExamAdmissionRecord) : AdmissionState :=
  if record.consumedAt ≠ none then .consumed else if record.admittedAt = none then .waiting
    else .admitted

def countActiveAhead (t : Admissions) (organizationId examId : String) (joinedAt : Int) (id : String) :
    Nat :=
  t.rows.countP fun r => ofExam organizationId examId r && r.consumedAt.isNone && isAhead joinedAt id r

section
variable (organizationId : String) (exam : Exam)

def activePosition (t : Admissions) (record : ExamAdmissionRecord) : Int :=
  countActiveAhead t organizationId exam.id record.joinedAt record.id + 1

def previewAdmissionStatus (t : Admissions) (candidateId : String) (now : Int) : AdmissionQueueView :=
  match findActive t organizationId exam.id candidateId with
  | none =>
    { state := .waiting, position := 1, waitCount := 0, estimatedWaitSeconds := 0, ready := false }
  | some active =>
    let release := released organizationId exam t now
    let state := deriveAdmissionState active
    let position := activePosition organizationId exam t active
    let batchNumber :=
      computeBatchNumber (scheduleOrdinal organizationId exam t active) exam.controlFlags.batchSize
    let batchesUntilReady := max 0 (batchNumber - release.releasedBatches)
    { state := state
      position := position
      waitCount := max 0 (position - release.releasedCount)
      estimatedWaitSeconds :=
        if state = .waiting then batchesUntilReady * exam.controlFlags.batchInterval else 0
      ready := state = .admitted }

instance decidableEligible (t : Admissions) (r : ExamAdmissionRecord) (now : Int) :
    Decidable (Eligible organizationId exam t r now) :=
  inferInstanceAs (Decidable (_ ≤ _))

/-! ## The count -/

/-- How many memberships strictly before `m` satisfy a condition. -/
def countAhead (t : Admissions) (m : ExamAdmissionRecord) (p : ExamAdmissionRecord → Bool) : Nat :=
  t.rows.countP fun r => ofExam organizationId exam.id r && isAhead m.joinedAt m.id r && p r

/-- The memberships before `m` that are not consumed, neither admitted nor releasable. -/
def waitingAhead (t : Admissions) (m : ExamAdmissionRecord) (now : Int) : Nat :=
  countAhead organizationId exam t m fun r =>
    r.consumedAt.isNone && r.admittedAt.isNone && !decide (Eligible organizationId exam t r now)

def consumedAhead (t : Admissions) (m : ExamAdmissionRecord) : Nat :=
  countAhead organizationId exam t m fun r => r.consumedAt.isSome

/-- The memberships before `m` whose batch is not released. -/
def unreleasedAhead (t : Admissions) (m : ExamAdmissionRecord) (now : Int) : Nat :=
  countAhead organizationId exam t m fun r => !decide (Eligible organizationId exam t r now)

def goneAhead (t : Admissions) (m : ExamAdmissionRecord) (now : Int) : Nat :=
  countAhead organizationId exam t m fun r =>
    !decide (Eligible organizationId exam t r now) && (r.consumedAt.isSome || r.admittedAt.isSome)

variable {organizationId exam}

theorem countAhead_members (t : Admissions) (m : ExamAdmissionRecord) (p : ExamAdmissionRecord → Bool) :
    countAhead organizationId exam t m p =
      (membersOf organizationId exam.id t).countP fun r =>
        decide (scheduleKey r < scheduleKey m) && p r := by
  rw [countAhead, membersOf, List.countP_filter]
  refine List.countP_congr fun r _ => ?_
  rw [isAhead_iff]
  simp only [Bool.and_eq_true]
  exact ⟨fun h => ⟨⟨h.1.2, h.2⟩, h.1.1⟩, fun h => ⟨⟨h.2, h.1.1⟩, h.1.2⟩⟩

theorem countAhead_split {t : Admissions} {m : ExamAdmissionRecord} {p q s : ExamAdmissionRecord → Bool}
    (h : ∀ r, (p r = true ↔ q r = true ∨ s r = true) ∧ ¬ (q r = true ∧ s r = true)) :
    countAhead organizationId exam t m p = countAhead organizationId exam t m q +
      countAhead organizationId exam t m s := by
  unfold countAhead
  induction t.rows with
  | nil => rfl
  | cons r rows ih =>
    obtain ⟨hp, hex⟩ := h r
    simp only [List.countP_cons, ih, Bool.and_eq_true]
    by_cases hbase : ofExam organizationId exam.id r = true ∧ isAhead m.joinedAt m.id r = true
    · by_cases hq : q r = true
      · by_cases hs : s r = true
        · exact absurd ⟨hq, hs⟩ hex
        · simp [hbase, hq, hs, hp]
          omega
      · by_cases hs : s r = true
        · simp [hbase, hq, hs, hp]
          omega
        · simp [hbase, hq, hs, hp]
    · simp [hbase]

theorem countAllAhead_split (t : Admissions) (m : ExamAdmissionRecord) :
    countAllAhead t organizationId exam.id m.joinedAt m.id =
      countActiveAhead t organizationId exam.id m.joinedAt m.id + consumedAhead organizationId
        exam t m := by
  have hall : countAllAhead t organizationId exam.id m.joinedAt m.id = countAhead organizationId
      exam t m fun _ => true := by
    simp [countAllAhead, countAhead]
  have hactive : countActiveAhead t organizationId exam.id m.joinedAt m.id =
      countAhead organizationId exam t m fun r => r.consumedAt.isNone := by
    refine List.countP_congr fun r _ => ?_
    simp only [Bool.and_eq_true]
    tauto
  rw [hall, hactive, consumedAhead]
  exact countAhead_split fun r => by cases r.consumedAt <;> simp

theorem unreleasedAhead_split (t : Admissions) (m : ExamAdmissionRecord) (now : Int) :
    unreleasedAhead organizationId exam t m now = waitingAhead organizationId exam t m now +
      goneAhead organizationId exam t m now := by
  refine countAhead_split fun r => ?_
  cases r.consumedAt <;> cases r.admittedAt <;> simp

/-- Those that are not released are the ones behind the released count. -/
theorem unreleasedAhead_eq {t : Admissions} (hsize : 1 ≤ exam.controlFlags.batchSize)
    (hinterval : 1 ≤ exam.controlFlags.batchInterval) (m : ExamAdmissionRecord) (now : Int) :
    unreleasedAhead organizationId exam t m now =
      countAllAhead t organizationId exam.id m.joinedAt m.id -
        (released organizationId exam t now).releasedCount.toNat := by
  have hnonneg : 0 ≤ (released organizationId exam t now).releasedCount := by
    rw [releasedCount_eq]
    exact Int.mul_nonneg (releasedBatches_nonneg t hinterval now) (by omega)
  rw [unreleasedAhead, countAhead_members, countAllAhead_members,
    ← Ranks.countP_beyond scheduleKey (schedule_nodup organizationId exam.id t)]
  refine List.countP_congr fun r _ => ?_
  have hbeyond : Eligible organizationId exam t r now ↔
      ¬ (released organizationId exam t now).releasedCount.toNat ≤
        Ranks.ahead scheduleKey (membersOf organizationId exam.id t) (scheduleKey r) := by
    rw [Eligible, computeBatchNumber_le hsize, ← releasedCount_eq, scheduleOrdinal,
      countAllAhead_members]
    omega
  simp only [hbeyond, Bool.and_eq_true, decide_eq_true_eq, Bool.not_eq_true',
    decide_eq_false_iff_not, not_not]

/-- The count that a waiting member is shown is exact when its batch is released,
when one more is consumed before it than is gone out of order, or when nobody
waits before it and enough are consumed; otherwise it is not. -/
theorem waitCount_exact_iff (hsize : 1 ≤ exam.controlFlags.batchSize)
    (hinterval : 1 ≤ exam.controlFlags.batchInterval) (t : Admissions) (candidateId : String)
    (m : ExamAdmissionRecord) (now : Int)
    (hm : findActive t organizationId exam.id candidateId = some m) :
    (previewAdmissionStatus organizationId exam t candidateId now).waitCount = waitingAhead
      organizationId exam t m now ↔ Eligible organizationId exam t m now ∨
        consumedAhead organizationId exam t m = goneAhead organizationId exam t m now + 1 ∨
        (goneAhead organizationId exam t m now = unreleasedAhead organizationId exam t m now ∧
          goneAhead organizationId exam t m now < consumedAhead organizationId exam t m) := by
  have hcount : (previewAdmissionStatus organizationId exam t candidateId now).waitCount =
      max 0 (activePosition organizationId exam t m -
          (released organizationId exam t now).releasedCount) := by
    simp only [previewAdmissionStatus, hm]
  have hnonneg : 0 ≤ (released organizationId exam t now).releasedCount := by
    rw [releasedCount_eq]
    exact Int.mul_nonneg (releasedBatches_nonneg t hinterval now) (by omega)
  have heligible : Eligible organizationId exam t m now ↔
      countAllAhead t organizationId exam.id m.joinedAt m.id +
        1 ≤ (released organizationId exam t now).releasedCount := by
    rw [Eligible, computeBatchNumber_le hsize, ← releasedCount_eq, scheduleOrdinal]
  have hall : _ = _ + consumedAhead organizationId exam t m := countAllAhead_split t m
  have hgone : unreleasedAhead organizationId exam t m now = _ + _ := unreleasedAhead_split t m now
  have hunreleased : unreleasedAhead organizationId exam t m now = _ - _ :=
    unreleasedAhead_eq hsize hinterval m now
  rw [hcount, heligible, activePosition]
  omega

end

/-- The first of two members is admitted; nobody waits before the second, who is
shown one. -/
theorem waitCount_wrong :
    let t := run (AdmissionOp.step "org" sampleQueue) Table.empty
      [.join "first" 0 [earlyId], .reconcile "first" 0, .join "second" 0 [lateId],
        .reconcile "second" 0]
    (∃ m, findActive t "org" sampleQueue.id "second" = some m ∧ m.admittedAt = none ∧
      waitingAhead "org" sampleQueue t m 0 = 0) ∧
      (previewAdmissionStatus "org" sampleQueue t "second" 0).waitCount = 1 := by
  refine ⟨⟨newMembership "org" sampleQueue.id "second" 0 lateId, ?_⟩, ?_⟩ <;> decide +kernel

/-- After the first of three has started, the third is shown the one before it. -/
theorem waitCount_exact_iff_sample :
    let t := run (AdmissionOp.step "org" sampleQueue) Table.empty
      [.join "first" 0 [earlyId], .reconcile "first" 0, .consume "first" 0 "attempt",
        .join "second" 1000 [lateId], .join "third" 2000 ["third"]]
    (previewAdmissionStatus "org" sampleQueue t "third" 2000).waitCount =
      waitingAhead "org" sampleQueue t (newMembership "org" sampleQueue.id "third" 2000 "third") 2000 :=
  (waitCount_exact_iff (by decide) (by decide) _ "third" _ 2000 (by decide +kernel)).mpr
    (.inr (.inl (by decide +kernel)))

/-! ## The estimate -/

section
variable (organizationId : String) (exam : Exam)

def Admits (t : Admissions) (candidateId : String) (now : Int) : Prop :=
  ∃ r, (reconcileAdmission organizationId exam t candidateId now).1 = some r ∧ r.admittedAt.isSome

def AdmissionOp.JoinsBehind (m : ExamAdmissionRecord) (op : AdmissionOp) (t : Admissions) : Prop :=
  match op with
  | .join candidateId now ids => ∀ id ∈ joinsAs organizationId exam t candidateId ids,
      isAhead m.joinedAt m.id (newMembership organizationId exam.id candidateId now id) = false
  | _ => True

instance decidableJoinsBehind (m : ExamAdmissionRecord) : ∀ (op : AdmissionOp) (t : Admissions),
    Decidable (op.JoinsBehind organizationId exam m t)
  | .join candidateId now ids, t =>
    inferInstanceAs (Decidable (∀ id ∈ joinsAs organizationId exam t candidateId ids,
      isAhead m.joinedAt m.id (newMembership organizationId exam.id candidateId now id) = false))
  | .reconcile _ _, _ => inferInstanceAs (Decidable True)
  | .consume _ _ _, _ => inferInstanceAs (Decidable True)

def AdmissionOp.ReconcilesAt (P : Int → Prop) : AdmissionOp → Prop
  | .reconcile _ now => P now
  | _ => True

/-- What is left of the waiting membership `m` of `t₀`. -/
structure StillDue (t₀ : Admissions) (m : ExamAdmissionRecord) (P : Int → Prop) (t : Admissions)
    (r : ExamAdmissionRecord) : Prop where
  row : t.get m.id = some r
  member : ofExam organizationId exam.id r = true
  key : scheduleKey r = scheduleKey m
  eligible : ∀ now, Eligible organizationId exam t r now ↔ Eligible organizationId exam t₀ m now
  admitted : ∀ admittedAt ∈ r.admittedAt, P admittedAt ∧ Eligible organizationId exam t₀ m admittedAt

variable {organizationId exam}

/-- A join behind a membership leaves its eligibility. -/
theorem eligible_put_behind {t : Admissions} {candidateId newId : String} {now : Int}
    (hnew : t.get newId = none) {r : ExamAdmissionRecord}
    (hr : r ∈ membersOf organizationId exam.id t)
    (hbehind : isAhead r.joinedAt r.id
        (newMembership organizationId exam.id candidateId now newId) = false) (at' : Int) :
    Eligible organizationId exam
      (t.put (newMembership organizationId exam.id candidateId now newId)) r at' ↔
      Eligible organizationId exam t r at' := by
  have hle : r.joinedAt ≤ now := by
    have hnot := of_decide_eq_false hbehind
    exact not_lt.mp fun hlt => hnot (.inl hlt)
  have hkey : ¬ toLex (now, newId) < scheduleKey r := by
    rw [isAhead_iff, decide_eq_false_iff_not] at hbehind
    exact hbehind
  unfold Eligible
  rw [released_put hnew hr hle, scheduleOrdinal_put hnew, if_neg hkey, Int.add_zero]

theorem StillDue.same_schedule {t₀ t t' : Admissions} {m r r' : ExamAdmissionRecord}
    {P : Int → Prop} (h : StillDue organizationId exam t₀ m P t r)
    (hsame : schedule organizationId exam.id t' = schedule organizationId exam.id t)
    (hrow : t'.get m.id = some r') (hkey : scheduleKey r' = scheduleKey r)
    (hmember : ofExam organizationId exam.id r' = ofExam organizationId exam.id r)
    (hadmitted : ∀ admittedAt ∈ r'.admittedAt, P admittedAt ∧
      Eligible organizationId exam t₀ m admittedAt) :
    StillDue organizationId exam t₀ m P t' r' :=
  ⟨hrow, hmember.trans h.member, hkey.trans h.key,
    fun now => (eligible_congr hsame hkey now).trans (h.eligible now), hadmitted⟩

theorem Moves.stillDue {t₀ t t' : Admissions} {m r : ExamAdmissionRecord} {P : Int → Prop}
    {op : AdmissionOp} (hm : Moves organizationId exam t op t')
    (h : StillDue organizationId exam t₀ m P t r) (hbehind : op.JoinsBehind organizationId exam m t)
    (hat : op.ReconcilesAt P) :
    ∃ r', StillDue organizationId exam t₀ m P t' r' := by
  have hmember : r ∈ membersOf organizationId exam.id t :=
    List.mem_filter.mpr ⟨Table.mem_of_get h.row, h.member⟩
  cases hm with
  | stay => exact ⟨r, h⟩
  | @join candidateId now ids newId hnone hid =>
    have hnew : t.get newId = none := by simpa using List.find?_some hid
    have hne : m.id ≠ newId := by
      rintro heq
      have hrow := h.row
      rw [heq, hnew] at hrow
      cases hrow
    have hkeys : r.joinedAt = m.joinedAt ∧ r.id = m.id := by simpa [scheduleKey] using h.key
    have hnot : isAhead r.joinedAt r.id
        (newMembership organizationId exam.id candidateId now newId) = false := by
      rw [hkeys.1, hkeys.2]
      exact hbehind newId (by simp [joinsAs, hnone, hid])
    exact ⟨r, by rw [Table.get_put]; exact (if_neg hne).trans h.row, h.member, h.key,
      fun at' => (eligible_put_behind hnew hmember hnot at').trans (h.eligible at'), h.admitted⟩
  | @admission candidateId now r₀ hactive hwaiting he =>
    have hsame := schedule_admitOnce t organizationId exam.id r₀.id now
    by_cases hhit : r.id = r₀.id ∧ r.admittedAt = none
    · have hr₀ : r = r₀ := by
        have hget : t.get r.id = some r := Table.get_of_mem (Table.mem_of_get h.row)
        rw [hhit.1, (Table.find_eq_some hactive).1] at hget
        exact (Option.some.inj hget).symm
      subst hr₀
      have hrow : (admitOnce t r.id now).2.get m.id = some (r.withAdmittedAt now) := by
        rw [get_admitOnce, h.row, Option.map_some, if_pos ⟨rfl, hwaiting⟩]
      refine ⟨_, h.same_schedule hsame hrow rfl rfl fun admittedAt hadmitted => ?_⟩
      obtain rfl := Option.some.inj hadmitted
      exact ⟨hat, (h.eligible now).mp he⟩
    · have hrow : (admitOnce t r₀.id now).2.get m.id = some r := by
        rw [get_admitOnce, h.row, Option.map_some, if_neg hhit]
      exact ⟨r, h.same_schedule hsame hrow rfl rfl h.admitted⟩
  | @consume candidateId attemptId consumedAt hadmitted =>
    have hsame := schedule_consumed t organizationId exam.id candidateId attemptId consumedAt
    have hrow := get_consumed t organizationId exam.id candidateId attemptId consumedAt m.id
    rw [h.row, Option.map_some] at hrow
    by_cases hhit : activeOf organizationId exam.id candidateId r = true
    · rw [if_pos hhit] at hrow
      exact ⟨_, h.same_schedule hsame hrow rfl rfl h.admitted⟩
    · rw [if_neg hhit] at hrow
      exact ⟨r, h.same_schedule hsame hrow rfl rfl h.admitted⟩

theorem run_stillDue {t₀ : Admissions} {m : ExamAdmissionRecord} {P : Int → Prop}
    (ops : List AdmissionOp) (hm : t₀.get m.id = some m)
    (hmember : ofExam organizationId exam.id m = true) (hwaiting : m.admittedAt = none)
    (hbehind : Along (AdmissionOp.step organizationId exam)
        (AdmissionOp.JoinsBehind organizationId exam m) t₀ ops)
    (hat : ∀ op ∈ ops, op.ReconcilesAt P) :
    ∃ r, StillDue organizationId exam t₀ m P (run (AdmissionOp.step organizationId exam) t₀ ops) r := by
  have hstart : ∃ r, StillDue organizationId exam t₀ m P t₀ r := by
    refine ⟨m, hm, hmember, rfl, fun _ => .rfl, fun admittedAt hadmitted => ?_⟩
    rw [hwaiting] at hadmitted
    cases hadmitted
  have hrun : ∀ (ops : List AdmissionOp) (t : Admissions),
      (∃ r, StillDue organizationId exam t₀ m P t r) →
      Along (AdmissionOp.step organizationId exam)
        (AdmissionOp.JoinsBehind organizationId exam m) t ops →
      (∀ op ∈ ops, op.ReconcilesAt P) → ∃ r, StillDue organizationId exam t₀ m P
        (run (AdmissionOp.step organizationId exam) t ops) r := by
    intro ops
    induction ops with
    | nil => exact fun t h _ _ => h
    | cons op ops ih =>
      intro t ⟨r, h⟩ halong hat
      refine ih _ ?_ halong.2 fun o ho => hat o (List.mem_cons_of_mem _ ho)
      rcases commit_cases (op.step organizationId exam t) t with he | ⟨u, t', hstep, he⟩
      · rw [he]
        exact ⟨r, h⟩
      · rw [he]
        exact (AdmissionOp.step_moves hstep).stillDue h halong.1 (hat op List.mem_cons_self)
  exact hrun ops t₀ hstart hbehind hat

/-- A membership that is still active is admitted exactly when it was already, or
when its batch is released. -/
theorem StillDue.admits {t₀ t : Admissions} {m r r' : ExamAdmissionRecord} {P : Int → Prop}
    {candidateId : String} {now : Int} (h : StillDue organizationId exam t₀ m P t r)
    (hactive : findActive t organizationId exam.id candidateId = some r') (hid : r'.id = m.id) :
    Admits organizationId exam t candidateId now ↔ r.admittedAt.isSome ∨
    Eligible organizationId exam t₀ m now := by
  obtain rfl : r' = r := by
    have hget := (Table.find_eq_some hactive).1
    rw [hid, h.row] at hget
    exact (Option.some.inj hget).symm
  rw [← h.eligible now]
  cases hadmitted : r'.admittedAt with
  | none =>
    rw [Admits, reconcileAdmission_admits hactive hadmitted]
    simp
  | some admittedAt =>
    refine iff_of_true ⟨r', ?_, by rw [hadmitted]; rfl⟩ (.inl rfl)
    simp only [reconcileAdmission, hactive, hadmitted, Option.isSome_some, if_true]

/-! ## The inversion of the schedule -/

theorem elapsedSeconds_add {anchor now s : Int} (hanchor : anchor ≤ now) (hs : 0 ≤ s) (later : Int) :
    (now + s * 1000 ≤ later → elapsedSeconds anchor now + s ≤ elapsedSeconds anchor later) ∧
      (anchor ≤ later → later ≤ now + s * 1000 →
        elapsedSeconds anchor later ≤ elapsedSeconds anchor now + s) := by
  simp only [elapsedSeconds]
  omega

/-- The released batches after a multiple of the interval. -/
theorem releasedBatches_after {t : Admissions} {r : ExamAdmissionRecord}
    (hr : r ∈ membersOf organizationId exam.id t) (hinterval : 1 ≤ exam.controlFlags.batchInterval)
    {now later batches : Int} (hnow : r.joinedAt ≤ now) (hbatches : 0 ≤ batches) :
    (now + batches * exam.controlFlags.batchInterval * 1000 ≤ later →
      (released organizationId exam t now).releasedBatches +
        batches ≤ (released organizationId exam t later).releasedBatches) ∧
    (now ≤ later → later ≤ now + batches * exam.controlFlags.batchInterval * 1000 →
      (released organizationId exam t later).releasedBatches ≤
        (released organizationId exam t now).releasedBatches + batches) := by
  have hmem : r.joinedAt ∈ (membersOf organizationId exam.id t).map (·.joinedAt) :=
    List.mem_map_of_mem hr
  obtain ⟨anchor, hanchor⟩ := Option.ne_none_iff_exists'.mp (earliest_ne_none (List.ne_nil_of_mem hmem))
  have hle : anchor ≤ now := le_trans ((earliest_spec hanchor).2 _ hmem) hnow
  have hreleased : ∀ x, (released organizationId exam t x).releasedBatches =
      elapsedSeconds anchor x / exam.controlFlags.batchInterval + 1 := by
    intro x
    have hearliest : earliestJoinedAt t organizationId exam.id = some anchor := hanchor
    simp only [released, hearliest, computeBatchRelease]
  have hpos : 0 ≤ batches * exam.controlFlags.batchInterval := Int.mul_nonneg hbatches (by omega)
  obtain ⟨hlate, hearly⟩ := elapsedSeconds_add hle hpos later
  have hdiv : (elapsedSeconds anchor now + batches * exam.controlFlags.batchInterval) /
      exam.controlFlags.batchInterval =
      elapsedSeconds anchor now / exam.controlFlags.batchInterval + batches :=
        Int.add_mul_ediv_right _ _ (by omega)
  rw [hreleased, hreleased]
  constructor
  · intro hlater
    have hmono := Int.ediv_le_ediv (show 0 < exam.controlFlags.batchInterval by omega) (hlate hlater)
    omega
  · intro hge hlater
    have hmono := Int.ediv_le_ediv (show 0 < exam.controlFlags.batchInterval by omega)
      (hearly (by omega) hlater)
    omega

end

/-- The estimate is sound and tight: with joins behind a waiting member only, the
member is admitted from the estimated instant on and at no instant up to one
interval before it; without a wait it is admitted at once. -/
theorem estimatedWait_sound_tight (organizationId : String) (exam : Exam)
    (hinterval : 1 ≤ exam.controlFlags.batchInterval) (t : Admissions) (candidateId : String)
    (m : ExamAdmissionRecord) (now : Int)
    (hm : findActive t organizationId exam.id candidateId = some m) (hwaiting : m.admittedAt = none)
    (hnow : m.joinedAt ≤ now) :
    let s := (previewAdmissionStatus organizationId exam t candidateId now).estimatedWaitSeconds
    (0 < s → ∀ ops, Along (AdmissionOp.step organizationId exam)
        (AdmissionOp.JoinsBehind organizationId exam m) t ops →
      ∀ m', findActive (run (AdmissionOp.step organizationId exam) t ops) organizationId exam.id
        candidateId = some m' → m'.id = m.id →
        (∀ later, now + s * 1000 ≤ later →
          Admits organizationId exam (run (AdmissionOp.step organizationId exam) t ops)
            candidateId later) ∧
        (∀ early, now ≤ early → early ≤ now + (s - exam.controlFlags.batchInterval) * 1000 →
          (∀ op ∈ ops, op.ReconcilesAt (· ≤ early)) →
          ¬ Admits organizationId exam (run (AdmissionOp.step organizationId exam) t ops)
            candidateId early)) ∧
    (s = 0 → Admits organizationId exam t candidateId now) := by
  intro s
  obtain ⟨hget, hactive⟩ := Table.find_eq_some hm
  obtain ⟨hmember, -, hunconsumed⟩ := activeOf_iff.mp hactive
  have hof : ofExam organizationId exam.id m = true := by simpa [ofExam] using hmember
  have hr : m ∈ membersOf organizationId exam.id t := List.mem_filter.mpr ⟨Table.mem_of_get hget, hof⟩
  let missing :=
    computeBatchNumber (scheduleOrdinal organizationId exam t m) exam.controlFlags.batchSize -
    (released organizationId exam t now).releasedBatches
  have hs : s = max 0 missing * exam.controlFlags.batchInterval := by
    simp [s, missing, previewAdmissionStatus, hm, deriveAdmissionState, hunconsumed, hwaiting]
  have heligible : ∀ x, Eligible organizationId exam t m x ↔
      (released organizationId exam t now).releasedBatches +
        missing ≤ (released organizationId exam t x).releasedBatches := by
    intro x
    simp only [Eligible, missing]
    omega
  constructor
  · intro hwait ops hbehind m' hm' hid
    have hmissing : 0 < missing := by
      by_contra hle
      rw [max_eq_left (not_lt.mp hle), Int.zero_mul] at hs
      omega
    rw [max_eq_right hmissing.le] at hs
    constructor
    · intro later hlater
      obtain ⟨r, hdue⟩ := run_stillDue ops hget hof hwaiting hbehind fun op _ => (by cases op
          <;> trivial : op.ReconcilesAt fun _ => True)
      refine (hdue.admits hm' hid).mpr (.inr ((heligible later).mpr ?_))
      exact (releasedBatches_after hr hinterval hnow hmissing.le).1 (hs ▸ hlater)
    · intro early hge hle hat hadmits
      have hnot : ∀ x, x ≤ early → ¬ Eligible organizationId exam t m x := by
        intro x hx hx'
        have hmono : (released organizationId exam t x).releasedBatches ≤ _ :=
          released_mono hinterval hx
        have hbound := (releasedBatches_after hr hinterval hnow (by omega : 0 ≤ missing - 1)).2 hge (by
          rw [Int.sub_mul, Int.one_mul, ← hs]
          exact hle)
        have := (heligible x).mp hx'
        omega
      obtain ⟨r, hdue⟩ := run_stillDue ops hget hof hwaiting hbehind hat
      rcases (hdue.admits hm' hid).mp hadmits with hadmitted | hreleased
      · obtain ⟨admittedAt, hadmitted⟩ := Option.isSome_iff_exists.mp hadmitted
        obtain ⟨hbefore, hthen⟩ := hdue.admitted admittedAt hadmitted
        exact hnot admittedAt hbefore hthen
      · exact hnot early (le_refl _) hreleased
  · intro hzero
    have hmissing : missing ≤ 0 := by
      by_contra hpos
      rw [max_eq_right (by omega)] at hs
      have := Int.mul_pos (not_le.mp hpos) (show 0 < exam.controlFlags.batchInterval by omega)
      omega
    exact (reconcileAdmission_admits hm hwaiting).mpr ((heligible now).mpr (by omega))

def sampleThree : Admissions :=
  run (AdmissionOp.step "org" sampleQueue) Table.empty
    [.join "first" 0 [earlyId], .reconcile "first" 0, .join "second" 500 [lateId],
      .join "third" 500 ["third"]]

/-- The third member of batches of one waits for two intervals. -/
theorem estimatedWait_sound_tight_sample :
    let t := run (AdmissionOp.step "org" sampleQueue) sampleThree [.reconcile "third" 1000,
      .join "fourth" 2000 ["zzz"]]
    Admits "org" sampleQueue t "third" 120500 ∧ ¬ Admits "org" sampleQueue t "third" 60500 := by
  intro t
  have hwait : (previewAdmissionStatus "org" sampleQueue sampleThree "third"
      500).estimatedWaitSeconds = 120 := by decide +kernel
  have h := (estimatedWait_sound_tight "org" sampleQueue (by decide) sampleThree "third"
      (newMembership "org" sampleQueue.id "third" 500 "third") 500
    (by decide +kernel) rfl (by decide)).1
  rw [hwait] at h
  obtain ⟨hlate, hearly⟩ := h (by decide) [.reconcile "third" 1000, .join "fourth" 2000 ["zzz"]]
    (by decide +kernel)
    (newMembership "org" sampleQueue.id "third" 500 "third") (by decide +kernel) rfl
  refine ⟨hlate 120500 (by decide), hearly 60500 (by decide) (by decide) ?_⟩
  intro op hop
  rcases List.mem_cons.mp hop with rfl | hop
  · exact (by decide : (1000 : Int) ≤ 60500)
  · obtain rfl := List.mem_singleton.mp hop
    trivial

end ExamSystem.Admission
