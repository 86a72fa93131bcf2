import ExamSystem.Identity

/-!
# The attempts of one enrollment

At most one attempt is active, the attempts are numbered without gap or repeat,
and the retake policy caps their number.
-/

namespace ExamSystem

open Tx

def ExamAttempt.Active (a : ExamAttempt) : Prop := a.status = .inProgress ∨ a.status = .disrupted

/-- The attempts that exist and their number on the enrollment are the same. -/
structure SameAttempts (db db' : Db) : Prop where
  rows : db'.attempts.map (fun a => (a.id, a.attemptNo)) = db.attempts.map fun a => (a.id, a.attemptNo)
  count : db'.enrollment.attemptCount = db.enrollment.attemptCount

theorem SameAttempts.refl (db : Db) : SameAttempts db db := ⟨rfl, rfl⟩

theorem SameAttempts.trans {db db' db'' : Db} (h : SameAttempts db db') (h' : SameAttempts db' db'') :
    SameAttempts db db'' :=
  ⟨h'.rows.trans h.rows, h'.count.trans h.count⟩

theorem SameAttempts.numbers {db db' : Db} (h : SameAttempts db db') :
    db'.attempts.map (·.attemptNo) = db.attempts.map (·.attemptNo) := by
  have hmap := congrArg (List.map Prod.snd) h.rows
  rw [List.map_map, List.map_map] at hmap
  exact hmap

theorem SameAttempts.ids {db db' : Db} (h : SameAttempts db db') :
    db'.attempts.map (·.id) = db.attempts.map (·.id) := by
  have hmap := congrArg (List.map Prod.fst) h.rows
  rw [List.map_map, List.map_map] at hmap
  exact hmap

theorem sameAttempts_update (db : Db) (attemptId : String) {f : ExamAttempt → ExamAttempt}
    (hf : ∀ a, ((f a).id, (f a).attemptNo) = (a.id, a.attemptNo)) :
    (db.updateAttempt attemptId f).attempts.map (fun a => (a.id, a.attemptNo)) =
      db.attempts.map fun a => (a.id, a.attemptNo) :=
  Rows.map_modify _ hf db.attempts attemptId

theorem sameAttempts_adjust (db : Db) (a : ExamAttempt) (row : AttemptTimeAdjustment) :
    SameAttempts db (db.adjust a row) :=
  ⟨sameAttempts_update db a.id (f := (·.extend _)) fun _ => rfl, rfl⟩

theorem sameAttempts_close (db : Db) (a : ExamAttempt) (aggregated : GradingEntryAggregate)
    (now : Int) :
    SameAttempts db (db.close a aggregated now) :=
  ⟨sameAttempts_update db a.id (f := (·.gradedRow _ _)) fun _ => rfl,
    (project_identity _ _ _ _ _ _).2.2.2.1⟩

section
variable [Host] {now : Int} {db db' : Db}

theorem sameAttempts_freeze (db : Db) (a : ExamAttempt) (t : Int) (reason : Option SubmissionReason)
    (events : List AttemptInterruptionEvent) : SameAttempts db (db.freeze a t reason events) :=
  ⟨sameAttempts_update db a.id (f := (·.submittedRow _ _)) fun _ => rfl, rfl⟩

theorem Quiet.sameAttempts (h : Quiet now db db') :
    SameAttempts db db' ∨ ∃ a input, Creates db a input ∧ db' = db.create a := by
  cases h with
  | create hc => exact .inr ⟨_, _, hc, rfl⟩
  | save _ => exact .inl ⟨sameAttempts_update db _ (f := (·.recordSave _ _)) fun _ => rfl, rfl⟩
  | touch _ _ => exact .inl ⟨sameAttempts_update db _ (f := (·.touch _)) fun _ => rfl, rfl⟩
  | detect _ _ _ _ =>
    exact .inl ⟨sameAttempts_update db _ (f := (·.markDisrupted _ _)) fun _ => rfl, rfl⟩
  | restore _ _ _ _ => exact .inl ⟨sameAttempts_update db _ (f := (·.restore _)) fun _ => rfl, rfl⟩
  | freeze _ => exact .inl (sameAttempts_freeze db _ _ _ _)
  | score _ => exact .inl ⟨rfl, rfl⟩
  | close _ => exact .inl (sameAttempts_close db _ _ _)

end

/-! ## The invariant -/

structure AttemptsSound (db : Db) : Prop where
  ids : (db.attempts.map (·.id)).Nodup
  owned : ∀ attemptId a, db.findAttempt attemptId = some a → a.enrollmentId = db.enrollment.id
  single : ∀ i j a b, db.findAttempt i = some a → db.findAttempt j = some b → a.Active →
    b.Active → i = j
  numbers : db.attempts.map (·.attemptNo) = List.range' 1 db.enrollment.attemptCount

theorem Initial.attemptsSound {db : Db} (h : Initial db) : AttemptsSound db := by
  refine ⟨?_, ?_, ?_, ?_⟩
  · simp [h.attempts]
  · intro attemptId a ha
    rw [h.findAttempt] at ha
    cases ha
  · intro i j a b ha
    rw [h.findAttempt] at ha
    cases ha
  · simp [h.attempts, h.attemptCount]

theorem idle_inactive {db : Db} (hidle : db.findActiveByEnrollment db.enrollment.id = none)
    {attemptId : String} {a : ExamAttempt} (ha : db.findAttempt attemptId = some a)
    (howned : a.enrollmentId = db.enrollment.id) :
    ¬ a.Active := by
  intro hact
  have hnot := List.find?_eq_none.mp hidle a (Db.findAttempt_mem ha)
  simp only [howned, true_and, decide_eq_true_eq] at hnot
  exact hnot hact

theorem AttemptsSound.created {db : Db} {a b : ExamAttempt} {input : StartAttemptInput}
    {attemptId : String} (h : AttemptsSound db) (hc : Creates db a input)
    (hb : (db.create a).findAttempt attemptId = some b) (hact : b.Active) : attemptId = a.id := by
  by_contra hne
  have hold : (db.create a).findAttempt attemptId = db.findAttempt attemptId :=
    (Db.findAttempt_append hc.fresh attemptId).trans (if_neg hne)
  rw [hold] at hb
  exact idle_inactive hc.idle hb (h.owned attemptId b hb) hact

section
variable [Host] {now : Int} {db db' : Db}

theorem RowStep.active {a a' : ExamAttempt} (h : RowStep now db db' a a') (hact : a'.Active) :
    a.Active := by
  cases h with
  | same => exact hact
  | save _ _ _ _ _ => exact hact
  | touch _ => exact hact
  | detect _ hs => exact .inl hs
  | restore hs => exact .inr hs
  | extend _ _ => exact hact
  | freeze _ _ _ _ => rcases hact with hs | hs <;> cases hs
  | close _ _ => rcases hact with hs | hs <;> cases hs

theorem AttemptsSound.single_change (h : AttemptsSound db) (hc : Change now db db') : ∀ i j a b,
    db'.findAttempt i = some a → db'.findAttempt j = some b → a.Active → b.Active → i = j := by
  intro i j a b ha hb hacta hactb
  rcases hc.row_cases ha with ⟨input, hcreates, rfl⟩ | ⟨x, hx, hstepa⟩
  · exact (Db.findAttempt_id ha).symm.trans (h.created hcreates hb hactb).symm
  rcases hc.row_cases hb with ⟨input, hcreates, rfl⟩ | ⟨y, hy, hstepb⟩
  · exact (h.created hcreates ha hacta).trans (Db.findAttempt_id hb)
  · exact h.single i j x y hx hy (hstepa.active hacta) (hstepb.active hactb)

theorem Change.sameAttempts (hc : Change now db db') :
    SameAttempts db db' ∨ ∃ a input, Creates db a input ∧ db' = db.create a := by
  cases hc with
  | quiet hq => exact hq.sameAttempts
  | adjust hadj => exact .inl (sameAttempts_adjust db _ _)
  | examWrite _ => exact .inl ⟨rfl, rfl⟩

theorem AttemptsSound.change (h : AttemptsSound db) (hc : Change now db db') : AttemptsSound db' := by
  have howned : ∀ attemptId a, db'.findAttempt attemptId = some a →
      a.enrollmentId = db'.enrollment.id := by
    intro attemptId a' ha'
    rcases hc.row_cases ha' with ⟨input, hcreates, rfl⟩ | ⟨a, ha, hstep⟩
    · obtain ⟨_, _, rfl⟩ := hcreates.row
      rfl
    · rw [hstep.sameSitting.enrollment, hc.remains.enrollment]
      exact h.owned attemptId a ha
  have hsingle := h.single_change hc
  rcases hc.sameAttempts with hsame | ⟨a, input, hcreates, rfl⟩
  · refine ⟨hsame.ids ▸ h.ids, howned, hsingle, ?_⟩
    rw [hsame.numbers, hsame.count]
    exact h.numbers
  · refine ⟨Rows.keys_concat_nodup _ h.ids hcreates.fresh, howned, hsingle, ?_⟩
    obtain ⟨_, _, rfl⟩ := hcreates.row
    simp [Db.create, ExamEnrollment.startAttempt, newAttempt, h.numbers, List.range'_concat,
      Nat.add_comm]

theorem Reachable.attemptsSound (h : Reachable db) : AttemptsSound db :=
  h.invariant (fun _ hi => hi.attemptsSound) fun _ _ _ hs hc => hs.change hc

theorem run_attemptsSound (h : AttemptsSound db) (cs : List Command) :
    AttemptsSound (run Command.step db cs) :=
  closure_invariant (fun _ _ h hc => hc.elim fun _ hc => h.change hc) (run_changes cs db) h

end

/-! ## The retake cap -/

def WithinRetakeCap (db : Db) : Prop :=
  db.exam.retakePolicy = .maxAttempts → db.enrollment.attemptCount ≤ db.exam.maxAttempts.toNat

theorem WithinRetakeCap.same {db db' : Db} (h : WithinRetakeCap db) (hexam : db'.exam = db.exam)
    (hsame : SameAttempts db db') : WithinRetakeCap db' := by
  unfold WithinRetakeCap
  rw [hexam, hsame.count]
  exact h

theorem checkRetake_cap {db : Db} (h : checkRetake db db.exam db.enrollment = .ok ())
    (hp : db.exam.retakePolicy = .maxAttempts) : db.enrollment.attemptCount < db.exam.maxAttempts := by
  simp only [checkRetake, bind_eq_ok, require_eq_ok, exists_const] at h
  by_contra hge
  exact h.1 ⟨hp, not_lt.mp hge⟩

section
variable [Host] {now : Int} {db db' : Db}

theorem WithinRetakeCap.logged (h : WithinRetakeCap db) (hl : Logged now db db') :
    WithinRetakeCap db' := by
  rcases hl.quiet.sameAttempts with hsame | ⟨a, input, hcreates, rfl⟩
  · exact h.same hl.quiet.exam hsame
  · intro hp
    have hretake : checkRetake db db.exam db.enrollment = .ok () := by
      rcases hl.retake with hlen | hretake
      · simp [Db.create] at hlen
      · exact hretake
    have hcap := checkRetake_cap hretake hp
    change db.enrollment.attemptCount + 1 ≤ db.exam.maxAttempts.toNat
    omega

theorem run_withinRetakeCap (h : WithinRetakeCap db) (cs : List Command)
    (hwrites : ∀ exam now, Command.examWrite exam now ∈ cs →
      exam.retakePolicy = db.exam.retakePolicy ∧ exam.maxAttempts = db.exam.maxAttempts) :
    WithinRetakeCap (run Command.step db cs) := by
  have hinv := run_logged (P := fun _ => True)
    (Q := fun exam => exam.retakePolicy = db.exam.retakePolicy ∧ exam.maxAttempts = db.exam.maxAttempts)
    (I := fun s => WithinRetakeCap s ∧ s.exam.retakePolicy = db.exam.retakePolicy ∧
      s.exam.maxAttempts = db.exam.maxAttempts)
    (fun _ _ _ _ h hl => ⟨h.1.logged hl, hl.quiet.exam ▸ h.2⟩)
    (fun _ s a row _ h _ => ⟨h.1.same rfl (sameAttempts_adjust s a row), h.2⟩)
    (fun s exam h _ hw => ⟨fun hp => ?_, hw⟩) cs db (fun _ _ => trivial) hwrites ⟨h, rfl, rfl⟩
  · exact hinv.1
  · have hcap := h.1 (h.2.1.trans (hw.1.symm.trans hp))
    rw [h.2.2] at hcap
    exact hw.2 ▸ hcap

end

/-! ## Completed enrollments -/

theorem completed_target {e : ExamEnrollment} {target : EnrollmentStatus} (h : e.status = .completed)
    (hallow : EnrollmentAllows e target) : target = .completed := by
  rcases hallow with heq | hmem
  · exact heq.symm.trans h
  · rw [h] at hmem
    cases hmem

section
variable [Host] {now : Int} {db db' : Db}

theorem Change.completed (hc : Change now db db') (h : db.enrollment.status = .completed) :
    db'.enrollment.status = .completed ∧ SameAttempts db db' := by
  rcases hc.sameAttempts with hsame | ⟨a, input, hcreates, -⟩
  · refine ⟨?_, hsame⟩
    cases hc with
    | adjust _ => exact h
    | examWrite _ => exact h
    | quiet hq =>
      cases hq with
      | close hcloses =>
        exact (project_identity _ _ _ _ _ _).2.2.2.2.trans (completed_target h hcloses.allowed)
      | create hcreates => cases completed_target h hcreates.allowed
      | _ => exact h
  · cases completed_target h hcreates.allowed

theorem run_completed (h : db.enrollment.status = .completed) (cs : List Command) :
    SameAttempts db (run Command.step db cs) :=
  closure_relation (P := fun s => s.enrollment.status = .completed) SameAttempts.refl
    (fun _ _ _ h h' => h.trans h') (fun _ _ h hc => hc.elim fun _ hc => (hc.completed h).1)
    (fun _ _ h hc => hc.elim fun _ hc => (hc.completed h).2) (run_changes cs db) h

/-! ## Resuming and restoring -/

theorem restore_sameAttempts {cap : LockedEnrollmentAttemptIdentity} {fresh : FreshAdjustment}
    {r : RestoreInterruptionResult} (h : restoreInterruptedAttempt db cap now fresh = .ok (r, db')) :
    SameAttempts db db' := by
  simp only [restoreInterruptedAttempt, bind_eq_ok, orThrow_eq_ok] at h
  obtain ⟨a, ha, exam, hexam, h⟩ := h
  have hid : a.id = cap.attemptId := Db.findAttempt_id ha
  obtain ⟨-, rfl⟩ := Db.findExam_eq_some.mp hexam
  have hsame : ∀ {x : Result RestoreInterruptionResult} {s s' : Db},
      (do pure (← x, s) : Result (RestoreInterruptionResult × Db)) = .ok (r, s') → s' = s := by
    intro x s s' hx
    simp only [bind_eq_ok, pure_eq_ok, Prod.mk.injEq] at hx
    obtain ⟨_, -, -, rfl⟩ := hx
    rfl
  split at h
  · exact hsame h ▸ SameAttempts.refl db
  · exact hsame h ▸ SameAttempts.refl db
  · exact hsame h ▸ SameAttempts.refl db
  · exact hsame h ▸ SameAttempts.refl db
  · rename_i hs
    simp only [bind_eq_ok, orThrow_eq_ok] at h
    obtain ⟨i, hp, t, hi, snapshot, hsnap, detected, hdet, ⟨d, db₁⟩, hcomp, ⟨r₁, db₂⟩, hrec, h⟩ := h
    obtain ⟨hopen, ht⟩ := openInterruption_ok hp hi hdet
    rw [ht] at hcomp
    have h₁ : SameAttempts db db₁ := by
      rcases (compensate_ok (hid ▸ ha) hs hsnap hopen hcomp).1 with rfl | ⟨row, -, -, rfl⟩
      · exact .refl _
      · exact sameAttempts_adjust db _ _
    have h₂ : SameAttempts db₁ db₂ := by
      obtain ⟨b, -, ⟨-, rfl⟩ | ⟨d, events, -, -, -, ⟨-, -, rfl⟩ | ⟨-, aggregated, -, -, rfl⟩⟩⟩ :=
        reconcile_ok hrec
      · exact .refl _
      · exact sameAttempts_freeze _ _ _ _ _
      · exact (sameAttempts_freeze _ _ _ _ _).trans (sameAttempts_close _ _ _ _)
    split at h
    · exact hsame h ▸ h₁.trans h₂
    · simp only [restoreAttemptState, hs, bind_eq_ok, orThrow_eq_ok, pure_eq_ok, Prod.mk.injEq] at h
      obtain ⟨⟨_, db₃⟩, ⟨-, rfl⟩, db₄, hins, _, -, -, rfl⟩ := h
      obtain ⟨-, -, -, -, rfl⟩ := Db.insertInterruptionEvent_eq_ok.mp hins
      exact (h₁.trans h₂).trans ⟨sameAttempts_update db₂ a.id (f := (·.restore now)) fun _ => rfl, rfl⟩
  · cases h

theorem start_active {input : StartAttemptInput} {r : StartAttemptResult} {active : ExamAttempt}
    (hactive : db.findActiveByEnrollment db.enrollment.id = some active)
    (h : startOrRestoreAttempt db input = .ok (r, db')) : r.isNew = false ∧ SameAttempts db db' := by
  simp only [startOrRestoreAttempt, bind_eq_ok, orThrow_eq_ok] at h
  obtain ⟨exam, -, syncDeadline, -, enrollment, henr, h⟩ := h
  obtain ⟨-, -, rfl⟩ := Db.findEnrollment_eq_some.mp henr
  simp only [hactive, bind_eq_ok, require_eq_ok, orThrow_eq_ok, exists_const] at h
  obtain ⟨locked, -, -, h⟩ := h
  split at h
  · simp only [pure_eq_ok, Prod.mk.injEq] at h
    obtain ⟨rfl, rfl⟩ := h
    exact ⟨rfl, .refl _⟩
  · simp only [bind_eq_ok, pure_eq_ok, Prod.mk.injEq] at h
    obtain ⟨⟨r₁, db₁⟩, hrestore, rfl, rfl⟩ := h
    exact ⟨rfl, restore_sameAttempts hrestore⟩
  · cases h

/-- Over every run from the assignment, with a fixed retake policy: at most one
attempt is active, the attempts are numbered from 1 to the count, the cap of the
policy holds, a completed enrollment keeps its attempts whatever runs next, and
a start with an active attempt creates none. -/
theorem start_invariants (db₀ : Db) (h₀ : Initial db₀) (cs : List Command)
    (hwrites : ∀ exam now, Command.examWrite exam now ∈ cs →
      exam.retakePolicy = db₀.exam.retakePolicy ∧ exam.maxAttempts = db₀.exam.maxAttempts) :
    (∀ a ∈ (run Command.step db₀ cs).attempts, ∀ b ∈ (run Command.step db₀ cs).attempts,
      a.Active → b.Active → a = b) ∧
    (run Command.step db₀ cs).attempts.map (·.attemptNo) =
      List.range' 1 (run Command.step db₀ cs).enrollment.attemptCount ∧
    WithinRetakeCap (run Command.step db₀ cs) ∧
    ((run Command.step db₀ cs).enrollment.status = .completed →
      ∀ cs', SameAttempts (run Command.step db₀ cs) (run Command.step (run Command.step db₀ cs) cs')) ∧
    ∀ input r db' active,
      (run Command.step db₀ cs).findActiveByEnrollment
        (run Command.step db₀ cs).enrollment.id = some active →
      startOrRestoreAttempt (run Command.step db₀ cs) input = .ok (r, db') →
      r.isNew = false ∧ SameAttempts (run Command.step db₀ cs) db' := by
  have hsound := run_attemptsSound h₀.attemptsSound cs
  refine ⟨?_, hsound.numbers, ?_, fun hcompleted cs' => run_completed hcompleted cs', ?_⟩
  · intro a ha b hb hacta hactb
    have hid := hsound.single a.id b.id a b (Rows.row_of_mem _ hsound.ids ha)
      (Rows.row_of_mem _ hsound.ids hb) hacta hactb
    exact List.inj_on_of_nodup_map hsound.ids ha hb hid
  · refine run_withinRetakeCap (fun _ => ?_) cs hwrites
    rw [h₀.attemptCount]
    exact Nat.zero_le _
  · intro input r db' active hactive h
    exact start_active hactive h

end

def sampleCapped : Db :=
  { sampleInitial with exam := { sampleExam with retakePolicy := .maxAttempts, maxAttempts := 2 } }

def sampleSittings : List Command :=
  [sampleStartOf "first" 0, .submit "first" "candidate" 1000, sampleStartOf "second" 2000,
   .submit "second" "candidate" 3000, sampleStartOf "third" 4000]

theorem start_invariants_sample :
    let db := run (@Command.step sampleHost) sampleCapped sampleSittings
    db.attempts.map (·.id) = ["first", "second"] ∧ db.attempts.map (·.attemptNo) = [1, 2] ∧
      WithinRetakeCap db := by
  let _ : Host := sampleHost
  have hrun : ((run Command.step sampleCapped sampleSittings).attempts.map (·.id),
      (run Command.step sampleCapped sampleSittings).enrollment.attemptCount) = (["first",
        "second"], 2) := by
    decide +kernel
  obtain ⟨hids, hcount⟩ := Prod.mk.inj hrun
  have hinit : Initial sampleCapped := ⟨rfl, rfl, rfl, rfl, rfl, rfl, rfl, rfl, ⟨rfl, rfl, rfl⟩⟩
  obtain ⟨-, hnumbers, hcap, -⟩ := start_invariants sampleCapped hinit sampleSittings
    (by simp [sampleSittings, sampleStartOf])
  rw [hcount] at hnumbers
  exact ⟨hids, hnumbers, hcap⟩

end ExamSystem
