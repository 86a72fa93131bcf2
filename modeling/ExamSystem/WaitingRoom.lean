import ExamSystem.AdmissionSound
import ExamSystem.AttemptRows

/-!
# Starts through the waiting room

The candidates of one exam with their memberships: a start consults the gate
and consumes the membership in the transaction that creates the attempt.
-/

namespace ExamSystem.Admission

open Tx

structure WaitingRoom where
  organizationId : String
  exam : Exam
  admissions : Admissions
  /-- What is stored for each assigned candidate; the exam row is shared. -/
  sittings : Table fun db : Db => db.enrollment.candidateId

namespace WaitingRoom

def sitting (room : WaitingRoom) (candidateId : String) : Option Db :=
  (room.sittings.get candidateId).map fun db => { db with exam := room.exam }

def passGate (room : WaitingRoom) (candidateId : String) (now : Int) (attemptId : String) :
    Result (Option ExamAdmissionRecord × Admissions) := do
  let (_, t) ← ensureStartAdmission room.organizationId room.exam room.admissions candidateId now
  consumeActive t room.organizationId room.exam.id candidateId now attemptId

section
variable [Host]

/-- A new attempt keeps what its gate did to the memberships; any other outcome
never consults the gate. -/
def startAttempt (room : WaitingRoom) (input : StartAttemptInput) :
    Result (StartAttemptResult × WaitingRoom) := do
  let db ← orThrow (room.sitting input.candidateId) (.permissionDenied NOT_ENROLLED_MESSAGE)
  let gate := room.passGate input.candidateId input.now input.freshAttemptId
  let (result, db') ← startOrRestoreAttempt db { input with admission := some (gate.map (·.1.isSome)) }
  if result.isNew then
    require (∀ other ∈ room.sittings.rows, other.findAttempt input.freshAttemptId = none)
      (.uniqueViolation "exam_attempts_pkey")
    let admissions := if room.exam.controlFlags.requireQueue then commit gate room.admissions
      else room.admissions
    pure (result, { room with sittings := room.sittings.put db', admissions := admissions })
  else pure (result, { room with sittings := room.sittings.put db' })

end

end WaitingRoom

/-- What happens around one exam: the queue route's two commands, and the
commands on the enrollment of a candidate. -/
inductive RoomOp
  | join (candidateId : String) (now : Int) (ids : List String)
  | reconcile (candidateId : String) (now : Int)
  | command (candidateId : String) (c : Command)

def RoomOp.step [Host] (op : RoomOp) (room : WaitingRoom) : Result (Unit × WaitingRoom) :=
  match op with
  | .join candidateId now ids => do
    let (_, t) ← joinAdmissionQueue room.organizationId room.exam room.admissions candidateId now ids
    pure ((), { room with admissions := t })
  | .reconcile candidateId now =>
    pure ((), { room with
                admissions := (reconcileAdmission room.organizationId room.exam room.admissions
            candidateId now).2 })
  | .command _ (.start input) => do
    let (_, room) ← room.startAttempt input
    pure ((), room)
  | .command _ (.examWrite exam _) => do
    require (exam.id = room.exam.id) (.notFound "Exam not found")
    pure ((), { room with exam := exam })
  | .command candidateId c => do
    let db ← orThrow (room.sitting candidateId) (.notFound "Enrollment not found")
    let (_, db') ← c.step db
    pure ((), { room with sittings := room.sittings.put db' })

/-! ## Memberships over time -/

structure Later (r r' : ExamAdmissionRecord) : Prop where
  exam : r'.organizationId = r.organizationId ∧ r'.examId = r.examId ∧ r'.candidateId = r.candidateId
  key : scheduleKey r' = scheduleKey r
  admitted : ∀ admittedAt ∈ r.admittedAt, r'.admittedAt = some admittedAt
  final : r.consumedAt.isSome → r' = r

theorem Later.refl (r : ExamAdmissionRecord) : Later r r :=
  ⟨⟨rfl, rfl, rfl⟩, rfl, fun _ h => h, fun _ => rfl⟩

theorem Later.trans {r r' r'' : ExamAdmissionRecord} (h : Later r r') (h' : Later r' r'') :
    Later r r'' := by
  refine ⟨⟨h'.exam.1.trans h.exam.1, h'.exam.2.1.trans h.exam.2.1, h'.exam.2.2.trans h.exam.2.2⟩,
    h'.key.trans h.key, ?_, ?_⟩
  · intro admittedAt hat
    exact h'.admitted admittedAt (h.admitted admittedAt hat)
  · intro hconsumed
    have hsame := h.final hconsumed
    rw [hsame] at h'
    rw [h'.final hconsumed]

/-- The table's own constraints: one active membership for each candidate and
exam, and no consumption without an admission. -/
structure Wellformed (t : Admissions) : Prop where
  active : ∀ organizationId examId candidateId id id' r r', t.get id = some r → t.get id' = some r' →
    activeOf organizationId examId candidateId r = true →
    activeOf organizationId examId candidateId r' = true → id = id'
  admitted : ∀ id r, t.get id = some r → r.consumedAt.isSome → r.admittedAt.isSome

section
variable {organizationId : String} {exam : Exam} {t t' : Admissions} {op : AdmissionOp}

theorem get_admitOnce (t : Admissions) (id : String) (now : Int) (k : String) :
    (admitOnce t id now).2.get k = (t.get k).map fun r => if r.id = id ∧
    r.admittedAt = none then r.withAdmittedAt now else r := by
  refine (Table.get_update t (fun r => decide (r.id = id ∧ r.admittedAt = none))
      (f := (·.withAdmittedAt now)) (fun _ => rfl) k).trans ?_
  simp only [decide_eq_true_eq]

theorem get_consumed (t : Admissions) (organizationId examId candidateId attemptId : String)
    (consumedAt : Int) (k : String) :
    (consumed t organizationId examId candidateId consumedAt attemptId).get k =
      (t.get k).map fun r => if activeOf organizationId examId candidateId r = true then r.consume
        consumedAt attemptId else r :=
  Table.get_update t (activeOf organizationId examId candidateId)
    (f := (·.consume consumedAt attemptId)) (fun _ => rfl) k

theorem activeOf_iff {organizationId examId candidateId : String} {r : ExamAdmissionRecord} :
    activeOf organizationId examId candidateId r = true ↔
      (r.organizationId = organizationId ∧ r.examId = examId) ∧ r.candidateId = candidateId ∧
      r.consumedAt = none := by
  simp [activeOf, ofExam]

theorem later_admission {r : ExamAdmissionRecord}
    (hadmitted : r.consumedAt.isSome → r.admittedAt.isSome) {id : String} {now : Int} :
    Later r (if r.id = id ∧ r.admittedAt = none then r.withAdmittedAt now else r) := by
  by_cases hhit : r.id = id ∧ r.admittedAt = none
  · rw [if_pos hhit]
    refine ⟨⟨rfl, rfl, rfl⟩, rfl, ?_, ?_⟩
    · intro admittedAt hat
      rw [hhit.2] at hat
      cases hat
    · intro hconsumed
      have := hadmitted hconsumed
      rw [hhit.2] at this
      cases this
  · rw [if_neg hhit]
    exact .refl r

theorem later_consume (r : ExamAdmissionRecord)
    (organizationId examId candidateId attemptId : String) (consumedAt : Int) :
    Later r (if activeOf organizationId examId candidateId r = true then r.consume consumedAt
        attemptId else r) := by
  by_cases hhit : activeOf organizationId examId candidateId r = true
  · rw [if_pos hhit]
    refine ⟨⟨rfl, rfl, rfl⟩, rfl, fun _ h => h, ?_⟩
    intro hconsumed
    rw [(activeOf_iff.mp hhit).2.2] at hconsumed
    cases hconsumed
  · rw [if_neg hhit]
    exact .refl r

theorem Moves.later (hm : Moves organizationId exam t op t') {id : String} {r : ExamAdmissionRecord}
    (hw : Wellformed t) (hr : t.get id = some r) : ∃ r', t'.get id = some r' ∧ Later r r' := by
  cases hm with
  | stay => exact ⟨r, hr, .refl r⟩
  | @join candidateId now ids newId hnone hid =>
    have hnew : t.get newId = none := by simpa using List.find?_some hid
    have hne : id ≠ newId := by
      rintro rfl
      rw [hnew] at hr
      cases hr
    exact ⟨r, by rw [Table.get_put]; exact (if_neg hne).trans hr, .refl r⟩
  | admission hactive hwaiting he =>
    exact ⟨_, by rw [get_admitOnce, hr]; rfl, later_admission (hw.admitted id r hr)⟩
  | consume hadmitted =>
    exact ⟨_, by rw [get_consumed, hr]; rfl, later_consume ..⟩

theorem Wellformed.put (hw : Wellformed t) {examId candidateId newId : String} {now : Int}
    (hnone : findActive t organizationId examId candidateId = none) :
    Wellformed (t.put (newMembership organizationId examId candidateId now newId)) := by
  rw [findActive, Table.find_eq_none] at hnone
  -- whoever is active with the new membership is the new membership
  have hother : ∀ {o e c : String} {k : String} {r : ExamAdmissionRecord}, t.get k = some r →
      activeOf o e c r = true →
      activeOf o e c (newMembership organizationId examId candidateId now newId) = true → False := by
    intro o e c k r hr ha hb
    obtain ⟨⟨hoe, he⟩, hc, -⟩ := activeOf_iff.mp hb
    subst hoe he hc
    exact Bool.false_ne_true ((hnone k r hr).symm.trans ha)
  constructor
  · intro o e c k k' r r' hr hr' ha hb
    rw [Table.get_put] at hr hr'
    split at hr <;> split at hr'
    · rename_i hk hk'
      exact hk.trans hk'.symm
    · cases hr
      exact (hother hr' hb ha).elim
    · cases hr'
      exact (hother hr ha hb).elim
    · exact hw.active o e c k k' r r' hr hr' ha hb
  · intro k r hr hconsumed
    rw [Table.get_put] at hr
    split at hr
    · cases hr
      cases hconsumed
    · exact hw.admitted k r hr hconsumed

theorem Wellformed.of_old (hw : Wellformed t)
    (h : ∀ k r, t'.get k = some r → ∃ r₀, t.get k = some r₀ ∧ (∀ o e c, activeOf o e c r = true →
        activeOf o e c r₀ = true) ∧ (r.consumedAt.isSome → r.admittedAt.isSome)) :
    Wellformed t' := by
  constructor
  · intro o e c k k' r r' hr hr' ha hb
    obtain ⟨r₀, hr₀, ha₀, -⟩ := h k r hr
    obtain ⟨r₁, hr₁, hb₁, -⟩ := h k' r' hr'
    exact hw.active o e c k k' r₀ r₁ hr₀ hr₁ (ha₀ o e c ha) (hb₁ o e c hb)
  · intro k r hr hconsumed
    obtain ⟨r₀, -, -, hadmitted⟩ := h k r hr
    exact hadmitted hconsumed

theorem Wellformed.admitOnce (hw : Wellformed t) (id : String) (now : Int) :
    Wellformed (admitOnce t id now).2 := by
  apply hw.of_old
  intro k r hr
  rw [get_admitOnce, Option.map_eq_some_iff] at hr
  obtain ⟨r₀, hr₀, rfl⟩ := hr
  refine ⟨r₀, hr₀, ?_⟩
  split
  · exact ⟨fun _ _ _ h => h, fun _ => rfl⟩
  · exact ⟨fun _ _ _ h => h, hw.admitted k r₀ hr₀⟩

theorem Wellformed.consumed (hw : Wellformed t) {examId candidateId : String}
    (hadmitted : ∀ r ∈ t.rows, activeOf organizationId examId candidateId r = true →
      r.admittedAt.isSome) (consumedAt : Int) (attemptId : String) :
    Wellformed (consumed t organizationId examId candidateId consumedAt attemptId) := by
  apply hw.of_old
  intro k r hr
  rw [get_consumed, Option.map_eq_some_iff] at hr
  obtain ⟨r₀, hr₀, rfl⟩ := hr
  refine ⟨r₀, hr₀, ?_⟩
  split
  · rename_i hhit
    refine ⟨?_, fun _ => hadmitted r₀ (Table.mem_of_get hr₀) hhit⟩
    intro o e c hactive
    cases (activeOf_iff.mp hactive).2.2
  · exact ⟨fun _ _ _ h => h, hw.admitted k r₀ hr₀⟩

theorem Moves.wellformed (hm : Moves organizationId exam t op t') (hw : Wellformed t) :
    Wellformed t' := by
  cases hm with
  | stay => exact hw
  | join hnone hid => exact hw.put hnone
  | admission hactive hwaiting he => exact hw.admitOnce _ _
  | consume hadmitted => exact hw.consumed hadmitted _ _

/-! ## The instant of eligibility -/

/-- A later join leaves the eligibility of a membership. -/
theorem eligible_put_later {candidateId newId : String} {now : Int} (hnew : t.get newId = none)
    {r : ExamAdmissionRecord} (hr : r ∈ membersOf organizationId exam.id t) (hlt : r.joinedAt < now)
    (at' : Int) :
    Eligible organizationId exam
      (t.put (newMembership organizationId exam.id candidateId now newId)) r at' ↔
      Eligible organizationId exam t r at' := by
  have hbehind : ¬ toLex (now, newId) < scheduleKey r := by
    rw [scheduleKey, Prod.Lex.toLex_lt_toLex]
    simp only [not_or, not_and]
    exact ⟨by omega, fun heq => absurd heq (by omega)⟩
  unfold Eligible
  rw [released_put hnew hr (by omega), scheduleOrdinal_put hnew, if_neg hbehind, Int.add_zero]

def AdmissionOp.JoinsAfter (op : AdmissionOp) (joinedAt : Int) : Prop :=
  match op with
  | .join _ now _ => joinedAt < now
  | _ => True

theorem Moves.eligible (hm : Moves organizationId exam t op t') {r : ExamAdmissionRecord}
    (hr : r ∈ membersOf organizationId exam.id t) (hlater : op.JoinsAfter r.joinedAt) {exam' : Exam}
    (hexam : exam'.id = exam.id) (now : Int) :
    Eligible organizationId exam' t' r now ↔ Eligible organizationId exam' t r now := by
  cases hm with
  | stay => rfl
  | @join candidateId joinedAt ids newId hnone hid =>
    have hnew : t.get newId = none := by simpa using List.find?_some hid
    rw [← hexam] at hr ⊢
    exact eligible_put_later hnew hr hlater now
  | @admission candidateId admittedAt r₀ hactive hwaiting he =>
    exact eligible_congr (schedule_admitOnce t organizationId exam'.id r₀.id admittedAt) rfl now
  | @consume candidateId attemptId consumedAt hadmitted =>
    have hsame := schedule_consumed t organizationId exam'.id candidateId attemptId consumedAt
    rw [hexam] at hsame
    exact eligible_congr (hexam ▸ hsame) rfl now

end

/-! ## What happens in the room -/

structure SittingKept (db db' : Db) : Prop where
  candidate : db'.enrollment.candidateId = db.enrollment.candidateId
  attempts : ∀ attemptId a, db.findAttempt attemptId = some a →
    ∃ a', db'.findAttempt attemptId = some a'

theorem SittingKept.refl (db : Db) : SittingKept db db := ⟨rfl, fun _ a ha => ⟨a, ha⟩⟩

theorem SittingKept.trans {db db' db'' : Db} (h : SittingKept db db') (h' : SittingKept db' db'') :
    SittingKept db db'' := by
  refine ⟨h'.candidate.trans h.candidate, ?_⟩
  intro attemptId a ha
  obtain ⟨a', ha'⟩ := h.attempts attemptId a ha
  exact h'.attempts attemptId a' ha'

section
variable [Host]

theorem sittingKept_change {now : Int} {db db' : Db} (hc : Change now db db') : SittingKept db db' := by
  constructor
  · cases hc with
    | adjust => rfl
    | examWrite => rfl
    | quiet hq =>
      cases hq with
      | close =>
        simp only [Db.close, ExamEnrollment.project]
        split <;> rfl
      | _ => rfl
  · intro attemptId a ha
    obtain ⟨a', ha', -⟩ := hc.row ha
    exact ⟨a', ha'⟩

theorem sittingKept_step {c : Command} {db db' : Db} {u : Unit} (h : c.step db = .ok (u, db')) :
    SittingKept db db' :=
  closure_relation (P := fun _ => True) SittingKept.refl (fun _ _ _ => SittingKept.trans)
    (fun _ _ _ _ => trivial)
    (fun _ _ _ ⟨_, hc⟩ => sittingKept_change hc) (step_changes c db u db' h) trivial

theorem start_new {db db' : Db} {input : StartAttemptInput} {r : StartAttemptResult}
    (h : startOrRestoreAttempt db input = .ok (r, db')) (hnew : r.isNew = true) :
    Creates db r.attempt input ∧ db' = db.create r.attempt ∧
      (db.exam.controlFlags.requireQueue = true → input.admission = some (.ok true)) := by
  simp only [startOrRestoreAttempt, bind_eq_ok, orThrow_eq_ok] at h
  obtain ⟨exam, hexam, syncDeadline, -, enrollment, henr, h⟩ := h
  obtain ⟨hid, rfl⟩ := Db.findExam_eq_some.mp hexam
  obtain ⟨he, hc, rfl⟩ := Db.findEnrollment_eq_some.mp henr
  split at h
  · rename_i hidle
    obtain ⟨hcreates, -, -, -, hdb⟩ := createNewAttempt_ok h hidle hid ⟨he, hc⟩
    refine ⟨hcreates, hdb, ?_⟩
    intro hqueue
    simp only [createNewAttempt, bind_eq_ok, require_eq_ok, exists_const] at h
    obtain ⟨_, -, consumed, hgate, _, -, _, -, _, -, _, -, rfl, -⟩ := h
    simp only [checkAdmission, hqueue, if_true, bind_eq_ok, orThrow_eq_ok] at hgate
    obtain ⟨gate, hadmission, rfl⟩ := hgate
    exact hadmission
  · simp only [bind_eq_ok, require_eq_ok, orThrow_eq_ok, exists_const] at h
    obtain ⟨locked, -, -, h⟩ := h
    split at h
    · simp only [pure_eq_ok, Prod.mk.injEq] at h
      obtain ⟨rfl, -⟩ := h
      cases hnew
    · simp only [bind_eq_ok, pure_eq_ok, Prod.mk.injEq] at h
      obtain ⟨_, -, rfl, -⟩ := h
      cases hnew
    · cases h

omit [Host] in
theorem passGate_ok {room : WaitingRoom} {candidateId attemptId : String} {now : Int}
    {c : Option ExamAdmissionRecord} {t : Admissions}
    (h : room.passGate candidateId now attemptId = .ok (c, t)) (hc : c.isSome = true) :
    ∃ t₁ r, Moves room.organizationId room.exam room.admissions (.reconcile candidateId now) t₁ ∧
      (∀ r ∈ t₁.rows, activeOf room.organizationId room.exam.id candidateId r = true →
        r.admittedAt.isSome) ∧
      findActive t₁ room.organizationId room.exam.id candidateId = some r ∧
      t = consumed t₁ room.organizationId room.exam.id candidateId now attemptId := by
  simp only [WaitingRoom.passGate, ensureStartAdmission, consumeActive, bind_eq_ok, orThrow_eq_ok,
    require_eq_ok, pure_eq_ok] at h
  obtain ⟨⟨admitted, t₁⟩, ⟨row, hrow, _, -, hpair⟩, _, hadmitted, hpure⟩ := h
  cases hpair
  cases hpure
  obtain ⟨r, hr, -⟩ := Option.map_eq_some_iff.mp (Option.eq_some_of_isSome hc)
  exact ⟨_, r, reconcileAdmission_moves .., hadmitted, hr, rfl⟩

def RoomOp.queue : RoomOp → Option AdmissionOp
  | .join candidateId now ids => some (.join candidateId now ids)
  | .reconcile candidateId now => some (.reconcile candidateId now)
  | .command _ _ => none

structure AdmittedStart (room : WaitingRoom) (input : StartAttemptInput)
    (result : StartAttemptResult) (r : ExamAdmissionRecord)
    (t₁ : Admissions) (room' : WaitingRoom) : Prop where
  started : room.startAttempt input = .ok (result, room')
  new : result.isNew = true
  creates : ∃ db, room.sitting input.candidateId = some db ∧ Creates db result.attempt input ∧
    room' =
      { room with
        sittings := room.sittings.put (db.create result.attempt)
        admissions := consumed t₁ room.organizationId room.exam.id input.candidateId input.now
          result.attempt.id }
  fresh : ∀ other ∈ room.sittings.rows, other.findAttempt result.attempt.id = none
  admits : Moves room.organizationId room.exam room.admissions
    (.reconcile input.candidateId input.now) t₁
  admitted : ∀ r ∈ t₁.rows, activeOf room.organizationId room.exam.id input.candidateId r = true →
    r.admittedAt.isSome
  active : findActive t₁ room.organizationId room.exam.id input.candidateId = some r

inductive RoomMoves (room : WaitingRoom) : RoomOp → WaitingRoom → Prop
  | queue {op : RoomOp} {aop : AdmissionOp} {t : Admissions} (hop : op.queue = some aop)
      (hm : Moves room.organizationId room.exam room.admissions aop t) : RoomMoves room op
        { room with admissions := t }
  | exam {candidateId : String} {exam : Exam} {now : Int} (h : exam.id = room.exam.id) :
      RoomMoves room (.command candidateId (.examWrite exam now)) { room with exam := exam }
  | sitting {candidateId : String} {c : Command} {key : String} {db db' : Db}
      (hdb : room.sitting key = some db)
      (hk : SittingKept db db') : RoomMoves room (.command candidateId c)
        { room with sittings := room.sittings.put db' }
  | start {candidateId : String} {input : StartAttemptInput} {result : StartAttemptResult}
      {r : ExamAdmissionRecord}
      {t₁ : Admissions} {room' : WaitingRoom} (h : AdmittedStart room input result r t₁ room') :
      RoomMoves room (.command candidateId (.start input)) room'

theorem startAttempt_moves {room room' : WaitingRoom} {input : StartAttemptInput}
    {result : StartAttemptResult} {candidateId : String}
    (h : room.startAttempt input = .ok (result, room')) :
    RoomMoves room (.command candidateId (.start input)) room' := by
  have hstart := h
  simp only [WaitingRoom.startAttempt, bind_eq_ok, orThrow_eq_ok] at h
  obtain ⟨db, hdb, ⟨result', db'⟩, hok, h⟩ := h
  have hkept : SittingKept db db' := by
    apply sittingKept_step (c := .start _) (u := ())
    simp only [Command.step, bind_eq_ok, pure_eq_ok]
    exact ⟨_, hok, rfl⟩
  split at h
  · rename_i hnew
    simp only [bind_eq_ok, require_eq_ok, exists_const, pure_eq_ok, Prod.mk.injEq] at h
    obtain ⟨hfresh, rfl, hroom⟩ := h
    obtain ⟨hcreates, rfl, hgate⟩ := start_new hok hnew
    by_cases hqueue : room.exam.controlFlags.requireQueue = true
    · have hexam : db.exam = room.exam := by
        obtain ⟨_, _, rfl⟩ := Option.map_eq_some_iff.mp hdb
        rfl
      obtain ⟨⟨c, t⟩, hpass, hc⟩ := (map_eq_ok _ _ _).mp (Option.some.inj (hgate (hexam ▸ hqueue)))
      obtain ⟨t₁, r, hadmits, hadmitted, hactive, rfl⟩ := passGate_ok hpass hc
      have hid : result'.attempt.id = input.freshAttemptId := by
        obtain ⟨_, _, hrow⟩ := hcreates.row
        rw [hrow]
        rfl
      rw [hqueue, if_pos rfl, hpass, commit_ok, ← hid] at hroom
      rw [← hid] at hfresh
      have hcreates : Creates db result'.attempt input :=
        ⟨hcreates.fresh, hcreates.numbered, hcreates.row, hcreates.exam, hcreates.belongs,
          hcreates.idle, hcreates.allowed⟩
      exact .start ⟨hstart, hnew, ⟨db, hdb, hcreates, hroom.symm⟩, hfresh, hadmits, hadmitted, hactive⟩
    · rw [if_neg hqueue] at hroom
      exact hroom ▸ .sitting hdb hkept
  · simp only [pure_eq_ok, Prod.mk.injEq] at h
    exact h.2 ▸ .sitting hdb hkept

theorem sitting_moves {room room' : WaitingRoom} {candidateId : String} {c : Command} {u : Unit}
    (h : (do
      let db ← orThrow (room.sitting candidateId) (.notFound "Enrollment not found")
      let (_, db') ← c.step db
      pure ((), { room with sittings := room.sittings.put db' }) : Result (Unit × WaitingRoom)) =
        .ok (u, room')) :
    RoomMoves room (.command candidateId c) room' := by
  simp only [bind_eq_ok, orThrow_eq_ok, pure_eq_ok, Prod.mk.injEq] at h
  obtain ⟨db, hdb, ⟨u', db'⟩, hstep, -, rfl⟩ := h
  exact .sitting hdb (sittingKept_step hstep)

theorem RoomOp.step_moves {op : RoomOp} {room room' : WaitingRoom} {u : Unit}
    (h : op.step room = .ok (u, room')) :
    RoomMoves room op room' := by
  cases op with
  | join candidateId now ids =>
    simp only [RoomOp.step, bind_eq_ok, pure_eq_ok, Prod.mk.injEq] at h
    obtain ⟨⟨row, t⟩, hjoin, -, rfl⟩ := h
    refine .queue rfl (AdmissionOp.step_moves (u := ()) ?_)
    simp only [AdmissionOp.step, bind_eq_ok, pure_eq_ok]
    exact ⟨_, hjoin, rfl⟩
  | reconcile candidateId now =>
    cases h
    exact .queue rfl (reconcileAdmission_moves ..)
  | command candidateId c =>
    cases c with
    | start input =>
      simp only [RoomOp.step, bind_eq_ok, pure_eq_ok, Prod.mk.injEq] at h
      obtain ⟨⟨result, room₁⟩, hstart, -, rfl⟩ := h
      exact startAttempt_moves hstart
    | examWrite exam now =>
      simp only [RoomOp.step, bind_eq_ok, require_eq_ok, exists_const, pure_eq_ok, Prod.mk.injEq] at h
      obtain ⟨hid, -, rfl⟩ := h
      exact .exam hid
    | _ => exact sitting_moves h

/-! ## What a room keeps -/

def consumption (r : ExamAdmissionRecord) : Option Int × Option String :=
  (r.consumedAt, r.consumedAttemptId)

def AttemptStored (sittings : Table fun db : Db => db.enrollment.candidateId) (attemptId : String) :
    Prop :=
  ∃ key db a, sittings.get key = some db ∧ db.findAttempt attemptId = some a

structure RoomInv (room : WaitingRoom) : Prop where
  wellformed : Wellformed room.admissions
  member : ∀ id r, room.admissions.get id = some r → ofExam room.organizationId room.exam.id r = true
  paired : ∀ id r, room.admissions.get id = some r → r.consumedAt.isSome = r.consumedAttemptId.isSome
  stored : ∀ id r, room.admissions.get id = some r → ∀ attemptId ∈ r.consumedAttemptId,
    AttemptStored room.sittings attemptId
  distinct : ∀ id id' r r' attemptId, room.admissions.get id = some r →
    room.admissions.get id' = some r' →
    r.consumedAttemptId = some attemptId → r'.consumedAttemptId = some attemptId → id = id'

omit [Host] in
/-- A queue command brings unconsumed memberships of the exam and keeps consumptions. -/
theorem Moves.older {organizationId : String} {exam : Exam} {t t' : Admissions} {op : RoomOp}
    {aop : AdmissionOp} (hm : Moves organizationId exam t aop t') (hop : op.queue = some aop)
    {id : String} {r' : ExamAdmissionRecord} (hr' : t'.get id = some r') :
    (consumption r' = (none, none) ∧ ofExam organizationId exam.id r' = true) ∨
      ∃ r, t.get id = some r ∧ consumption r' = consumption r ∧
        ∀ o e c, activeOf o e c r' = activeOf o e c r ∧ ofExam o e r' = ofExam o e r := by
  cases hm with
  | stay => exact .inr ⟨r', hr', rfl, fun _ _ _ => ⟨rfl, rfl⟩⟩
  | @join candidateId now ids newId hnone hid =>
    rw [Table.get_put] at hr'
    split at hr'
    · cases hr'
      exact .inl ⟨rfl, by simp [ofExam, newMembership]⟩
    · exact .inr ⟨r', hr', rfl, fun _ _ _ => ⟨rfl, rfl⟩⟩
  | admission hactive hwaiting he =>
    rw [get_admitOnce, Option.map_eq_some_iff] at hr'
    obtain ⟨r, hr, rfl⟩ := hr'
    refine .inr ⟨r, hr, ?_⟩
    split <;> exact ⟨rfl, fun _ _ _ => ⟨rfl, rfl⟩⟩
  | consume hadmitted =>
    cases op <;> cases hop

omit [Host] in
theorem sitting_key {room : WaitingRoom} {key : String} {db : Db} (hdb : room.sitting key = some db) :
    db.enrollment.candidateId = key := by
  obtain ⟨d, hd, rfl⟩ := Option.map_eq_some_iff.mp hdb
  have hkey := Table.key_get hd
  exact hkey

omit [Host] in
theorem sitting_put {room room' : WaitingRoom} {key : String} {db db' : Db}
    (hdb : room.sitting key = some db) (hk : SittingKept db db')
    (hs : room'.sittings = room.sittings.put db') :
    room'.sitting key = some { db' with exam := room'.exam } := by
  have hkey := hk.candidate.trans (sitting_key hdb)
  rw [WaitingRoom.sitting, hs, Table.get_put, if_pos hkey.symm]
  rfl

omit [Host] in
theorem attemptStored_put {room : WaitingRoom} {key : String} {db db' : Db}
    (hdb : room.sitting key = some db) (hk : SittingKept db db') {attemptId : String}
    (h : AttemptStored room.sittings attemptId) :
    AttemptStored (room.sittings.put db') attemptId := by
  obtain ⟨k, d, a, hd, ha⟩ := h
  have hkey : db'.enrollment.candidateId = key := hk.candidate.trans (sitting_key hdb)
  obtain ⟨d₀, hd₀, rfl⟩ := Option.map_eq_some_iff.mp hdb
  by_cases hsame : k = key
  · subst hsame
    obtain rfl : d = d₀ := Option.some.inj (hd.symm.trans hd₀)
    obtain ⟨a', ha'⟩ := hk.attempts attemptId a ha
    exact ⟨k, db', a', by rw [Table.get_put, if_pos hkey.symm], ha'⟩
  · exact ⟨k, d, a, by rw [Table.get_put, if_neg (by rw [hkey]; exact hsame)]; exact hd, ha⟩

theorem sittingKept_create {db : Db} {a : ExamAttempt} {input : StartAttemptInput}
    (h : Creates db a input) : SittingKept db (db.create a) :=
  sittingKept_change (show Change input.now db _ from .quiet (.create h))

omit [Host] in
theorem RoomInv.queue {room : WaitingRoom} (hi : RoomInv room) {op : RoomOp} {aop : AdmissionOp}
    {t : Admissions} (hop : op.queue = some aop)
    (hm : Moves room.organizationId room.exam room.admissions aop t) :
    RoomInv { room with admissions := t } := by
  refine ⟨hm.wellformed hi.wellformed, ?_, ?_, ?_, ?_⟩
  · intro id r hr
    rcases hm.older hop hr with ⟨-, hof⟩ | ⟨r₀, hr₀, -, hsame⟩
    · exact hof
    · exact ((hsame _ _ "").2).trans (hi.member id r₀ hr₀)
  · intro id r hr
    rcases hm.older hop hr with ⟨hnone, -⟩ | ⟨r₀, hr₀, hc, -⟩
    · rw [(Prod.mk.inj hnone).1, (Prod.mk.inj hnone).2]
      rfl
    · rw [(Prod.mk.inj hc).1, (Prod.mk.inj hc).2]
      exact hi.paired id r₀ hr₀
  · intro id r hr attemptId ha
    rcases hm.older hop hr with ⟨hnone, -⟩ | ⟨r₀, hr₀, hc, -⟩
    · rw [(Prod.mk.inj hnone).2] at ha
      cases ha
    · rw [(Prod.mk.inj hc).2] at ha
      exact hi.stored id r₀ hr₀ attemptId ha
  · intro id id' r r' attemptId hr hr' ha ha'
    rcases hm.older hop hr with ⟨hnone, -⟩ | ⟨r₀, hr₀, hc, -⟩
    · rw [(Prod.mk.inj hnone).2] at ha
      cases ha
    rcases hm.older hop hr' with ⟨hnone, -⟩ | ⟨r₁, hr₁, hc', -⟩
    · rw [(Prod.mk.inj hnone).2] at ha'
      cases ha'
    rw [(Prod.mk.inj hc).2] at ha
    rw [(Prod.mk.inj hc').2] at ha'
    exact hi.distinct id id' r₀ r₁ attemptId hr₀ hr₁ ha ha'

omit [Host] in
/-- The consumption of the membership `r` for an attempt that no consumption names. -/
theorem RoomInv.consume {room : WaitingRoom} (hi : RoomInv room) {candidateId attemptId : String}
    {now : Int} {r : ExamAdmissionRecord}
    {sittings : Table fun db : Db => db.enrollment.candidateId}
    (hactive : findActive room.admissions room.organizationId room.exam.id candidateId = some r)
    (hadmitted : ∀ r ∈ room.admissions.rows, activeOf room.organizationId room.exam.id candidateId
        r = true → r.admittedAt.isSome)
    (hkept : ∀ a, AttemptStored room.sittings a → AttemptStored sittings a)
    (hstored : AttemptStored sittings attemptId) (hfresh : ¬ AttemptStored room.sittings attemptId) :
    RoomInv { room with
      sittings := sittings
      admissions := consumed room.admissions room.organizationId room.exam.id candidateId now
        attemptId } := by
  obtain ⟨hr, hhit⟩ := Table.find_eq_some hactive
  -- a row is the consumed one, or it is as it was
  have hrow : ∀ {id : String} {x : ExamAdmissionRecord},
      (consumed room.admissions room.organizationId room.exam.id candidateId now attemptId).get
        id = some x →
      (id = r.id ∧ x = r.consume now attemptId) ∨ room.admissions.get id = some x := by
    intro id x hx
    rw [get_consumed, Option.map_eq_some_iff] at hx
    obtain ⟨x₀, hx₀, rfl⟩ := hx
    split
    · rename_i hhit₀
      obtain rfl := hi.wellformed.active _ _ _ id r.id x₀ r hx₀ hr hhit₀ hhit
      rw [Option.some.inj (hx₀.symm.trans hr)]
      exact .inl ⟨rfl, rfl⟩
    · exact .inr hx₀
  refine ⟨hi.wellformed.consumed hadmitted now attemptId, ?_, ?_, ?_, ?_⟩
  · intro id x hx
    rcases hrow hx with ⟨-, rfl⟩ | hx
    · exact hi.member r.id r hr
    · exact hi.member id x hx
  · intro id x hx
    rcases hrow hx with ⟨-, rfl⟩ | hx
    · rfl
    · exact hi.paired id x hx
  · intro id x hx a ha
    rcases hrow hx with ⟨-, rfl⟩ | hx
    · obtain rfl : attemptId = a := Option.some.inj ha
      exact hstored
    · exact hkept a (hi.stored id x hx a ha)
  · intro id id' x x' a hx hx' ha ha'
    rcases hrow hx with ⟨rfl, rfl⟩ | hx <;> rcases hrow hx' with ⟨rfl, rfl⟩ | hx'
    · rfl
    · obtain rfl : attemptId = a := Option.some.inj ha
      exact absurd (hi.stored id' x' hx' attemptId ha') hfresh
    · obtain rfl : attemptId = a := Option.some.inj ha'
      exact absurd (hi.stored id x hx attemptId ha) hfresh
    · exact hi.distinct id id' x x' a hx hx' ha ha'

theorem RoomMoves.inv {room room' : WaitingRoom} {op : RoomOp} (hm : RoomMoves room op room')
    (hi : RoomInv room) : RoomInv room' := by
  cases hm with
  | queue hop hm => exact hi.queue hop hm
  | exam h => exact ⟨hi.wellformed, by rw [h]; exact hi.member, hi.paired, hi.stored, hi.distinct⟩
  | sitting hdb hk =>
    exact ⟨hi.wellformed, hi.member, hi.paired,
      fun id r hr a ha => attemptStored_put hdb hk (hi.stored id r hr a ha), hi.distinct⟩
  | @start candidateId input result r t₁ room' h =>
    obtain ⟨db, hdb, hcreates, rfl⟩ := h.creates
    have hkept := sittingKept_create hcreates
    have h₁ := hi.queue (show RoomOp.queue (.reconcile input.candidateId input.now) = _
        from rfl) h.admits
    refine h₁.consume h.active h.admitted (fun a => attemptStored_put hdb hkept) ?_ ?_
    · exact ⟨_, db.create result.attempt, result.attempt, by rw [Table.get_put, if_pos rfl],
        (Db.findAttempt_append hcreates.fresh _).trans (if_pos rfl)⟩
    · rintro ⟨key, d, a, hd, ha⟩
      rw [h.fresh d (Table.mem_of_get hd)] at ha
      cases ha

theorem RoomMoves.later {room room' : WaitingRoom} {op : RoomOp} (hm : RoomMoves room op room')
    (hi : RoomInv room) {id : String} {r : ExamAdmissionRecord}
    (hr : room.admissions.get id = some r) :
    ∃ r', room'.admissions.get id = some r' ∧ Later r r' := by
  cases hm with
  | queue hop hm => exact hm.later hi.wellformed hr
  | exam h => exact ⟨r, hr, .refl r⟩
  | sitting hdb hk => exact ⟨r, hr, .refl r⟩
  | @start candidateId input result r₀ t₁ room' h =>
    obtain ⟨db, hdb, hcreates, rfl⟩ := h.creates
    obtain ⟨r₁, hr₁, hl₁⟩ := h.admits.later hi.wellformed hr
    obtain ⟨r₂, hr₂, hl₂⟩ := (Moves.consume h.admitted).later (h.admits.wellformed hi.wellformed) hr₁
    exact ⟨r₂, hr₂, hl₁.trans hl₂⟩

/-- A room and what it has become: the memberships are there, with the facts that are final. -/
structure RoomLater (room room' : WaitingRoom) : Prop where
  organization : room'.organizationId = room.organizationId
  exam : room'.exam.id = room.exam.id
  memberships : ∀ id r, room.admissions.get id = some r → ∃ r', room'.admissions.get id = some r' ∧
    Later r r'

omit [Host] in
theorem RoomLater.refl (room : WaitingRoom) : RoomLater room room :=
  ⟨rfl, rfl, fun _ r hr => ⟨r, hr, .refl r⟩⟩

omit [Host] in
theorem RoomLater.trans {room room' room'' : WaitingRoom} (h : RoomLater room room')
    (h' : RoomLater room' room'') :
    RoomLater room room'' := by
  refine ⟨h'.organization.trans h.organization, h'.exam.trans h.exam, ?_⟩
  intro id r hr
  obtain ⟨r', hr', hl⟩ := h.memberships id r hr
  obtain ⟨r'', hr'', hl'⟩ := h'.memberships id r' hr'
  exact ⟨r'', hr'', hl.trans hl'⟩

theorem RoomMoves.roomLater {room room' : WaitingRoom} {op : RoomOp} (hm : RoomMoves room op room')
    (hi : RoomInv room) :
    RoomLater room room' := by
  refine ⟨?_, ?_, fun id r hr => hm.later hi hr⟩
  · cases hm with
    | start h =>
      obtain ⟨db, hdb, hcreates, rfl⟩ := h.creates
      rfl
    | _ => rfl
  · cases hm with
    | start h =>
      obtain ⟨db, hdb, hcreates, rfl⟩ := h.creates
      rfl
    | exam h => exact h
    | _ => rfl

theorem run_inv (ops : List RoomOp) {room : WaitingRoom} (hi : RoomInv room) :
    RoomInv (run RoomOp.step room ops) :=
  run_invariant RoomOp.step (fun _ _ _ _ hi h => (RoomOp.step_moves h).inv hi) ops room hi

theorem run_later (ops : List RoomOp) {room : WaitingRoom} (hi : RoomInv room) :
    RoomLater room (run RoomOp.step room ops) :=
  run_relation RoomOp.step RoomLater.refl (fun _ _ _ => RoomLater.trans)
    (fun _ _ _ _ hi h => (RoomOp.step_moves h).inv hi)
    (fun _ _ _ _ hi h => (RoomOp.step_moves h).roomLater hi) ops room hi

def RoomOp.JoinsAfter (op : RoomOp) (joinedAt : Int) : Prop :=
  match op with
  | .join _ now _ => joinedAt < now
  | _ => True

theorem RoomMoves.eligible {room room' : WaitingRoom} {op : RoomOp} (hm : RoomMoves room op room')
    (hi : RoomInv room) {id : String} {r : ExamAdmissionRecord}
    (hr : room.admissions.get id = some r) (hlater : op.JoinsAfter r.joinedAt) {exam : Exam}
    (hexam : exam.id = room.exam.id) (now : Int) :
    Eligible room.organizationId exam room'.admissions r now ↔
    Eligible room.organizationId exam room.admissions r now := by
  have hmember : r ∈ membersOf room.organizationId room.exam.id room.admissions :=
    List.mem_filter.mpr ⟨Table.mem_of_get hr, hi.member id r hr⟩
  cases hm with
  | @queue op aop t hop hm =>
    refine hm.eligible hmember ?_ hexam now
    cases op <;> cases hop
    · exact hlater
    · trivial
  | exam h => rfl
  | sitting hdb hk => rfl
  | @start candidateId input result r₀ t₁ room' h =>
    obtain ⟨db, hdb, hcreates, rfl⟩ := h.creates
    obtain ⟨r₁, hr₁, hl₁⟩ := h.admits.later hi.wellformed hr
    have h₁ := hi.queue (show RoomOp.queue (.reconcile input.candidateId input.now) = _
        from rfl) h.admits
    have hmember₁ : r₁ ∈ membersOf room.organizationId room.exam.id t₁ :=
      List.mem_filter.mpr ⟨Table.mem_of_get hr₁, h₁.member id r₁ hr₁⟩
    have hadmits := h.admits.eligible hmember trivial hexam now
    have hconsume : Moves room.organizationId room.exam t₁
      (.consume input.candidateId input.now result.attempt.id)
        (consumed t₁ room.organizationId room.exam.id input.candidateId input.now
            result.attempt.id) := .consume h.admitted
    have hconsumes := hconsume.eligible hmember₁ trivial hexam now
    rw [← hadmits]
    exact (eligible_congr rfl hl₁.key.symm now).trans (hconsumes.trans (eligible_congr rfl hl₁.key now))

/-! ## Stability -/

theorem run_eligible {organizationId : String} :
    ∀ (more : List RoomOp) {room : WaitingRoom} {id : String} {r : ExamAdmissionRecord},
    room.organizationId = organizationId → RoomInv room → room.admissions.get id = some r →
    (∀ op ∈ more, op.JoinsAfter r.joinedAt) → ∀ exam : Exam, exam.id = room.exam.id → ∀ now,
    (Eligible organizationId exam (run RoomOp.step room more).admissions r now ↔
      Eligible organizationId exam room.admissions r now)
  | [], _, _, _, _, _, _, _, _, _, _ => Iff.rfl
  | op :: more, room, id, r, horg, hi, hr, hlater, exam, hexam, now => by
    subst horg
    rw [run_cons]
    rcases commit_cases (op.step room) room with he | ⟨u, room', hstep, he⟩
    · rw [he]
      exact run_eligible more rfl hi hr (fun op hop => hlater op (List.mem_cons_of_mem _ hop))
        exam hexam now
    · rw [he]
      have hm := RoomOp.step_moves hstep
      have hroom := hm.roomLater hi
      obtain ⟨r', hr', hl⟩ := hroom.memberships id r hr
      have hjoined : r'.joinedAt = r.joinedAt := congrArg (fun k => (ofLex k).1) hl.key
      have hrest := run_eligible more hroom.organization (hm.inv hi) hr'
        (fun op hop => hjoined ▸ hlater op (List.mem_cons_of_mem _ hop)) exam
          (hexam.trans hroom.exam.symm) now
      rw [eligible_congr rfl hl.key now, eligible_congr rfl hl.key now] at hrest
      exact hrest.trans (hm.eligible hi hr (hlater op List.mem_cons_self) hexam now)

structure Consumes (room : WaitingRoom) (input : StartAttemptInput) (r : ExamAdmissionRecord)
    (result : StartAttemptResult) (room' : WaitingRoom) : Prop where
  started : room.startAttempt input = .ok (result, room')
  new : result.isNew = true
  waiting : ∃ r₀, room.admissions.get r.id = some r₀ ∧ r₀.consumedAt = none ∧ Later r₀ r
  stored : room'.admissions.get r.id = some r
  bound : r.consumedAt = some input.now ∧ r.consumedAttemptId = some result.attempt.id
  attempt : result.attempt.candidateId = r.candidateId ∧ result.attempt.examId = r.examId ∧
    ∃ db, room'.sitting r.candidateId = some db ∧ db.findAttempt result.attempt.id = some result.attempt

/-- The `n`-th operation of a run is the start that consumes the membership. -/
def ConsumedAt (room₀ : WaitingRoom) (ops : List RoomOp) (r : ExamAdmissionRecord) (n : Nat) : Prop :=
  ∃ candidateId input result room', ops[n]? = some (.command candidateId (.start input)) ∧
    Consumes (run RoomOp.step room₀ (ops.take n)) input r result room'

omit [Host] in
theorem Moves.known {organizationId candidateId : String} {exam : Exam} {t t' : Admissions}
    {now : Int} (hm : Moves organizationId exam t (.reconcile candidateId now) t') {id : String}
    {r' : ExamAdmissionRecord} (hr' : t'.get id = some r') : ∃ r, t.get id = some r := by
  cases hm with
  | stay => exact ⟨r', hr'⟩
  | admission hactive hwaiting he =>
    rw [get_admitOnce, Option.map_eq_some_iff] at hr'
    obtain ⟨r, hr, -⟩ := hr'
    exact ⟨r, hr⟩

/-- A membership that is consumed after an admitted start was consumed by it, or before. -/
theorem AdmittedStart.consumes {room room' : WaitingRoom} {input : StartAttemptInput}
    {result : StartAttemptResult} {r₀ r : ExamAdmissionRecord} {t₁ : Admissions}
    (h : AdmittedStart room input result r₀ t₁ room') (hi : RoomInv room)
    (hr : room'.admissions.get r.id = some r) (hconsumed : r.consumedAt.isSome) :
    Consumes room input r result room' ∨ room.admissions.get r.id = some r := by
  obtain ⟨db, hdb, hcreates, hroom⟩ := h.creates
  have hstored := hr
  rw [hroom, get_consumed, Option.map_eq_some_iff] at hr
  obtain ⟨r₁, hr₁, hrow⟩ := hr
  obtain ⟨x, hx⟩ := h.admits.known hr₁
  obtain ⟨x₁, hx₁, hl⟩ := h.admits.later hi.wellformed hx
  obtain rfl : x₁ = r₁ := Option.some.inj (hx₁.symm.trans hr₁)
  by_cases hhit : activeOf room.organizationId room.exam.id input.candidateId x₁ = true
  · left
    rw [if_pos hhit] at hrow
    obtain ⟨⟨-, hexam⟩, hcandidate, hopen⟩ := activeOf_iff.mp hhit
    have hxopen : x.consumedAt = none := by
      cases hx' : x.consumedAt with
      | none => rfl
      | some _ =>
        rw [hl.final (by rw [hx']; rfl), hx'] at hopen
        cases hopen
    have hlr : Later x r := by
      have := later_consume x₁ room.organizationId room.exam.id input.candidateId
        result.attempt.id input.now
      rw [if_pos hhit, hrow] at this
      exact hl.trans this
    obtain ⟨_, _, hattempt⟩ := hcreates.row
    have hcand : r.candidateId = input.candidateId := by
      rw [← hrow]
      exact hcandidate
    have hshared : db.exam = room.exam := by
      obtain ⟨_, _, rfl⟩ := Option.map_eq_some_iff.mp hdb
      rfl
    refine ⟨h.started, h.new, ⟨x, hx, hxopen, hlr⟩, hstored, by rw [← hrow]; exact ⟨rfl, rfl⟩,
      ?_, ?_, ?_⟩
    · rw [hcand, hattempt]
      rfl
    · rw [← hcreates.exam, ← hrow, hshared]
      exact hexam.symm
    · rw [hcand]
      refine ⟨_, sitting_put hdb (sittingKept_create hcreates) (by rw [hroom]), ?_⟩
      exact (Db.findAttempt_append hcreates.fresh _).trans (if_pos rfl)
  · right
    rw [if_neg hhit] at hrow
    subst hrow
    rcases h.admits.older (show RoomOp.queue (.reconcile input.candidateId input.now) = _ from rfl)
      hr₁ with ⟨hnone, -⟩ | ⟨y, hy, hc, -⟩
    · rw [(Prod.mk.inj hnone).1] at hconsumed
      cases hconsumed
    · obtain rfl : x = y := Option.some.inj (hx.symm.trans hy)
      rw [(Prod.mk.inj hc).1] at hconsumed
      have hsame := hl.final hconsumed
      rw [hx, hsame]

theorem consumed_at {room₀ : WaitingRoom} (hi : RoomInv room₀)
    (hnone : ∀ id r, room₀.admissions.get id = some r → r.consumedAt = none) (ops : List RoomOp) :
    ∀ r, (run RoomOp.step room₀ ops).admissions.get r.id = some r → r.consumedAt.isSome →
      ∃ n, ConsumedAt room₀ ops r n := by
  induction ops using List.reverseRecOn with
  | nil =>
    intro r hr hconsumed
    rw [hnone r.id r hr] at hconsumed
    cases hconsumed
  | append_singleton ops op ih =>
    intro r hr hconsumed
    -- what was consumed before was consumed by an earlier start
    have hearlier : (run RoomOp.step room₀ ops).admissions.get r.id = some r →
        ∃ n, ConsumedAt room₀ (ops ++ [op]) r n := by
      intro hr
      obtain ⟨n, candidateId, input, result, room', hn, hc⟩ := ih r hr hconsumed
      have hlt : n < ops.length := (List.getElem?_eq_some_iff.mp hn).1
      refine ⟨n, candidateId, input, result, room', ?_, ?_⟩
      · rw [List.getElem?_append_left hlt]
        exact hn
      · rw [List.take_append_of_le_length hlt.le]
        exact hc
    have hibefore := run_inv ops hi
    rw [run_append, run_cons, run_nil] at hr
    rcases commit_cases (op.step (run RoomOp.step room₀ ops)) (run RoomOp.step room₀ ops) with he
      | ⟨u, room', hstep, he⟩
    · rw [he] at hr
      exact hearlier hr
    · rw [he] at hr
      have hm := RoomOp.step_moves hstep
      cases hm with
      | @queue _ aop t hop hm =>
        rcases hm.older hop hr with ⟨hopen, -⟩ | ⟨r₀, hr₀, hc, -⟩
        · rw [(Prod.mk.inj hopen).1] at hconsumed
          cases hconsumed
        · rw [(Prod.mk.inj hc).1] at hconsumed
          obtain ⟨r', hr', hl⟩ := hm.later hibefore.wellformed hr₀
          have hsame := hl.final hconsumed
          obtain rfl : r' = r := Option.some.inj (hr'.symm.trans hr)
          apply hearlier
          rw [hr₀, hsame]
      | exam h => exact hearlier hr
      | sitting hdb hk => exact hearlier hr
      | @start candidateId input result r₀ t₁ room' h =>
        rcases h.consumes hibefore hr hconsumed with hc | hr
        · refine ⟨ops.length, candidateId, input, result, room', by simp, ?_⟩
          rw [List.take_left]
          exact hc
        · exact hearlier hr

theorem consumed_once {room₀ : WaitingRoom} (hi : RoomInv room₀) {ops : List RoomOp}
    {r : ExamAdmissionRecord} {n m : Nat} (hn : ConsumedAt room₀ ops r n)
    (hm : ConsumedAt room₀ ops r m) : ¬ n < m := by
  intro hlt
  obtain ⟨candidateId, input, result, room', hop, hc⟩ := hn
  obtain ⟨_, _, _, _, hop', hc'⟩ := hm
  -- the membership is final after the first of the two starts
  have hlen : n < ops.length := (List.getElem?_eq_some_iff.mp hop).1
  have hget : ops[n] = .command candidateId (.start input) :=
    Option.some.inj ((List.getElem?_eq_getElem hlen).symm.trans hop)
  have hafter : run RoomOp.step room₀ (ops.take (n + 1)) = room' := by
    rw [List.take_succ_eq_append_getElem hlen, run_append, run_cons, run_nil, hget]
    simp only [RoomOp.step, hc.started, ok_bind]
    rfl
  have hsplit : ops.take m = ops.take (n + 1) ++ (ops.take m).drop (n + 1) := by
    have htake : (ops.take m).take (n + 1) = ops.take (n + 1) := by
      rw [List.take_take, min_eq_left (by omega)]
    rw [← htake, List.take_append_drop]
  have hlater := run_later ((ops.take m).drop (n + 1)) (run_inv (ops.take (n + 1)) hi)
  rw [← run_append, ← hsplit, hafter] at hlater
  obtain ⟨r', hr', hl⟩ := hlater.memberships r.id r hc.stored
  obtain ⟨r₀, hr₀, hopen, -⟩ := hc'.waiting
  have hfinal : r' = r := hl.final (by rw [hc.bound.1]; rfl)
  rw [hr', hfinal] at hr₀
  obtain rfl := Option.some.inj hr₀
  rw [hc.bound.1] at hopen
  cases hopen

def WaitingRoom.opened (organizationId : String) (exam : Exam)
    (sittings : Table fun db : Db => db.enrollment.candidateId) : WaitingRoom :=
  { organizationId := organizationId, exam := exam, admissions := Table.empty, sittings := sittings }

omit [Host] in
theorem opened_inv (organizationId : String) (exam : Exam)
    (sittings : Table fun db : Db => db.enrollment.candidateId) :
    RoomInv (.opened organizationId exam sittings) := by
  have hempty : ∀ {id : String} {r : ExamAdmissionRecord},
      (Table.empty : Admissions).get id = some r → False := by
    intro id r hr
    cases hr
  exact ⟨⟨fun _ _ _ _ _ _ _ hr => (hempty hr).elim, fun _ _ hr => (hempty hr).elim⟩,
    fun _ _ hr => (hempty hr).elim,
    fun _ _ hr => (hempty hr).elim, fun _ _ hr => (hempty hr).elim, fun _ _ _ _ _ hr =>
      (hempty hr).elim⟩

/-- Over every run: later joins, starts and consumptions leave the eligibility of a
membership at every instant, `admittedAt` is written at most once, a candidate has
at most one unconsumed membership, and a consumed membership was consumed by exactly
one start, for the attempt that this start created and no other membership names. -/
theorem admission_stability (organizationId : String) (exam : Exam)
    (sittings : Table fun db : Db => db.enrollment.candidateId) (ops : List RoomOp) :
    let room₀ := WaitingRoom.opened organizationId exam sittings
    let room := run RoomOp.step room₀ ops
    (∀ id r more, room.admissions.get id = some r → (∀ op ∈ more, op.JoinsAfter r.joinedAt) →
      ∀ exam' : Exam, exam'.id = room.exam.id → ∀ now,
        (Eligible room.organizationId exam' (run RoomOp.step room more).admissions r now ↔
          Eligible room.organizationId exam' room.admissions r now)) ∧
    (∀ id r more, room.admissions.get id = some r →
      ∃ r', (run RoomOp.step room more).admissions.get id = some r' ∧ scheduleKey r' = scheduleKey r ∧
        ∀ admittedAt ∈ r.admittedAt, r'.admittedAt = some admittedAt) ∧
    (∀ organizationId examId candidateId id id' r r', room.admissions.get id = some r →
      room.admissions.get id' = some r' →
      activeOf organizationId examId candidateId r = true →
      activeOf organizationId examId candidateId r' = true → id = id') ∧
    (∀ r more, room.admissions.get r.id = some r → r.consumedAt.isSome →
      (∃! n, ConsumedAt room₀ ops r n) ∧ (run RoomOp.step room more).admissions.get r.id = some r) ∧
    (∀ r r' attemptId, room.admissions.get r.id = some r → room.admissions.get r'.id = some r' →
      r.consumedAttemptId = some attemptId → r'.consumedAttemptId = some attemptId → r = r') := by
  intro room₀ room
  have hi₀ : RoomInv room₀ := opened_inv organizationId exam sittings
  have hi : RoomInv room := run_inv ops hi₀
  refine ⟨?_, ?_, hi.wellformed.active, ?_, ?_⟩
  · intro id r more hr hlater exam' hexam now
    exact run_eligible more rfl hi hr hlater exam' hexam now
  · intro id r more hr
    obtain ⟨r', hr', hl⟩ := (run_later more hi).memberships id r hr
    exact ⟨r', hr', hl.key, hl.admitted⟩
  · intro r more hr hconsumed
    constructor
    · obtain ⟨n, hn⟩ := consumed_at hi₀ (fun _ _ hr => by cases hr) ops r hr hconsumed
      refine ⟨n, hn, ?_⟩
      intro m hm
      have h₁ := consumed_once hi₀ hn hm
      have h₂ := consumed_once hi₀ hm hn
      omega
    · obtain ⟨r', hr', hl⟩ := (run_later more hi).memberships r.id r hr
      rw [hl.final hconsumed] at hr'
      exact hr'
  · intro r r' attemptId hr hr' ha ha'
    have hid := hi.distinct r.id r'.id r r' attemptId hr hr' ha ha'
    rw [hid] at hr
    exact Option.some.inj (hr.symm.trans hr')

end

example :
    (run (@RoomOp.step sampleHost) (.opened "org" sampleQueue ⟨[sampleInitial], by simp⟩)
      [.join "candidate" 0 [earlyId],
        .command "candidate" sampleStart]).admissions.rows.map consumption =
      [(some 0, some "attempt")] := by decide +kernel

end ExamSystem.Admission
