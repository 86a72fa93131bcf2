import ExamSystem.Sessions

/-!
# The enrollments of an organization

What is stored of each enrollment, side by side, under the exams that they share.
A command acts on one enrollment, within the keys that are unique over all of
them, and a write of an exam reaches every enrollment of it.
-/

namespace ExamSystem

open Tx

/-- Each enrollment with its exam, its attempts and all that hangs on them. -/
structure OrganizationDb where
  sittings : List Db

namespace OrganizationDb

variable {α : Type}

/-! ## Transactions -/

def enrollment (org : OrganizationDb) (enrollmentId : String) : Option Db :=
  org.sittings.find? fun db => db.enrollment.id = enrollmentId

/-- The exam with the attempts of all its enrollments, which its routes count. -/
def exam (org : OrganizationDb) (examId : String) : Option Db :=
  (org.sittings.find? fun db => db.exam.id = examId).map fun db =>
    { db with attempts := (org.sittings.filter fun db => db.exam.id = examId).flatMap (·.attempts) }

def put (org : OrganizationDb) (enrollmentId : String) (db' : Db) : OrganizationDb :=
  { sittings := org.sittings.map fun db => if db.enrollment.id = enrollmentId then db' else db }

def writeExam (org : OrganizationDb) (exam : Exam) : OrganizationDb :=
  { sittings := org.sittings.map fun db => if db.exam.id = exam.id then { db with exam := exam }
    else db }

/-- The rows of an enrollment are written under the keys that no other enrollment's rows may have. -/
def commitTo (org : OrganizationDb) (enrollmentId : String) (db' : Db) : Result OrganizationDb := do
  let others := org.sittings.filter fun db => db.enrollment.id ≠ enrollmentId
  require (∀ other ∈ others, ∀ a ∈ db'.attempts, other.findAttempt a.id = none)
    (.uniqueViolation "exam_attempts_pkey")
  require (∀ other ∈ others, ∀ i ∈ db'.interruptions, ∀ j ∈ other.interruptions, j.id ≠ i.id)
    (.uniqueViolation "attempt_interruptions_pkey")
  require (∀ other ∈ others, ∀ row ∈ db'.timeAdjustments, other.findAdjustment row.id = none)
    (.uniqueViolation "attempt_time_adjustments_pkey")
  require (∀ other ∈ others, ∀ row ∈ db'.timeAdjustments,
    other.findByOperationId row.operationId = none)
    (.uniqueViolation "attempt_time_adjustments_org_operation_unique")
  pure (org.put enrollmentId db')

def act (org : OrganizationDb) (enrollmentId : String) (command : Db → Result (α × Db)) :
    Result (α × OrganizationDb) := do
  let db ← orThrow (org.enrollment enrollmentId) (.notFound "Enrollment not found")
  let (result, db') ← command db
  let org ← org.commitTo enrollmentId db'
  pure (result, org)

section
variable [Host] [RichContent]

/-- A request with the enrollment that it acts on, or the exam that it writes. -/
def step (r : String × Request) (org : OrganizationDb) : Result (Unit × OrganizationDb) :=
  match r.2 with
  | .sitting c _ => org.act r.1 c.step
  | request => do
    let db ← orThrow (org.exam r.1) (.notFound "Exam not found")
    let (_, db') ← request.step db
    pure ((), org.writeExam db'.exam)

end

/-! ## What a transaction writes -/

def Apart (org : OrganizationDb) (enrollmentId : String) (db' : Db) : Prop :=
  ∀ other ∈ org.sittings, other.enrollment.id ≠ enrollmentId →
    ∀ a ∈ db'.attempts, other.findAttempt a.id = none

theorem act_ok {org org' : OrganizationDb} {enrollmentId : String} {command : Db → Result (α × Db)}
    {result : α} (h : org.act enrollmentId command = .ok (result, org')) :
    ∃ db db', db ∈ org.sittings ∧
      db.enrollment.id = enrollmentId ∧ command db = .ok (result, db') ∧ org.Apart enrollmentId db' ∧
      org' = org.put enrollmentId db' := by
  simp only [act, bind_eq_ok, orThrow_eq_ok, pure_eq_ok, Prod.mk.injEq, commitTo, require_eq_ok,
    exists_const] at h
  obtain ⟨db, hdb, ⟨_, db'⟩, hcommand, _, ⟨hattempts, -, -, -, rfl⟩, rfl, rfl⟩ := h
  refine ⟨db, db', List.mem_of_find?_eq_some hdb, by simpa using List.find?_some hdb, hcommand, ?_, rfl⟩
  exact fun other hother hne => hattempts other (List.mem_filter.mpr ⟨hother, by simpa using hne⟩)

theorem mem_put {org : OrganizationDb} {enrollmentId : String} {db' x : Db}
    (h : x ∈ (org.put enrollmentId db').sittings) :
    ∃ y ∈ org.sittings, (y.enrollment.id = enrollmentId ∧ x = db') ∨
    (y.enrollment.id ≠ enrollmentId ∧ x = y) := by
  obtain ⟨y, hy, rfl⟩ := List.mem_map.mp h
  by_cases hid : y.enrollment.id = enrollmentId
  · exact ⟨y, hy, .inl ⟨hid, if_pos hid⟩⟩
  · exact ⟨y, hy, .inr ⟨hid, if_neg hid⟩⟩

theorem mem_writeExam {org : OrganizationDb} {exam : Exam} {x : Db}
    (h : x ∈ (org.writeExam exam).sittings) :
    ∃ y ∈ org.sittings, (y.exam.id = exam.id ∧ x = { y with exam := exam }) ∨
    (y.exam.id ≠ exam.id ∧ x = y) := by
  obtain ⟨y, hy, rfl⟩ := List.mem_map.mp h
  by_cases hid : y.exam.id = exam.id
  · exact ⟨y, hy, .inl ⟨hid, if_pos hid⟩⟩
  · exact ⟨y, hy, .inr ⟨hid, if_neg hid⟩⟩

section
variable [Host] [RichContent]

/-- What a request does to an organization: a command to one enrollment, or a write of an exam. -/
inductive Steps (org : OrganizationDb) : Request → OrganizationDb → Prop
  | sitting {c : Command} {hc : c.isExamWrite = false} {db db' : Db} (hdb : db ∈ org.sittings)
      (hstep : (Request.sitting c hc).step db = .ok ((), db'))
        (hapart : org.Apart db.enrollment.id db') :
      Steps org (.sitting c hc) (org.put db.enrollment.id db')
  | exam {r : Request} {db : Db} {exam : Exam} (hdb : db ∈ org.sittings)
      (hr : db.exam.Revised r.now exam) : Steps org r (org.writeExam exam)

theorem write_steps {org org' : OrganizationDb} {examId : String} {request : Request}
    (hwrite : ∀ c hc, request ≠ .sitting c hc) (h : (do
      let db ← orThrow (org.exam examId) (.notFound "Exam not found")
      let (_, db') ← request.step db
      pure ((), org.writeExam db'.exam) : Result (Unit × OrganizationDb)) = .ok ((), org')) :
    Steps org request org' := by
  simp only [bind_eq_ok, orThrow_eq_ok, pure_eq_ok, Prod.mk.injEq] at h
  obtain ⟨joint, hjoint, ⟨_, db'⟩, hstep, -, rfl⟩ := h
  obtain ⟨db, hfind, rfl⟩ := Option.map_eq_some_iff.mp hjoint
  rcases Request.step_cases hstep with ⟨c, hc, rfl, -⟩ | ⟨exam, hr, rfl⟩
  · exact absurd rfl (hwrite c hc)
  · exact .exam (List.mem_of_find?_eq_some hfind) hr

theorem step_steps {org org' : OrganizationDb} {r : String × Request} {u : Unit}
    (h : step r org = .ok (u, org')) :
    Steps org r.2 org' := by
  obtain ⟨key, request⟩ := r
  cases request with
  | sitting c hc =>
    obtain ⟨db, db', hdb, rfl, hstep, hapart, rfl⟩ := act_ok h
    exact .sitting hdb hstep hapart
  | _ => exact write_steps (fun _ _ => Request.noConfusion) h

end

/-! ## The invariant of an organization -/

section
variable [Host]

/-- Every enrollment is in a session; a key has one enrollment, one exam and the attempts of
one enrollment. -/
structure Session (clock : Int) (org : OrganizationDb) : Prop where
  each : ∀ db ∈ org.sittings, ExamSystem.Session clock db
  enrollments : ∀ db ∈ org.sittings, ∀ db' ∈ org.sittings, db.enrollment.id = db'.enrollment.id →
    db = db'
  exams : ∀ db ∈ org.sittings, ∀ db' ∈ org.sittings, db.exam.id = db'.exam.id → db.exam = db'.exam
  attempts : ∀ db ∈ org.sittings, ∀ db' ∈ org.sittings, ∀ k, (db.findAttempt k).isSome →
    (db'.findAttempt k).isSome → db = db'

structure Initial (org : OrganizationDb) : Prop where
  each : ∀ db ∈ org.sittings, ExamSystem.Initial db ∧ db.exam.status = .draft
  enrollments : ∀ db ∈ org.sittings, ∀ db' ∈ org.sittings, db.enrollment.id = db'.enrollment.id →
    db = db'
  exams : ∀ db ∈ org.sittings, ∀ db' ∈ org.sittings, db.exam.id = db'.exam.id → db.exam = db'.exam

theorem Initial.session {org : OrganizationDb} (h : org.Initial) (clock : Int) : org.Session clock := by
  refine ⟨fun db hdb => (h.each db hdb).1.session (h.each db hdb).2 clock, h.enrollments, h.exams, ?_⟩
  intro db hdb _ _ k hk
  rw [(h.each db hdb).1.findAttempt k] at hk
  cases hk

variable {org : OrganizationDb} {clock clock' : Int}

theorem Session.later (h : org.Session clock) (hle : clock ≤ clock') : org.Session clock' :=
  ⟨fun db hdb => (h.each db hdb).later hle, h.enrollments, h.exams, h.attempts⟩

theorem Session.put {db db' : Db} (h : org.Session clock) (hle : clock ≤ clock')
    (hdb : db ∈ org.sittings) (hs : ExamSystem.Session clock' db') (hexam : db'.exam = db.exam)
    (hid : db'.enrollment.id = db.enrollment.id) (hapart : org.Apart db.enrollment.id db') :
    (org.put db.enrollment.id db').Session clock' := by
  have hfar : ∀ {x : Db} {k : String}, x ∈ org.sittings → x.enrollment.id ≠ db.enrollment.id →
      (db'.findAttempt k).isSome → ¬ (x.findAttempt k).isSome := by
    intro x k hx hne hk
    obtain ⟨a, ha⟩ := Option.isSome_iff_exists.mp hk
    rw [← Db.findAttempt_id ha, hapart x hx hne a (Db.findAttempt_mem ha)]
    exact Bool.noConfusion
  refine ⟨?_, ?_, ?_, ?_⟩
  · intro x hx
    obtain ⟨y, hy, ⟨-, rfl⟩ | ⟨-, rfl⟩⟩ := mem_put hx
    · exact hs
    · exact (h.each x hy).later hle
  · intro x hx x' hx' heq
    obtain ⟨y, hy, ⟨hyid, rfl⟩ | ⟨hyid, rfl⟩⟩ := mem_put hx <;>
      obtain ⟨y', hy', ⟨hyid', rfl⟩ | ⟨hyid', rfl⟩⟩ := mem_put hx'
    · rfl
    · exact absurd (heq.symm.trans hid) hyid'
    · exact absurd (heq.trans hid) hyid
    · exact h.enrollments x hy x' hy' heq
  · intro x hx x' hx' heq
    obtain ⟨y, hy, ⟨hyid, rfl⟩ | ⟨hyid, rfl⟩⟩ := mem_put hx <;>
      obtain ⟨y', hy', ⟨hyid', rfl⟩ | ⟨hyid', rfl⟩⟩ := mem_put hx'
    · rfl
    · rw [hexam] at heq ⊢
      exact h.exams db hdb x' hy' heq
    · rw [hexam] at heq ⊢
      exact h.exams x hy db hdb heq
    · exact h.exams x hy x' hy' heq
  · intro x hx x' hx' k hk hk'
    obtain ⟨y, hy, ⟨hyid, rfl⟩ | ⟨hyid, rfl⟩⟩ := mem_put hx <;>
      obtain ⟨y', hy', ⟨hyid', rfl⟩ | ⟨hyid', rfl⟩⟩ := mem_put hx'
    · rfl
    · exact absurd hk' (hfar hy' hyid' hk)
    · exact absurd hk (hfar hy hyid hk')
    · exact h.attempts x hy x' hy' k hk hk'

theorem Session.writeExam {db : Db} {now : Option Int} {exam : Exam} (h : org.Session clock)
    (hclock : ∀ t ∈ now, clock ≤ t) (hdb : db ∈ org.sittings) (hr : db.exam.Revised now exam) :
    (org.writeExam exam).Session (now.getD clock) := by
  have hle : clock ≤ now.getD clock := by
    cases now with
    | none => exact le_refl _
    | some t => exact hclock t rfl
  have hsame : ∀ {y : Db}, y ∈ org.sittings → y.exam.id = exam.id → y.exam = db.exam :=
    fun hy hid => h.exams _ hy db hdb (hid.trans hr.id)
  refine ⟨?_, ?_, ?_, ?_⟩
  · intro x hx
    obtain ⟨y, hy, ⟨hid, rfl⟩ | ⟨-, rfl⟩⟩ := mem_writeExam hx
    · exact (h.each y hy).exam hclock (hsame hy hid ▸ hr)
    · exact (h.each x hy).later hle
  · intro x hx x' hx' heq
    obtain ⟨y, hy, rfl⟩ := List.mem_map.mp hx
    obtain ⟨y', hy', rfl⟩ := List.mem_map.mp hx'
    have hid : y.enrollment.id = y'.enrollment.id := by split at heq <;> split at heq <;> exact heq
    rw [h.enrollments y hy y' hy' hid]
  · intro x hx x' hx' heq
    obtain ⟨y, hy, ⟨hid, rfl⟩ | ⟨hid, rfl⟩⟩ := mem_writeExam hx <;>
      obtain ⟨y', hy', ⟨hid', rfl⟩ | ⟨hid', rfl⟩⟩ := mem_writeExam hx'
    · rfl
    · exact absurd heq.symm hid'
    · exact absurd heq hid
    · exact h.exams x hy x' hy' heq
  · intro x hx x' hx' k hk hk'
    obtain ⟨y, hy, rfl⟩ := List.mem_map.mp hx
    obtain ⟨y', hy', rfl⟩ := List.mem_map.mp hx'
    have hold : (y.findAttempt k).isSome := by split at hk <;> exact hk
    have hold' : (y'.findAttempt k).isSome := by split at hk' <;> exact hk'
    rw [h.attempts y hy y' hy' k hold hold']

variable [RichContent]

theorem Session.steps {r : Request} {org' : OrganizationDb} (h : org.Session clock)
    (hclock : ∀ t ∈ r.now, clock ≤ t) (hstep : Steps org r org') :
    org'.Session (r.now.getD clock) := by
  cases hstep with
  | exam hdb hr => exact h.writeExam hclock hdb hr
  | @sitting c hc db db' hdb hcommand hapart =>
    have hexam : db'.exam = db.exam := by
      rcases step_moves hcommand with hm | ⟨exam, now, rfl, -, -⟩
      · exact hm.exam
      · cases hc
    have hremains : Remains db db' := by
      have hrun : run Command.step db [c] = db' := by
        change commit (c.step db) db = db'
        rw [show c.step db = .ok ((), db') from hcommand]
        rfl
      exact hrun ▸ run_remains [c] db
    exact h.put (hclock _ rfl) hdb ((h.each db hdb).step hclock hcommand) hexam
      hremains.enrollment hapart

/-- What the requests keep in the sessions of an organization holds after them. -/
theorem session_run {P : Int → OrganizationDb → Prop}
    (hlater : ∀ clock clock' org, clock ≤ clock' → P clock org → P clock' org)
    (hstep : ∀ clock org r org', Session clock org → P clock org → (∀ t ∈ r.now, clock ≤ t) →
      Steps org r org' → P (r.now.getD clock) org') :
    ∀ (rs : List (String × Request)) (clock : Int) (org : OrganizationDb), org.Session clock →
      P clock org → InOrder clock (rs.map (·.2)) →
      (run step org rs).Session (clockAfter clock (rs.map (·.2))) ∧
        P (clockAfter clock (rs.map (·.2))) (run step org rs)
  | [], _, _, hs, hp, _ => ⟨hs, hp⟩
  | r :: rs, clock, org, hs, hp, ho => by
    have hle : clock ≤ r.2.now.getD clock := by
      cases hn : r.2.now with
      | none => exact le_refl _
      | some t => exact ho.1 t hn
    have hnext : (commit (step r org) org).Session (r.2.now.getD clock) ∧
        P (r.2.now.getD clock) (commit (step r org) org) := by
      rcases commit_cases (step r org) org with he | ⟨u, org', hx, he⟩
      · rw [he]
        exact ⟨hs.later hle, hlater _ _ _ hle hp⟩
      · rw [he]
        exact ⟨hs.steps ho.1 (step_steps hx), hstep _ _ _ _ hs hp ho.1 (step_steps hx)⟩
    exact session_run hlater hstep rs _ _ hnext.1 hnext.2 ho.2

end

end OrganizationDb

end ExamSystem
