import ExamSystem.Chronology
import ExamSystem.Organizations

/-!
# The background sweeps

A sweep discovers its candidates among all enrollments in one read and then runs
a transaction for each, at the instant of its tick, while requests go on coming
in. Discovery misses no attempt that is due, and after the sweep the only attempts
still due are the ones whose transaction threw.
-/

namespace ExamSystem

open Tx OrganizationDb

/-! ## The loop -/

structure Pass where
  org : OrganizationDb
  changed : List String
  errors : List (String × EngineError)

structure ScanResult where
  changedCount : Nat
  failedCount : Nat
  deriving DecidableEq, Repr

/-- One turn of the loop: `false` is no change, and a throw is reported and counted. -/
def Pass.record (p : Pass) (attemptId : String) (result : Result (Bool × OrganizationDb)) : Pass :=
  match result with
  | .ok (true, org) => { p with org := org, changed := p.changed ++ [attemptId] }
  | .ok (false, org) => { p with org := org }
  | .error e => { p with errors := p.errors ++ [(attemptId, e)] }

def Pass.start (org : OrganizationDb) : Pass := { org := org, changed := [], errors := [] }

def Pass.result (p : Pass) : ScanResult :=
  { changedCount := p.changed.length, failedCount := p.errors.length }

/-- A transaction on the enrollment that the attempt is of; `absent` is what it answers when
no attempt has the id. -/
def onAttempt (absent : Result Bool) (transaction : String → Db → Result (Bool × Db))
    (attemptId : String) (org : OrganizationDb) : Result (Bool × OrganizationDb) :=
  match org.sittings.find? fun db => (db.findAttempt attemptId).isSome with
  | none => absent.map fun changed => (changed, org)
  | some db => org.act db.enrollment.id (transaction attemptId)

section
variable [Host] [RichContent]

/-- The candidates in turn, each after the requests that came in before it. -/
def sweep (onCandidate : String → OrganizationDb → Result (Bool × OrganizationDb)) :
    List (List (String × Request) × String) → Pass → Pass
  | [], p => p
  | (rs, attemptId) :: rest, p =>
    let org := run OrganizationDb.step p.org rs
    sweep onCandidate rest ({ p with org := org }.record attemptId (onCandidate attemptId org))

/-! ### The deadline scanner -/

/-- The exam joined with its attempts in flight, past the close or past the own deadline. -/
def Db.listDeadlineCandidates (db : Db) (before : Int) : List ExamAttempt :=
  db.attempts.filter fun a => a.examId = db.exam.id ∧ (a.status = .inProgress ∨ a.status = .disrupted) ∧
    ((∃ t ∈ db.exam.closeAt, t ≤ before) ∨ ∃ t ∈ a.deadlineAt, t ≤ before)

def listDeadlineCandidates (org : OrganizationDb) (before : Int) : List ExamAttempt :=
  org.sittings.flatMap (·.listDeadlineCandidates before)

def scanDeadlineCandidates (candidates : List (List (String × Request) × String)) (now : Int)
    (org : OrganizationDb) : Pass :=
  sweep (onAttempt (.error (.notFound "Attempt not found")) fun attemptId db => autoSubmitAndGrade
      db attemptId now)
    candidates (.start org)

/-! ### The heartbeat scanner -/

def listInProgress (org : OrganizationDb) : List ExamAttempt :=
  (org.sittings.flatMap (·.attempts)).filter fun a => a.status = .inProgress

def disruptedCandidates (activeAttempts : List ExamAttempt) (now heartbeatTimeoutMs : Int) :
    List ExamAttempt :=
  activeAttempts.filter fun a => a.status = .inProgress ∧ ∃ t ∈ a.lastActivityAt,
    heartbeatTimeoutMs ≤ now - t

/-- Whether the attempt was marked; `freshId` draws the id of its episode. -/
def markAttemptDisrupted (freshId : String → String) (heartbeatTimeoutSeconds now : Int)
    (attemptId : String) (db : Db) :
    Result (Bool × Db) := do
  let (result, db) ← markDisrupted db attemptId now heartbeatTimeoutSeconds (freshId attemptId)
  pure (match result with | .marked _ => true | _ => false, db)

def scanForDisruptedAttempts (candidates : List (List (String × Request) × String))
    (freshId : String → String) (heartbeatTimeoutSeconds now : Int) (org : OrganizationDb) : Pass :=
  sweep (onAttempt (.ok false) (markAttemptDisrupted freshId heartbeatTimeoutSeconds now))
    candidates (.start org)

/-! ## What a command does to every row -/

omit [Host] [RichContent] in
/-- The row after a move at `now`: back in flight only by activity, and no deadline comes earlier. -/
structure Later (now : Int) (a a' : ExamAttempt) : Prop where
  active : a'.status = .inProgress ∨ a'.status = .disrupted → a.status = .inProgress ∨
    a.status = .disrupted
  activity : a'.status = .inProgress →
    a'.lastActivityAt = some now ∨ (a.status = .inProgress ∧ a'.lastActivityAt = a.lastActivityAt)
  deadline : NoEarlier a.deadlineAt a'.deadlineAt
  examId : a'.examId = a.examId
  done : a.status = .submitted ∨ a.status = .graded → a'.status = .submitted ∨ a'.status = .graded

section
omit [RichContent]
variable {now : Int} {db db' : Db} {a a' a'' : ExamAttempt}

omit [Host] in
theorem Later.refl (now : Int) (a : ExamAttempt) : Later now a a :=
  ⟨id, fun h => .inr ⟨h, rfl⟩, .inl rfl, rfl, id⟩

omit [Host] in
theorem Later.trans (h : Later now a a') (h' : Later now a' a'') : Later now a a'' := by
  refine ⟨fun hs => h.active (h'.active hs), fun hs => ?_, h.deadline.trans h'.deadline,
    h'.examId.trans h.examId, fun hs => h'.done (h.done hs)⟩
  rcases h'.activity hs with hnow | ⟨hs', hlast⟩
  · exact .inl hnow
  · rcases h.activity hs' with hnow | ⟨hs'', hlast'⟩
    · exact .inl (hlast.trans hnow)
    · exact .inr ⟨hs'', hlast.trans hlast'⟩

def RowsLater (now : Int) (db db' : Db) : Prop :=
  ∀ k a, db.findAttempt k = some a → ∃ a', db'.findAttempt k = some a' ∧ Later now a a'

omit [Host] in
theorem attempts_of_found {k : String} (h : (db.findAttempt k).isSome) : db.attempts ≠ [] := by
  obtain ⟨a, ha⟩ := Option.isSome_iff_exists.mp h
  intro hnil
  have hmem := Db.findAttempt_mem ha
  rw [hnil] at hmem
  cases hmem

omit [Host] in
theorem RowsLater.found (h : RowsLater now db db') {k : String} (hk : (db.findAttempt k).isSome) :
    (db'.findAttempt k).isSome := by
  obtain ⟨a, ha⟩ := Option.isSome_iff_exists.mp hk
  obtain ⟨a', ha', -⟩ := h k a ha
  exact Option.isSome_iff_exists.mpr ⟨a', ha'⟩

omit [Host] in
theorem RowsLater.trans {db'' : Db} (h : RowsLater now db db') (h' : RowsLater now db' db'') :
    RowsLater now db db'' := by
  intro k a ha
  obtain ⟨a', ha', hl⟩ := h k a ha
  obtain ⟨a'', ha'', hl'⟩ := h' k a' ha'
  exact ⟨a'', ha'', hl.trans hl'⟩

omit [Host] in
theorem RowsLater.same (h : db'.attempts = db.attempts) : RowsLater now db db' := by
  intro k a ha
  exact ⟨a, by rw [Db.findAttempt, h]; exact ha, .refl now a⟩

omit [Host] in
theorem RowsLater.update {f : ExamAttempt → ExamAttempt} (hf : ∀ x, (f x).id = x.id)
    (ha : db.findAttempt a.id = some a) (hl : Later now a (f a)) :
    RowsLater now db (db.updateAttempt a.id f) := by
  intro k x hx
  rw [Db.findAttempt_updateAttempt db a.id hf]
  by_cases hk : k = a.id
  · subst hk
    obtain rfl : a = x := Option.some.inj (ha.symm.trans hx)
    exact ⟨f a, by rw [if_pos rfl, ha]; rfl, hl⟩
  · exact ⟨x, by rw [if_neg hk]; exact hx, .refl now x⟩

omit [Host] in
theorem Later.of_done (h : a'.status = .submitted ∨ a'.status = .graded)
    (hd : a'.deadlineAt = a.deadlineAt) (he : a'.examId = a.examId) : Later now a a' := by
  have hactive : ¬ (a'.status = .inProgress ∨ a'.status = .disrupted) := by
    rcases h with hs | hs <;> simp [hs]
  exact ⟨fun hs => absurd hs hactive, fun hs => absurd (.inl hs) hactive, .inl hd, he, fun _ => h⟩

theorem Settles.rowsLater {t : Int} (h : Settles db a t now db') : RowsLater now db db' := by
  have hfreeze : ∀ {reason : Option SubmissionReason} {events : List AttemptInterruptionEvent},
      RowsLater now db (db.freeze a t reason events) := by
    intro reason events
    refine (RowsLater.update (f := (·.submittedRow t reason)) (fun _ => rfl) h.found ?_).trans
      (.same rfl)
    exact .of_done (.inl rfl) rfl rfl
  cases h with
  | held hf _ _ => exact hfreeze
  | closed hf _ _ hc =>
    refine hfreeze.trans
      ((RowsLater.update (f := (·.gradedRow _ now)) (fun _ => rfl) hc.found ?_).trans (.same rfl))
    exact .of_done (.inr rfl) rfl rfl

theorem close_rowsLater {aggregated : GradingEntryAggregate} (hc : Closes db a aggregated now) :
    RowsLater now db (db.close a aggregated now) := by
  refine (RowsLater.update (f := (·.gradedRow _ now)) (fun _ => rfl) hc.found ?_).trans (.same rfl)
  exact .of_done (.inr rfl) rfl rfl

omit [Host] in
theorem adjust_rowsLater {row : AttemptTimeAdjustment} (h : Appends db a row now) :
    RowsLater now db (db.adjust a row) := by
  refine (RowsLater.update (f := (·.extend row.afterDeadline))
      (fun _ => rfl) h.adjusts.found ?_).trans (.same rfl)
  refine ⟨id, fun hs => .inr ⟨hs, rfl⟩, .inr ⟨row.beforeDeadline, row.afterDeadline,
      h.adjusts.before, rfl, ?_⟩, rfl, id⟩
  have hpos := h.adjusts.positive
  have hafter := h.adjusts.after
  omega

theorem Move.rowsLater {target : Option String} (h : Move now target db db') :
    RowsLater now db db' := by
  cases h with
  | stay => exact .same rfl
  | @create a input syncDeadline h _ _ _ =>
    intro k x hx
    have hne : k ≠ a.id := by
      rintro rfl
      rw [h.fresh] at hx
      cases hx
    exact ⟨x, (Db.findAttempt_append h.fresh k).trans ((if_neg hne).trans hx), .refl now x⟩
  | touch ha hs => exact .update (f := (·.touch now)) (fun _ => rfl) ha ⟨id, fun _ => .inl rfl,
      .inl rfl, rfl, id⟩
  | @save c a question record receipt hw hnow _ =>
    have hid : a.id = c.context.attemptId := Db.findAttempt_id hw.found
    have hrow : RowsLater now db (db.updateAttempt a.id
        (·.recordSave (applyAcceptedResult a.answers record c.request) c.context.checkedAt)) :=
      .update (f := (·.recordSave _ _)) (fun _ => rfl) (hid ▸ hw.found)
        ⟨id, fun _ => .inl (congrArg some hnow), .inl rfl, rfl, id⟩
    rw [hid] at hrow
    exact hrow.trans (.same rfl)
  | detect ha hs _ _ =>
    refine (RowsLater.update (f := (·.markDisrupted _ now)) (fun _ => rfl) ha ?_).trans (.same rfl)
    exact ⟨fun _ => .inl hs, (fun hs' => by cases hs'), .inl rfl, rfl, fun hd => by simp [hs] at hd⟩
  | settle h _ => exact h.rowsLater
  | restore ha hs _ _ _ =>
    refine (RowsLater.update (f := (·.restore now)) (fun _ => rfl) ha ?_).trans (.same rfl)
    exact ⟨fun _ => .inr hs, fun _ => .inl rfl, .inl rfl, rfl, fun hd => by simp [hs] at hd⟩
  | extend h => exact adjust_rowsLater h
  | score h => exact .same rfl
  | @scoreLast a entry score comment graderId aggregated h hc =>
    have hsame : RowsLater now db (db.updateEntry a.id entry.questionId
        (·.complete score comment graderId now)) := .same rfl
    exact hsame.trans (close_rowsLater hc)
  | close hc _ => exact close_rowsLater hc

end

omit [RichContent] in
theorem Settles.events {now t : Int} {db db' : Db} {a : ExamAttempt} (h : Settles db a t now db') :
    ∀ e ∈ db.interruptionEvents, e ∈ db'.interruptionEvents := by
  cases h with
  | held _ _ _ => exact fun e he => List.mem_append.mpr (.inl he)
  | closed _ _ _ _ => exact fun e he => List.mem_append.mpr (.inl he)

omit [RichContent] in
theorem Move.events {now : Int} {db db' : Db} {target : Option String} (h : Move now target db db') :
    ∀ e ∈ db.interruptionEvents, e ∈ db'.interruptionEvents := by
  cases h with
  | settle hs _ => exact hs.events
  | detect _ _ _ _ => exact fun e he => List.mem_append.mpr (.inl he)
  | restore _ _ _ _ _ => exact fun e he => List.mem_append.mpr (.inl he)
  | _ => exact fun e he => he

omit [RichContent] in
/-- A move or a write of the exam, for the attempts there are: what a sweep has settled stays so. -/
structure Onward (now : Int) (db db' : Db) : Prop where
  rows : RowsLater now db db'
  examId : db'.exam.id = db.exam.id
  closeAt : db.attempts ≠ [] → NoEarlier db.exam.closeAt db'.exam.closeAt
  events : ∀ e ∈ db.interruptionEvents, e ∈ db'.interruptionEvents

omit [RichContent] in
theorem Move.onward {now : Int} {db db' : Db} {target : Option String} (h : Move now target db db') :
    Onward now db db' := by
  refine ⟨h.rowsLater, ?_, fun _ => ?_, h.events⟩
  · rw [h.exam]
  · rw [h.exam]
    exact .inl rfl

omit [RichContent] in
theorem Moves.onward {now : Int} {db db' : Db} {target : Option String} {due : ExamAttempt → Option Int}
    (h : Moves now target due db db') : Onward now db db' := by
  rcases h with ⟨hm, -⟩ | ⟨a, row, -, hadd, -, -, hm⟩
  · exact hm.onward
  · have hm := hm.onward
    have hrows := adjust_rowsLater hadd
    have hfound := hrows.found (Option.isSome_iff_exists.mpr ⟨a, hadd.adjusts.found⟩)
    exact ⟨hrows.trans hm.rows, hm.examId, fun _ => hm.closeAt (attempts_of_found hfound), hm.events⟩

theorem Session.onward {clock : Int} {db db' : Db} {r : Request} {u : Unit} (hs : Session clock db)
    (hclock : ∀ t ∈ r.now, clock ≤ t) (h : r.step db = .ok (u, db')) :
    Onward (r.now.getD clock) db db' := by
  cases Request.acts h with
  | sitting hm => exact hm.onward
  | exam hr => exact ⟨.same rfl, hr.id, fun hne => (hs.kept hclock hr hne).closeAt, fun e he => he⟩

theorem Session.run {clock : Int} {db : Db} {rs : List Request} (hs : Session clock db)
    (ho : InOrder clock rs) :
    Session (clockAfter clock rs) (run Request.step db rs) :=
  (session_run (G := fun _ _ => True) (P := fun _ _ => True) (fun _ _ _ _ _ => trivial)
      (fun _ _ _ _ _ _ _ _ _ _ => trivial)
    rs clock db hs trivial ho (along_of_forall Request.step rs db fun _ _ _ => trivial)).1

/-- A sweep's transaction, at an instant that the clock may have left behind. -/
structure Visited (now : Int) (db db' : Db) : Prop where
  move : Move now none db db'
  changes : Relation.ReflTransGen SomeChange db db'
  attempts : db'.attempts ≠ [] → db.attempts ≠ []

omit [RichContent] in
theorem Session.visited {clock now : Int} {db db' : Db} (hs : Session clock db)
    (h : Visited now db db') : Session clock db' := by
  obtain ⟨db₀, hi, hbefore⟩ := hs.reachable
  refine ⟨⟨db₀, hi, hbefore.trans h.changes⟩, ?_, ?_, ?_⟩
  · rw [h.move.exam]
    exact hs.unsynced
  · rw [h.move.exam]
    exact fun hne => hs.begun (h.attempts hne)
  · rw [h.move.exam]
    exact fun hne => hs.opened (h.attempts hne)

omit [Host] [RichContent] in
theorem Onward.refl (now : Int) (db : Db) : Onward now db db :=
  ⟨.same rfl, rfl, fun _ => .inl rfl, fun _ he => he⟩

/-! ## What a loop settles -/

section
omit [Host] [RichContent]

theorem inOrder_append : ∀ {rs ss : List Request} {clock : Int},
    InOrder clock (rs ++ ss) ↔ InOrder clock rs ∧ InOrder (clockAfter clock rs) ss
  | [], ss, clock => by simp [InOrder, clockAfter]
  | r :: rs, ss, clock => by
    simp only [List.cons_append, InOrder, clockAfter, inOrder_append, and_assoc]

theorem le_clockAfter :
    ∀ {rs : List Request} {clock : Int}, InOrder clock rs → clock ≤ clockAfter clock rs
  | [], _, _ => le_refl _
  | r :: rs, clock, h => by
    have hle : clock ≤ r.now.getD clock := by
      cases hn : r.now with
      | none => exact le_refl _
      | some t => exact h.1 t hn
    exact hle.trans (le_clockAfter h.2)

/-- The attempt is there, in an enrollment of which `P` holds. -/
def HoldsFor (P : String → Db → Prop) (k : String) (org : OrganizationDb) : Prop :=
  ∃ db ∈ org.sittings, (db.findAttempt k).isSome ∧ P k db

def Found (k : String) (org : OrganizationDb) : Prop := ∃ db ∈ org.sittings, (db.findAttempt k).isSome

def Goes (now : Int) (org org' : OrganizationDb) : Prop :=
  ∀ db ∈ org.sittings, ∃ db' ∈ org'.sittings, Onward now db db'

variable {now : Int} {org org' : OrganizationDb} {k : String} {P : String → Db → Prop}

theorem Goes.found (h : Goes now org org') (hk : Found k org) : Found k org' := by
  obtain ⟨db, hdb, hk⟩ := hk
  obtain ⟨db', hdb', ho⟩ := h db hdb
  exact ⟨db', hdb', ho.rows.found hk⟩

theorem Goes.holdsFor (h : Goes now org org')
    (hP : ∀ {db db'}, Onward now db db' → (db.findAttempt k).isSome → P k db → P k db')
    (hk : HoldsFor P k org) :
    HoldsFor P k org' := by
  obtain ⟨db, hdb, hk, hp⟩ := hk
  obtain ⟨db', hdb', ho⟩ := h db hdb
  exact ⟨db', hdb', ho.rows.found hk, hP ho hk hp⟩

theorem put_mem {db db' : Db} (hdb : db ∈ org.sittings) :
    db' ∈ (org.put db.enrollment.id db').sittings :=
  List.mem_map.mpr ⟨db, hdb, if_pos rfl⟩

end

section
omit [RichContent]
variable {clock now : Int} {org org' : OrganizationDb}

theorem Goes.put {db db' : Db} (hs : org.Session clock) (hdb : db ∈ org.sittings)
    (h : Onward now db db') :
    Goes now org (org.put db.enrollment.id db') := by
  intro x hx
  by_cases hid : x.enrollment.id = db.enrollment.id
  · obtain rfl := hs.enrollments x hx db hdb hid
    exact ⟨db', put_mem hdb, h⟩
  · exact ⟨x, List.mem_map.mpr ⟨x, hx, if_neg hid⟩, .refl now x⟩

theorem Goes.writeExam {now : Option Int} {db : Db} {exam : Exam} (hs : org.Session clock)
    (hclock : ∀ t ∈ now, clock ≤ t) (hdb : db ∈ org.sittings) (hr : db.exam.Revised now exam) :
    Goes (now.getD clock) org (org.writeExam exam) := by
  intro x hx
  by_cases hid : x.exam.id = exam.id
  · have hsame : x.exam = db.exam := hs.exams x hx db hdb (hid.trans hr.id)
    have hrx : x.exam.Revised now exam := hsame ▸ hr
    refine ⟨{ x with exam := exam }, List.mem_map.mpr ⟨x, hx, if_pos hid⟩, .same rfl, hrx.id,
      fun hne => ?_, fun _ he => he⟩
    exact ((hs.each x hx).kept hclock hrx hne).closeAt
  · exact ⟨x, List.mem_map.mpr ⟨x, hx, if_neg hid⟩, .refl _ x⟩

end

theorem Goes.steps {clock : Int} {org org' : OrganizationDb} {r : Request} (hs : org.Session clock)
    (hclock : ∀ t ∈ r.now, clock ≤ t) (h : Steps org r org') : Goes (r.now.getD clock) org org' := by
  cases h with
  | exam hdb hr => exact .writeExam hs hclock hdb hr
  | sitting hdb hstep hapart => exact .put hs hdb ((hs.each _ hdb).onward hclock hstep)

section
variable {onCandidate : String → OrganizationDb → Result (Bool × OrganizationDb)} {now : Int}
    {P : String → Db → Prop}

structure Turns (onCandidate : String → OrganizationDb → Result (Bool × OrganizationDb))
    (now : Int) : Prop where
  session : ∀ {clock : Int} {org org' : OrganizationDb} {k : String} {b : Bool}, org.Session clock →
    onCandidate k org = .ok (b, org') → org'.Session clock
  goes : ∀ {clock : Int} {org org' : OrganizationDb} {k : String} {b : Bool}, org.Session clock →
    onCandidate k org = .ok (b, org') → Goes now org org'

omit [Host] [RichContent] in
def Lasts (now : Int) (P : String → Db → Prop) : Prop :=
  ∀ {t : Int} {db db' : Db} {k : String}, Onward t db db' → now ≤ t → (db.findAttempt k).isSome →
    P k db → P k db'

theorem requests_keep (hP : Lasts now P) {clock : Int} {org : OrganizationDb}
    {rs : List (String × Request)} (hs : org.Session clock) (hnow : now ≤ clock)
    (ho : InOrder clock (rs.map (·.2))) :
    (run OrganizationDb.step org rs).Session (clockAfter clock (rs.map (·.2))) ∧ ∀ k,
      (Found k org → Found k (run OrganizationDb.step org rs)) ∧
      (HoldsFor P k org → HoldsFor P k (run OrganizationDb.step org rs)) := by
  have hrun := OrganizationDb.session_run
    (P := fun clock org' => now ≤ clock ∧ ∀ k, (Found k org → Found k org') ∧
      (HoldsFor P k org → HoldsFor P k org'))
    (fun _ _ _ hle hp => ⟨hp.1.trans hle, hp.2⟩)
    (fun clock t r t' hs hp hclock hx => by
      have hle : now ≤ r.now.getD clock := by
        cases hn : r.now with
        | none => exact hp.1
        | some t => exact hp.1.trans (hclock t hn)
      have hgoes := Goes.steps hs hclock hx
      exact ⟨hle, fun k => ⟨fun hk => hgoes.found ((hp.2 k).1 hk),
          fun hk => hgoes.holdsFor (hP · hle) ((hp.2 k).2 hk)⟩⟩)
    rs clock org hs ⟨hnow, fun _ => ⟨id, id⟩⟩ ho
  exact ⟨hrun.1, hrun.2.2⟩

omit [RichContent] in
theorem Turns.session_record (h : Turns onCandidate now) {p : Pass} {clock : Int}
    (hs : p.org.Session clock) (j : String) :
    (p.record j (onCandidate j p.org)).org.Session clock := by
  cases hx : onCandidate j p.org with
  | error e => exact hs
  | ok result =>
    obtain ⟨b, org'⟩ := result
    cases b <;> exact h.session hs hx

def Dealt (P : String → Db → Prop) (p : Pass) (k : String) : Prop := HoldsFor P k p.org ∨
    k ∈ p.errors.map (·.1)

omit [RichContent] in
/-- One turn undoes nothing, and a transaction that establishes `P` deals with its candidate. -/
theorem Turns.turn (h : Turns onCandidate now) (hP : Lasts now P) {p : Pass} {clock : Int}
    (hs : p.org.Session clock)
    (hsettles : ∀ {clock org org' k b}, org.Session clock → onCandidate k org = .ok (b, org') →
      Found k org → HoldsFor P k org') (j : String) :
    ∀ k, Found k p.org → Found k (p.record j (onCandidate j p.org)).org ∧
        (k = j ∨ Dealt P p k → Dealt P (p.record j (onCandidate j p.org)) k) := by
  intro k hk
  cases hx : onCandidate j p.org with
  | error e =>
    refine ⟨hk, fun hcase => ?_⟩
    simp only [Dealt, Pass.record, List.map_append, List.map_cons, List.map_nil, List.mem_append,
      List.mem_singleton]
    rcases hcase with rfl | hset | herr
    · exact .inr (.inr rfl)
    · exact .inl hset
    · exact .inr (.inl herr)
  | ok result =>
    obtain ⟨b, org'⟩ := result
    have hrecord : ∃ changed, p.record j (.ok (b, org')) = ⟨org', changed, p.errors⟩ := by
      cases b <;> exact ⟨_, rfl⟩
    obtain ⟨changed, hrecord⟩ := hrecord
    rw [hrecord]
    have hgoes := h.goes hs hx
    refine ⟨hgoes.found hk, fun hcase => ?_⟩
    rcases hcase with rfl | hset | herr
    · exact .inl (hsettles hs hx hk)
    · exact .inl (hgoes.holdsFor (hP · (le_refl now)) hset)
    · exact .inr herr

/-- After the loop every candidate is settled or threw, and so is who was settled before. -/
theorem Turns.sweep (h : Turns onCandidate now) (hP : Lasts now P)
    (hsettles : ∀ {clock org org' k b}, org.Session clock → onCandidate k org = .ok (b, org') →
      Found k org → HoldsFor P k org') :
    ∀ (candidates : List (List (String × Request) × String)) (p : Pass) (clock : Int),
      p.org.Session clock → now ≤ clock → InOrder clock (candidates.flatMap (·.1.map (·.2))) →
      (∃ clock', (ExamSystem.sweep onCandidate candidates p).org.Session clock') ∧
        ∀ k, Found k p.org → (Dealt P p k ∨ k ∈ candidates.map (·.2)) →
          Dealt P (ExamSystem.sweep onCandidate candidates p) k
  | [], _, clock, hs, _, _ => ⟨⟨clock, hs⟩, fun _ _ hcase => hcase.resolve_right List.not_mem_nil⟩
  | (rs, j) :: rest, p, clock, hs, hnow, ho => by
    rw [List.flatMap_cons] at ho
    obtain ⟨ho, hrest⟩ := inOrder_append.mp ho
    obtain ⟨hs, hkeeps⟩ := requests_keep hP hs hnow ho
    let q : Pass := { p with org := Tx.run OrganizationDb.step p.org rs }
    have hturn := h.turn (p := q) hP hs hsettles j
    obtain ⟨hsession, hrest⟩ := h.sweep hP hsettles rest _ _ (h.session_record (p := q) hs j)
      (hnow.trans (le_clockAfter ho)) hrest
    refine ⟨hsession, fun k hk hcase => ?_⟩
    obtain ⟨hfound, hdeal⟩ := hturn k ((hkeeps k).1 hk)
    refine hrest k hfound ?_
    rcases hcase with hdealt | hmem
    · exact .inl (hdeal (.inr (hdealt.imp (hkeeps k).2 id)))
    · exact (List.mem_cons.mp hmem).imp (fun hj => hdeal (.inl hj)) id

/-- Where the candidates are all those with work left, who has work left after the loop threw. -/
theorem Turns.left_threw (h : Turns onCandidate now) {Left : String → Db → Prop}
    (hlasts : Lasts now fun k db => ¬ Left k db)
    (hsettles : ∀ {clock org org' k b}, org.Session clock → onCandidate k org = .ok (b, org') →
      Found k org → HoldsFor (fun k db => ¬ Left k db) k org')
    (hfound : ∀ {k db}, Left k db → (db.findAttempt k).isSome)
    {candidates : List (List (String × Request) × String)} {org : OrganizationDb}
    (hs : org.Session now)
    (hcandidates : ∀ db ∈ org.sittings, ∀ k, Left k db → k ∈ candidates.map (·.2))
    (hbetween : InOrder now (candidates.flatMap (·.1.map (·.2)))) :
    ∀ k, Found k org → ∀ db ∈ (ExamSystem.sweep onCandidate candidates (.start org)).org.sittings,
      Left k db → k ∈ (ExamSystem.sweep onCandidate candidates (.start org)).errors.map (·.1) := by
  intro k hk db hdb hleft
  have hfirst : Dealt (fun k db => ¬ Left k db) (.start org) k ∨ k ∈ candidates.map (·.2) := by
    obtain ⟨x, hx, hkx⟩ := hk
    by_cases hfirst : Left k x
    · exact .inr (hcandidates x hx k hfirst)
    · exact .inl (.inl ⟨x, hx, hkx, hfirst⟩)
  obtain ⟨⟨clock', hs'⟩, hdealt⟩ :=
    h.sweep hlasts hsettles candidates (.start org) now hs (le_refl now) hbetween
  refine (hdealt k hk hfirst).resolve_left ?_
  rintro ⟨x, hx, hkx, hno⟩
  obtain rfl := hs'.attempts x hx db hdb k hkx (hfound hleft)
  exact hno hleft

/-- `P` holds of everyone counted as changed. -/
def Marked (P : String → Db → Prop) (p : Pass) : Prop := ∀ k ∈ p.changed, HoldsFor P k p.org

omit [RichContent] in
theorem Turns.turn_marked (h : Turns onCandidate now) (hP : Lasts now P) {p : Pass} {clock : Int}
    (hs : p.org.Session clock)
    (hmarks : ∀ {clock org org' k}, org.Session clock → onCandidate k org = .ok (true, org') →
      HoldsFor P k org') (hp : Marked P p) (j : String) :
    Marked P (p.record j (onCandidate j p.org)) := by
  cases hx : onCandidate j p.org with
  | error e => exact hp
  | ok result =>
    obtain ⟨b, org'⟩ := result
    have hkeep : ∀ k ∈ p.changed, HoldsFor P k org' :=
      fun k hk => (h.goes hs hx).holdsFor (hP · (le_refl now)) (hp k hk)
    cases b with
    | false => exact hkeep
    | true =>
      intro k hk
      rcases List.mem_append.mp hk with hk | hk
      · exact hkeep k hk
      · obtain rfl := List.mem_singleton.mp hk
        exact hmarks hs hx

theorem Turns.marked (h : Turns onCandidate now) (hP : Lasts now P)
    (hmarks : ∀ {clock org org' k}, org.Session clock → onCandidate k org = .ok (true, org') →
      HoldsFor P k org') :
    ∀ (candidates : List (List (String × Request) × String)) (p : Pass) (clock : Int),
      p.org.Session clock → now ≤ clock →
      InOrder clock (candidates.flatMap (·.1.map (·.2))) → Marked P p →
      Marked P (ExamSystem.sweep onCandidate candidates p)
  | [], _, _, _, _, _, hp => hp
  | (rs, j) :: rest, p, clock, hs, hnow, ho, hp => by
    rw [List.flatMap_cons] at ho
    obtain ⟨ho, hrest⟩ := inOrder_append.mp ho
    obtain ⟨hs, hkeeps⟩ := requests_keep hP hs hnow ho
    let q : Pass := { p with org := Tx.run OrganizationDb.step p.org rs }
    have hmarked : Marked P q := fun k hk => (hkeeps k).2 (hp k hk)
    exact h.marked hP hmarks rest _ _ (h.session_record (p := q) hs j)
      (hnow.trans (le_clockAfter ho)) hrest
      (h.turn_marked hP hs hmarks hmarked j)

theorem Turns.changed_holds (h : Turns onCandidate now) (hP : Lasts now P)
    (hmarks : ∀ {clock org org' k}, org.Session clock → onCandidate k org = .ok (true, org') →
      HoldsFor P k org')
    {candidates : List (List (String × Request) × String)} {org : OrganizationDb}
    (hs : org.Session now) (hbetween : InOrder now (candidates.flatMap (·.1.map (·.2)))) :
    ∀ k ∈ (ExamSystem.sweep onCandidate candidates (.start org)).changed,
      ∃ db ∈ (ExamSystem.sweep onCandidate candidates (.start org)).org.sittings, P k db := by
  intro k hk
  obtain ⟨db, hdb, -, hp⟩ := h.marked hP hmarks candidates (.start org) now hs (le_refl now) hbetween
    (fun k hk => absurd hk List.not_mem_nil) k hk
  exact ⟨db, hdb, hp⟩

end

/-! ### A transaction on an attempt -/

section
omit [RichContent]
variable {absent : Result Bool} {transaction : String → Db → Result (Bool × Db)} {now clock : Int}
  {org org' : OrganizationDb} {k : String} {b : Bool}

theorem onAttempt_ok (hs : org.Session clock) (h : onAttempt absent transaction k org = .ok (b, org')) :
    (absent = .ok b ∧ org' = org ∧ ¬ Found k org) ∨ ∃ db db', db ∈ org.sittings ∧
      (db.findAttempt k).isSome ∧
      transaction k db = .ok (b, db') ∧ org.Apart db.enrollment.id db' ∧
      org' = org.put db.enrollment.id db' := by
  unfold onAttempt at h
  split at h
  · rename_i hnone
    obtain ⟨changed, habsent, hpair⟩ := (map_eq_ok _ _ _).mp h
    obtain ⟨rfl, rfl⟩ := Prod.mk.inj hpair
    refine .inl ⟨habsent, rfl, ?_⟩
    rintro ⟨db, hdb, hk⟩
    exact List.find?_eq_none.mp hnone db hdb hk
  · rename_i db hfind
    have hmem := List.mem_of_find?_eq_some hfind
    obtain ⟨x, db', hx, hid, htransaction, hapart, rfl⟩ := act_ok h
    obtain rfl := hs.enrollments x hx db hmem hid
    have hfound : (x.findAttempt k).isSome :=
      List.find?_some (p := fun db : Db => (db.findAttempt k).isSome) hfind
    exact .inr ⟨x, db', hx, hfound, htransaction, hapart, rfl⟩

theorem Visited.enrollment {db db' : Db} (h : Visited now db db') :
    db'.enrollment.id = db.enrollment.id :=
  (closure_relation (P := fun _ => True) Remains.refl Remains.trans (fun _ _ _ _ => trivial)
    (fun _ _ _ hc => hc.elim fun _ h => h.remains) h.changes trivial).enrollment

theorem turns_onAttempt (hvisit : ∀ {db db' k b}, transaction k db = .ok (b, db') →
      Visited now db db') :
    Turns (onAttempt absent transaction) now := by
  constructor
  · intro clock org org' k b hs hx
    rcases onAttempt_ok hs hx with ⟨-, rfl, -⟩ | ⟨db, db', hdb, -, htransaction, hapart, rfl⟩
    · exact hs
    · have hv := hvisit htransaction
      exact hs.put (le_refl clock) hdb ((hs.each db hdb).visited hv) hv.move.exam hv.enrollment hapart
  · intro clock org org' k b hs hx
    rcases onAttempt_ok hs hx with ⟨-, rfl, -⟩ | ⟨db, db', hdb, -, htransaction, -, rfl⟩
    · exact fun db hdb => ⟨db, hdb, .refl now db⟩
    · exact .put hs hdb (hvisit htransaction).move.onward

/-- What the transaction leaves of its attempt, the turn does. -/
theorem onAttempt_holdsFor {P : String → Db → Prop}
    (hvisit : ∀ {db db' k b}, transaction k db = .ok (b, db') → Visited now db db')
    (hs : org.Session clock) (h : onAttempt absent transaction k org = .ok (b, org'))
    (hk : absent = .ok b → Found k org) (hP : ∀ {db db'}, transaction k db = .ok (b, db') → P k db') :
    HoldsFor P k org' := by
  rcases onAttempt_ok hs h with ⟨habsent, -, hno⟩ | ⟨db, db', hdb, hfound, htransaction, -, rfl⟩
  · exact absurd (hk habsent) hno
  · exact ⟨db', put_mem hdb, (hvisit htransaction).move.onward.rows.found hfound, hP htransaction⟩

end

theorem session_before {org₀ : OrganizationDb} (h₀ : org₀.Initial)
    {before : List (String × Request)} {clock now : Int}
    (hbefore : InOrder clock (before.map (·.2))) (hnow : clockAfter clock (before.map (·.2)) ≤ now) :
    (run OrganizationDb.step org₀ before).Session now :=
  (OrganizationDb.session_run (P := fun _ _ => True) (fun _ _ _ _ _ => trivial)
      (fun _ _ _ _ _ _ _ _ => trivial) before clock
    org₀ (h₀.session clock) trivial hbefore).1.later hnow

/-! ## The deadline scanner -/

def Overdue (now : Int) (k : String) (db : Db) : Prop := ∃ a d, db.findAttempt k = some a ∧
    ExpiredAt db a d now

def Done (k : String) (db : Db) : Prop := ∃ a, db.findAttempt k = some a ∧
    (a.status = .submitted ∨ a.status = .graded)

section
omit [Host] [RichContent]
variable {now t : Int} {db db' : Db} {k : String}

theorem Onward.overdue (h : Onward t db db') (hk : (db.findAttempt k).isSome)
    (hdue : Overdue now k db') : Overdue now k db := by
  have hc := h.closeAt (attempts_of_found hk)
  obtain ⟨a, ha⟩ := Option.isSome_iff_exists.mp hk
  obtain ⟨a', ha', hlater⟩ := h.rows k a ha
  obtain ⟨x, d', hx, hexp⟩ := hdue
  obtain rfl : a' = x := Option.some.inj (ha'.symm.trans hx)
  obtain ⟨d, hd, hle⟩ := effectiveDeadline_later hc hlater.deadline hexp.deadline
  exact ⟨a, d, ha, hlater.active hexp.active, (h.examId.symm.trans hexp.exam).trans hlater.examId,
    hd, hle.trans hexp.due⟩

theorem Onward.done (h : Onward t db db') (hd : Done k db) : Done k db' := by
  obtain ⟨a, ha, hs⟩ := hd
  obtain ⟨a', ha', hlater⟩ := h.rows k a ha
  exact ⟨a', ha', hlater.done hs⟩

theorem Done.not_overdue (h : Done k db) : ¬ Overdue now k db := by
  rintro ⟨x, d, hx, hexp⟩
  obtain ⟨a, ha, hs⟩ := h
  obtain rfl : a = x := Option.some.inj (ha.symm.trans hx)
  rcases hexp.active with hactive | hactive <;> simp [hactive] at hs

theorem listDeadlineCandidates_complete (h : Overdue now k db) :
    k ∈ (db.listDeadlineCandidates now).map (·.id) := by
  obtain ⟨a, d, ha, hexp⟩ := h
  refine List.mem_map.mpr ⟨a, List.mem_filter.mpr ⟨Db.findAttempt_mem ha, ?_⟩, Db.findAttempt_id ha⟩
  have hdeadline := hexp.deadline
  have hdue := hexp.due
  simp only [decide_eq_true_eq]
  refine ⟨hexp.exam.symm, hexp.active, ?_⟩
  cases hc : db.exam.closeAt with
  | none => cases ha' : a.deadlineAt <;> simp [hc, ha', computeEffectiveDeadline] at hdeadline
  | some close =>
    cases ha' : a.deadlineAt with
    | none =>
      obtain rfl : close = d := by simpa [hc, ha', computeEffectiveDeadline] using hdeadline
      exact .inl ⟨close, rfl, hdue⟩
    | some own =>
      have hmin : (if own < close then own else close) = d := by
        simpa [hc, ha', computeEffectiveDeadline] using hdeadline
      split at hmin
      · exact .inr ⟨own, rfl, hmin ▸ hdue⟩
      · exact .inl ⟨close, rfl, hmin ▸ hdue⟩

end

section
omit [RichContent]
variable {now : Int} {db db' : Db} {k : String} {b : Bool}

theorem Settles.done {a : ExamAttempt} {t : Int} (h : Settles db a t now db') : Done a.id db' := by
  cases h with
  | held hf _ _ => exact ⟨_, findAttempt_freeze hf.found, .inl rfl⟩
  | closed hf _ _ hc => exact ⟨_, findAttempt_close (a := a.submittedRow t _) hc.found, .inr rfl⟩

theorem scan_ok (h : autoSubmitAndGrade db k now = .ok (b, db')) :
    (b = false ∧ db' = db ∧ ¬ Overdue now k db) ∨
    (b = true ∧ ∃ a, a.id = k ∧ Settles db a now now db') := by
  have hskip : (pure (false, db) : Result _) = .ok (b, db') → ¬ Overdue now k db →
      (b = false ∧ db' = db ∧ ¬ Overdue now k db) ∨
      (b = true ∧ ∃ a, a.id = k ∧ Settles db a now now db') := by
    intro hx hno
    simp only [pure_eq_ok, Prod.mk.injEq] at hx
    exact .inl ⟨hx.1.symm, hx.2.symm, hno⟩
  simp only [autoSubmitAndGrade, bind_eq_ok] at h
  obtain ⟨cap, hcap, h⟩ := h
  split at h
  · rename_i hnone
    refine hskip h ?_
    rintro ⟨a, d, ha, -⟩
    rw [hnone] at ha
    cases ha
  rename_i a ha
  have hrow : ∀ {x d}, db.findAttempt k = some x → ExpiredAt db x d now → ExpiredAt db a d now := by
    intro x d hx hexp
    obtain rfl : a = x := Option.some.inj (ha.symm.trans hx)
    exact hexp
  split at h
  · rename_i hinactive
    refine hskip h ?_
    rintro ⟨x, d, hx, hexp⟩
    exact hinactive (hrow hx hexp).active
  rename_i hactive
  split at h
  · rename_i hnone
    refine hskip h ?_
    rintro ⟨x, d, hx, hexp⟩
    rw [Db.findExam_eq_some.mpr ⟨(hrow hx hexp).exam, rfl⟩] at hnone
    cases hnone
  rename_i exam hexam
  obtain ⟨-, rfl⟩ := Db.findExam_eq_some.mp hexam
  simp only [bind_eq_ok] at h
  obtain ⟨expired, hexpired, h⟩ := h
  split at h
  · rename_i hfalse
    refine hskip h ?_
    rintro ⟨x, d, hx, hexp⟩
    have hexp := hrow hx hexp
    rw [expired_true hexp.deadline hexp.due, hfalse] at hexpired
    cases hexpired
  · simp only [bind_eq_ok, pure_eq_ok, Prod.mk.injEq] at h
    obtain ⟨⟨s, db₁⟩, hsub, ⟨r, db₂⟩, hgrade, rfl, rfl⟩ := h
    have hid := Db.findAttempt_id ha
    rw [← hid] at ha hsub
    refine .inr ⟨rfl, a, hid, submit_settles ha (not_not.mp hactive) hsub ?_⟩
    intro x hx
    rw [hid, ← lock_attemptId hcap] at hx
    exact gradeAttemptIdempotent_from hgrade hx

theorem scan_settles (h : autoSubmitAndGrade db k now = .ok (b, db')) : ¬ Overdue now k db' := by
  rcases scan_ok h with ⟨-, rfl, hno⟩ | ⟨-, a, rfl, hs⟩
  · exact hno
  · exact hs.done.not_overdue

theorem scan_visited (h : autoSubmitAndGrade db k now = .ok (b, db')) : Visited now db db' := by
  have hstep : (Command.deadlineScan k now).step db = .ok ((), db') := by
    simp [Command.step, h, bind, Except.bind, pure, Except.pure]
  refine ⟨scan_moves h, step_changes _ _ _ _ hstep, ?_⟩
  rcases scan_ok h with ⟨-, rfl, -⟩ | ⟨-, a, -, hset⟩
  · exact id
  · exact fun _ => attempts_of_found (Option.isSome_iff_exists.mpr ⟨a, hset.found⟩)

end

/-- From the drafts on, a tick of the scanner over the candidates of its discovery, in
any order and with requests to all enrollments coming in between: only an attempt
whose transaction threw is still overdue at the tick, and every attempt counted is submitted. -/
theorem deadline_sweep_settles (org₀ : OrganizationDb) (h₀ : org₀.Initial)
    (before : List (String × Request)) (clock now : Int)
    (hbefore : InOrder clock (before.map (·.2))) (hnow : clockAfter clock (before.map (·.2)) ≤ now)
    (candidates : List (List (String × Request) × String))
    (hdiscovered : (candidates.map (·.2)).Perm
        ((listDeadlineCandidates (run OrganizationDb.step org₀ before) now).map (·.id)))
    (hbetween : InOrder now (candidates.flatMap (·.1.map (·.2)))) :
    let swept := scanDeadlineCandidates candidates now (run OrganizationDb.step org₀ before)
    (∀ k, Found k (run OrganizationDb.step org₀ before) →
      ∀ db ∈ swept.org.sittings, Overdue now k db → k ∈ swept.errors.map (·.1)) ∧
    ∀ k ∈ swept.changed, ∃ db ∈ swept.org.sittings, Done k db := by
  intro swept
  have hs : (run OrganizationDb.step org₀ before).Session now := session_before h₀ hbefore hnow
  have hturns : Turns (onAttempt (.error (.notFound "Attempt not found")) fun k db =>
      autoSubmitAndGrade db k now) now :=
    turns_onAttempt scan_visited
  have hoverdue : Lasts now fun k db => ¬ Overdue now k db :=
    fun ho _ hk hno hdue => hno (ho.overdue hk hdue)
  have hdone : Lasts now Done := fun ho _ _ hd => ho.done hd
  constructor
  · refine hturns.left_threw hoverdue
      (fun hs hx hk => onAttempt_holdsFor scan_visited hs hx (fun _ => hk) scan_settles)
      (fun hdue => ?_) hs (fun db hdb k hdue => hdiscovered.mem_iff.mpr ?_) hbetween
    · obtain ⟨a, d, ha, -⟩ := hdue
      exact Option.isSome_iff_exists.mpr ⟨a, ha⟩
    · rw [listDeadlineCandidates, List.map_flatMap]
      exact List.mem_flatMap.mpr ⟨db, hdb, listDeadlineCandidates_complete hdue⟩
  · have hmarks : ∀ {clock org org' k}, OrganizationDb.Session clock org →
        onAttempt (.error (.notFound "Attempt not found")) (fun k db => autoSubmitAndGrade db k now)
          k org = .ok (true, org') → HoldsFor Done k org' := by
      intro clock org org' k hs hx
      refine onAttempt_holdsFor scan_visited hs hx (fun habsent => by cases habsent)
        fun {db db'} h => ?_
      rcases scan_ok h with ⟨hb, -, -⟩ | ⟨-, a, rfl, hset⟩
      · cases hb
      · exact hset.done
    exact hturns.changed_holds hdone hmarks hs hbetween

/-! ## The heartbeat scanner -/

/-- The attempt is in progress and has not been heard of for the length of the timeout. -/
def Silent (heartbeatTimeoutSeconds now : Int) (k : String) (db : Db) : Prop :=
  ∃ a t, db.findAttempt k = some a ∧ a.status = .inProgress ∧ a.lastActivityAt = some t ∧
    heartbeatTimeoutSeconds * 1000 ≤ now - t

section
omit [Host] [RichContent]
variable {now heartbeatTimeoutSeconds : Int} {db db' : Db} {k : String}

theorem Onward.silent {t : Int} (h : Onward t db db') (htimeout : 0 < heartbeatTimeoutSeconds)
    (ht : now ≤ t) (hk : (db.findAttempt k).isSome)
    (hsilent : Silent heartbeatTimeoutSeconds now k db') :
    Silent heartbeatTimeoutSeconds now k db := by
  obtain ⟨a, ha⟩ := Option.isSome_iff_exists.mp hk
  obtain ⟨a', ha', hlater⟩ := h.rows k a ha
  obtain ⟨x, last, hx, hs, hlast, hlong⟩ := hsilent
  obtain rfl : a' = x := Option.some.inj (ha'.symm.trans hx)
  rcases hlater.activity hs with hnow | ⟨hs', hsame⟩
  · obtain rfl : last = t := Option.some.inj (hlast.symm.trans hnow)
    omega
  · exact ⟨a, last, ha, hs', hsame ▸ hlast, hlong⟩

theorem disruptedCandidates_complete {org : OrganizationDb} (hdb : db ∈ org.sittings)
    (h : Silent heartbeatTimeoutSeconds now k db) :
    k ∈ (disruptedCandidates (listInProgress org) now (heartbeatTimeoutSeconds * 1000)).map (·.id) := by
  obtain ⟨a, t, ha, hs, ht, hlong⟩ := h
  have hmem : a ∈ org.sittings.flatMap (·.attempts) := List.mem_flatMap.mpr ⟨db, hdb,
    Db.findAttempt_mem ha⟩
  refine List.mem_map.mpr ⟨a, List.mem_filter.mpr ⟨List.mem_filter.mpr ⟨hmem, by simpa using hs⟩,
      ?_⟩, Db.findAttempt_id ha⟩
  simp [hs, ht, hlong]

def DetectedAt (now : Int) (k : String) (db : Db) : Prop :=
  ∃ e ∈ db.interruptionEvents, e.attemptId = k ∧ e.eventType = .detected ∧ e.occurredAt = now

theorem Onward.detectedAt {t : Int} (h : Onward t db db') (hd : DetectedAt now k db) :
    DetectedAt now k db' := by
  obtain ⟨e, he, hof⟩ := hd
  exact ⟨e, h.events e he, hof⟩

theorem findAttempt_detect {a : ExamAttempt} {freshId : String} {policy : InterruptionTimePolicy}
    (ha : db.findAttempt a.id = some a) :
    (db.detect a freshId now heartbeatTimeoutSeconds policy).findAttempt
      a.id = some (a.markDisrupted freshId now) :=
  Db.findAttempt_updateAttempt_self (f := (·.markDisrupted freshId now)) db a.id (fun _ => rfl) ha

end

section
omit [RichContent]
variable {now heartbeatTimeoutSeconds : Int} {db db' : Db} {k : String} {b : Bool}
    {freshId : String → String}

/-- The recheck passes over an attempt that is not silent, and marks it otherwise. -/
theorem markAttemptDisrupted_ok (h : markAttemptDisrupted freshId heartbeatTimeoutSeconds now k db =
        .ok (b, db')) :
    (b = false ∧ db' = db ∧ ¬ Silent heartbeatTimeoutSeconds now k db) ∨
      (b = true ∧ ∃ a policy, a.id = k ∧ Move now none db db' ∧ db.findAttempt a.id = some a ∧
        db' = db.detect a (freshId k) now heartbeatTimeoutSeconds policy) := by
  simp only [markAttemptDisrupted, bind_eq_ok, pure_eq_ok, Prod.mk.injEq] at h
  obtain ⟨⟨r, db₁⟩, h, hb, rfl⟩ := h
  have hskip : ∀ {x : ScannerDisruptResult}, (pure (x, db) : Result _) = .ok (r, db₁) →
      (∀ y, x ≠ .marked y) →
      ¬ Silent heartbeatTimeoutSeconds now k db → b = false ∧ db₁ = db ∧
      ¬ Silent heartbeatTimeoutSeconds now k db := by
    intro x hx hne hno
    simp only [pure_eq_ok, Prod.mk.injEq] at hx
    obtain ⟨rfl, rfl⟩ := hx
    refine ⟨?_, rfl, hno⟩
    cases x with
    | marked y => exact absurd rfl (hne y)
    | _ => exact hb.symm
  unfold markDisrupted at h
  split at h
  · rename_i hnone
    refine .inl (hskip h (by simp) ?_)
    rintro ⟨a, t, ha, -⟩
    rw [hnone] at ha
    cases ha
  rename_i a ha
  have hid := Db.findAttempt_id ha
  subst hid
  have hrow : ∀ {x}, db.findAttempt a.id = some x → a = x :=
    fun hx => Option.some.inj (ha.symm.trans hx)
  split at h
  · rename_i hs
    refine .inl (hskip h (by simp) ?_)
    rintro ⟨x, t, hx, hlive, -⟩
    exact hs (hrow hx ▸ hlive)
  rename_i hs
  split at h
  · rename_i hnone
    refine .inl (hskip h (by simp) ?_)
    rintro ⟨x, t, hx, -, hlast, -⟩
    rw [← hrow hx, hnone] at hlast
    cases hlast
  rename_i last hlast
  split at h
  · rename_i hfresh
    refine .inl (hskip h (by simp) ?_)
    rintro ⟨x, t, hx, -, ht, hlong⟩
    rw [← hrow hx, hlast] at ht
    obtain rfl := Option.some.inj ht
    omega
  · simp only [bind_eq_ok, orThrow_eq_ok, pure_eq_ok, Prod.mk.injEq] at h
    obtain ⟨snapshot, -, db₂, hcreate, db₃, hinsert, rfl, rfl⟩ := h
    obtain ⟨hfresh, rfl⟩ := Db.createInterruption_eq_ok.mp hcreate
    obtain ⟨hdetected, -, -, -, rfl⟩ := Db.insertInterruptionEvent_eq_ok.mp hinsert
    exact .inr ⟨hb.symm, a, snapshot.policy, rfl, .detect ha (not_not.mp hs) hfresh (hdetected rfl),
      ha, rfl⟩

theorem markAttemptDisrupted_settles
      (h : markAttemptDisrupted freshId heartbeatTimeoutSeconds now k db = .ok (b, db')) :
    ¬ Silent heartbeatTimeoutSeconds now k db' := by
  rcases markAttemptDisrupted_ok h with ⟨-, rfl, hno⟩ | ⟨-, a, policy, rfl, -, ha, rfl⟩
  · exact hno
  · rintro ⟨x, t, hx, hs, -⟩
    rw [findAttempt_detect ha] at hx
    obtain rfl := Option.some.inj hx
    cases hs

theorem markAttemptDisrupted_visited
      (h : markAttemptDisrupted freshId heartbeatTimeoutSeconds now k db = .ok (b, db')) :
    Visited now db db' := by
  have hstep : (Command.heartbeatScan k now heartbeatTimeoutSeconds (freshId k)).step db = .ok
      ((), db') := by
    simp only [markAttemptDisrupted, bind_eq_ok, pure_eq_ok, Prod.mk.injEq] at h
    obtain ⟨⟨r, db₁⟩, h, -, rfl⟩ := h
    simp [Command.step, h, bind, Except.bind, pure, Except.pure]
  rcases markAttemptDisrupted_ok h with ⟨-, rfl, -⟩ | ⟨-, a, policy, -, hm, ha, -⟩
  · exact ⟨.stay, .refl, id⟩
  · exact ⟨hm, step_changes _ _ _ _ hstep,
      fun _ => attempts_of_found (Option.isSome_iff_exists.mpr ⟨a, ha⟩)⟩

end

/-- From the drafts on, a tick of the scanner over the attempts of its list, in any
order and with requests to all enrollments coming in between: only an attempt whose
transaction threw is still silent as of the tick, and every attempt counted has a
detection at the tick on record. -/
theorem heartbeat_sweep_settles (org₀ : OrganizationDb) (h₀ : org₀.Initial)
    (before : List (String × Request)) (clock now : Int)
    (hbefore : InOrder clock (before.map (·.2))) (hnow : clockAfter clock (before.map (·.2)) ≤ now)
    (heartbeatTimeoutSeconds : Int) (htimeout : 0 < heartbeatTimeoutSeconds)
    (freshId : String → String) (candidates : List (List (String × Request) × String))
    (hlisted : (candidates.map (·.2)).Perm
        ((disruptedCandidates (listInProgress (run OrganizationDb.step org₀ before)) now
            (heartbeatTimeoutSeconds * 1000)).map (·.id)))
    (hbetween : InOrder now (candidates.flatMap (·.1.map (·.2)))) :
    let swept := scanForDisruptedAttempts candidates freshId heartbeatTimeoutSeconds now
      (run OrganizationDb.step org₀ before)
    (∀ k, Found k (run OrganizationDb.step org₀ before) →
      ∀ db ∈ swept.org.sittings, Silent heartbeatTimeoutSeconds now k db → k ∈ swept.errors.map (·.1)) ∧
    ∀ k ∈ swept.changed, ∃ db ∈ swept.org.sittings, DetectedAt now k db := by
  intro swept
  have hs : (run OrganizationDb.step org₀ before).Session now := session_before h₀ hbefore hnow
  have hturns : Turns
      (onAttempt (.ok false) (markAttemptDisrupted freshId heartbeatTimeoutSeconds now)) now :=
    turns_onAttempt markAttemptDisrupted_visited
  have hsilent : Lasts now fun k db => ¬ Silent heartbeatTimeoutSeconds now k db :=
    fun ho ht hk hno hsilent => hno (ho.silent htimeout ht hk hsilent)
  have hdetected : Lasts now (DetectedAt now) := fun ho _ _ hd => ho.detectedAt hd
  constructor
  · refine hturns.left_threw hsilent (fun hs hx hk =>
        onAttempt_holdsFor markAttemptDisrupted_visited hs hx (fun _ => hk)
          markAttemptDisrupted_settles)
      (fun hsilent => ?_) hs
      (fun db hdb k hsilent => hlisted.mem_iff.mpr (disruptedCandidates_complete hdb hsilent)) hbetween
    obtain ⟨a, t, ha, -⟩ := hsilent
    exact Option.isSome_iff_exists.mpr ⟨a, ha⟩
  · have hmarks : ∀ {clock org org' k}, OrganizationDb.Session clock org →
        onAttempt (.ok false) (markAttemptDisrupted freshId heartbeatTimeoutSeconds now) k org = .ok
          (true, org') → HoldsFor (DetectedAt now) k org' := by
      intro clock org org' k hs hx
      refine onAttempt_holdsFor markAttemptDisrupted_visited hs hx (fun habsent => by cases habsent)
        fun {db db'} h => ?_
      rcases markAttemptDisrupted_ok h with ⟨hb, -, -⟩ | ⟨-, a, policy, rfl, -, ha, rfl⟩
      · cases hb
      · exact ⟨_, List.mem_append.mpr (.inr (List.mem_singleton.mpr rfl)), rfl, rfl, rfl⟩
    exact hturns.changed_holds hdetected hmarks hs hbetween

end

/-! ## A tick of each -/

def sampleAssignmentOf (name : String) : ExamEnrollment :=
  { sampleTimed.enrollment with id := name, candidateId := name }

def sampleOrganization : OrganizationDb :=
  { sittings := [{ sampleTimed with enrollment := sampleAssignmentOf "first" },
      { sampleTimed with enrollment := sampleAssignmentOf "second" }] }

theorem sampleOrganization_initial : sampleOrganization.Initial := by
  refine ⟨?_, ?_, ?_⟩
  · intro db hdb
    rcases List.mem_pair.mp hdb with rfl | rfl <;> exact ⟨⟨rfl, rfl, rfl, rfl, rfl, rfl, rfl, rfl,
        ⟨rfl, rfl, rfl⟩⟩, rfl⟩
  · intro db hdb db' hdb' hid
    rcases List.mem_pair.mp hdb with rfl | rfl <;> rcases List.mem_pair.mp hdb' with rfl | rfl
    · rfl
    · exact absurd hid (by decide)
    · exact absurd hid (by decide)
    · rfl
  · intro db hdb db' hdb' _
    rcases List.mem_pair.mp hdb with rfl | rfl <;> rcases List.mem_pair.mp hdb' with rfl | rfl <;> rfl

def sampleArrivalOf (name : String) (now : Int) : String × Request :=
  (name, .sitting (.start { sampleArrival now with candidateId := name, freshAttemptId := name }) rfl)

def sampleUnderway : List (String × Request) :=
  [("exam", .exam (.publish sampleBank)), sampleArrivalOf "first" 1000, sampleArrivalOf "second" 20000]

theorem sampleUnderway_inOrder : InOrder 0 (sampleUnderway.map (·.2)) := by
  simp [InOrder, sampleUnderway, sampleArrivalOf, Request.now, ExamCommand.now, Command.now,
    sampleArrival]

def sampleCandidates (now : Int) : List (List (String × Request) × String) :=
  [([("second", .sitting (.heartbeat "second" now) rfl)], "second"), ([], "first")]

theorem sampleCandidates_inOrder (now : Int) :
    InOrder now ((sampleCandidates now).flatMap (·.1.map (·.2))) := by
  simp [InOrder, sampleCandidates, Request.now, Command.now]

/-- At 90 s both are over, and both are submitted. -/
theorem deadline_sweep_settles_sample :
    let underway :=
      run (@OrganizationDb.step sampleHost sampleContent) sampleOrganization sampleUnderway
    let swept := @scanDeadlineCandidates sampleHost sampleContent
      (sampleCandidates 90000) 90000 underway
    (∀ db ∈ swept.org.sittings, ¬ Overdue 90000 "first" db ∧ ¬ Overdue 90000 "second" db) ∧
      swept.result = ⟨2, 0⟩ := by
  intro underway swept
  have hsettles :=
    @deadline_sweep_settles sampleHost sampleContent sampleOrganization sampleOrganization_initial
      sampleUnderway
    0 90000 sampleUnderway_inOrder (by decide +kernel) (sampleCandidates 90000) (by decide +kernel)
      (sampleCandidates_inOrder 90000)
  have hfound : Found "first" underway ∧ Found "second" underway := by
    unfold Found
    decide +kernel
  have herrors : swept.errors = [] := by decide +kernel
  have hnone : ∀ k, Found k underway → ∀ db ∈ swept.org.sittings, ¬ Overdue 90000 k db := by
    intro k hk db hdb hdue
    have herror := hsettles.1 k hk db hdb hdue
    rw [show (@scanDeadlineCandidates sampleHost sampleContent
          (sampleCandidates 90000) 90000 underway).errors = [] from herrors]
      at herror
    cases herror
  exact ⟨fun db hdb => ⟨hnone _ hfound.1 db hdb, hnone _ hfound.2 db hdb⟩, by decide +kernel⟩

/-- At 50 s neither has been heard of for 10 s when the tick begins, and the second is in
time for its turn. -/
theorem heartbeat_sweep_settles_sample :
    let underway :=
      run (@OrganizationDb.step sampleHost sampleContent) sampleOrganization sampleUnderway
    let swept := @scanForDisruptedAttempts sampleHost sampleContent
      (sampleCandidates 50000) id 10 50000 underway
    (∀ db ∈ swept.org.sittings, ¬ Silent 10 50000 "first" db ∧ ¬ Silent 10 50000 "second" db) ∧
      swept.changed = ["first"] := by
  intro underway swept
  have hsettles :=
    @heartbeat_sweep_settles sampleHost sampleContent sampleOrganization sampleOrganization_initial
      sampleUnderway
    0 50000 sampleUnderway_inOrder (by decide +kernel) 10 (by decide) id (sampleCandidates 50000)
      (by decide +kernel)
    (sampleCandidates_inOrder 50000)
  have hfound : Found "first" underway ∧ Found "second" underway := by
    unfold Found
    decide +kernel
  have herrors : swept.errors = [] := by decide +kernel
  have hnone : ∀ k, Found k underway → ∀ db ∈ swept.org.sittings, ¬ Silent 10 50000 k db := by
    intro k hk db hdb hsilent
    have herror := hsettles.1 k hk db hdb hsilent
    rw [show (@scanForDisruptedAttempts sampleHost sampleContent
          (sampleCandidates 50000) id 10 50000 underway).errors = []
      from herrors] at herror
    cases herror
  exact ⟨fun db hdb => ⟨hnone _ hfound.1 db hdb, hnone _ hfound.2 db hdb⟩, by decide +kernel⟩

end ExamSystem
