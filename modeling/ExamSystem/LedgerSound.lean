import ExamSystem.AttemptRows

/-!
# The deadline ledger

The deadline of an attempt is its first deadline plus the seconds of its ledger
rows. The rows form a chain, and the automatic ones respect every cap.
-/

namespace ExamSystem

open Tx

/-! ## Chains of adjustments -/

/-- The rows lead from the deadline `d` to the deadline `e`: each starts where
the one before it ended. -/
def Leads : Option Int → List AttemptTimeAdjustment → Option Int → Prop
  | d, [], e => d = e
  | d, r :: rs, e => d = some r.beforeDeadline ∧ Leads (some r.afterDeadline) rs e

theorem leads_concat {r : AttemptTimeAdjustment} {e : Option Int} :
    ∀ {d : Option Int} {rs : List AttemptTimeAdjustment},
    Leads d (rs ++ [r]) e ↔ Leads d rs (some r.beforeDeadline) ∧ some r.afterDeadline = e
  | _, [] => Iff.rfl
  | _, _ :: _ => by
    simp only [List.cons_append, Leads, leads_concat, and_assoc]

def AddsSeconds (r : AttemptTimeAdjustment) : Prop :=
  0 < r.addedSeconds ∧ r.afterDeadline = r.beforeDeadline + r.addedSeconds * 1000 ∧
    r.beforeDeadline < r.afterDeadline

theorem Leads.sum :
    ∀ {d : Option Int} {rs : List AttemptTimeAdjustment} {e : Option Int}, Leads d rs e →
    (∀ r ∈ rs, AddsSeconds r) → e = d.map (· + (rs.map (·.addedSeconds)).sum * 1000)
  | d, [], e, h, _ => by
    obtain rfl : d = e := h
    cases d <;> simp
  | d, r :: rs, e, ⟨hd, h⟩, hr => by
    rw [h.sum fun x hx => hr x (by simp [hx]), hd, (hr r (by simp)).2.1]
    simp only [Option.map_some, List.map_cons, List.sum_cons, Option.some.injEq]
    omega

/-! ## The invariant -/

/-- The caps that bind an automatic row: the incident's, and the attempt's on
the sum of all automatic rows. -/
def Capped (a : ExamAttempt) (total : Int) (r : AttemptTimeAdjustment) : Prop :=
  r.interruptionId.isSome ∧ ∃ snapshot perIncident perAttempt,
    a.interruptionTimingPolicySnapshot = some snapshot ∧
    snapshot.perIncidentCapSeconds = some perIncident ∧
    snapshot.perAttemptAggregateCapSeconds = some perAttempt ∧ r.addedSeconds ≤ perIncident ∧
    total ≤ perAttempt

structure LedgerSound (attemptId : String) (first : Option Int) (db : Db) (a : ExamAttempt) : Prop where
  leads : Leads first (db.adjustmentsOf attemptId) a.deadlineAt
  adds : ∀ r ∈ db.adjustmentsOf attemptId, AddsSeconds r
  capped : ∀ r ∈ db.adjustmentsOf attemptId, r.source = .boundedGrace →
    Capped a (db.sumBoundedGraceSeconds attemptId) r
  once : (((db.adjustmentsOf attemptId).filter fun r => r.source = .boundedGrace).map
      (·.interruptionId)).Nodup

theorem adjustmentsOf_adjust (db : Db) (a : ExamAttempt) (row : AttemptTimeAdjustment)
    (attemptId : String) :
    (db.adjust a row).adjustmentsOf attemptId =
      db.adjustmentsOf attemptId ++ if row.attemptId = attemptId then [row] else [] := by
  simp only [Db.adjust, Db.adjustmentsOf, List.filter_append, List.filter_singleton]
  congr 1
  by_cases h : row.attemptId = attemptId <;> simp [h]

theorem sumBoundedGrace_adjust {db : Db} {a : ExamAttempt} {row : AttemptTimeAdjustment}
    {attemptId : String} (h : row.attemptId = attemptId) :
    (db.adjust a row).sumBoundedGraceSeconds attemptId =
      db.sumBoundedGraceSeconds attemptId + if row.source = .boundedGrace then row.addedSeconds
      else 0 := by
  simp only [Db.sumBoundedGraceSeconds, adjustmentsOf_adjust, h, if_true, List.filter_append,
    List.filter_singleton]
  by_cases hs : row.source = .boundedGrace <;> simp [hs]

theorem LedgerSound.adjust {db : Db} {a : ExamAttempt} {row : AttemptTimeAdjustment} {now : Int}
    {first : Option Int} (h : LedgerSound a.id first db a) (hadj : Adjusts db a row now) :
    LedgerSound a.id first (db.adjust a row) (a.extend row.afterDeadline) := by
  have hrows : (db.adjust a row).adjustmentsOf a.id = db.adjustmentsOf a.id ++ [row] := by
    rw [adjustmentsOf_adjust, if_pos hadj.attempt]
  have htotal : (db.adjust a row).sumBoundedGraceSeconds a.id = db.sumBoundedGraceSeconds a.id + _ :=
    sumBoundedGrace_adjust hadj.attempt
  refine ⟨?_, ?_, ?_, ?_⟩
  · rw [hrows, leads_concat]
    exact ⟨hadj.before ▸ h.leads, rfl⟩
  · rw [hrows]
    intro r hr
    rcases List.mem_append.mp hr with hr | hr
    · exact h.adds r hr
    · obtain rfl := List.mem_singleton.mp hr
      have := hadj.positive
      have := hadj.after
      exact ⟨hadj.positive, hadj.after, by omega⟩
  · rw [hrows, htotal]
    intro r hr hs
    by_cases hg : row.source = .boundedGrace
    · obtain ⟨i, t, snapshot, perIncident, perAttempt, hi, -, hsnap, -, hinc, hatt, hle, -, htot⟩ :=
        (hadj.grace hg).capped
      rw [if_pos hg]
      rcases List.mem_append.mp hr with hr | hr
      · obtain ⟨hsome, snapshot', perIncident', _, hsnap', hinc', -, hle', -⟩ := h.capped r hr hs
        obtain rfl : snapshot = snapshot' := Option.some.inj (hsnap.symm.trans hsnap')
        exact ⟨hsome, snapshot, perIncident', perAttempt, hsnap, hinc', hatt, hle', htot⟩
      · obtain rfl := List.mem_singleton.mp hr
        exact ⟨by simp [hi], snapshot, perIncident, perAttempt, hsnap, hinc, hatt, hle, htot⟩
    · rw [if_neg hg, add_zero]
      rcases List.mem_append.mp hr with hr | hr
      · exact h.capped r hr hs
      · obtain rfl := List.mem_singleton.mp hr
        exact absurd hs hg
  · rw [hrows, List.filter_append, List.map_append, List.nodup_append]
    refine ⟨h.once, ?_, ?_⟩
    · by_cases hg : row.source = .boundedGrace <;> simp [hg]
    · intro i hi j hj
      obtain ⟨r, hr, rfl⟩ := List.mem_map.mp hi
      obtain ⟨hr, hs⟩ := List.mem_filter.mp hr
      by_cases hg : row.source = .boundedGrace
      · have hj : j = row.interruptionId := by simpa [hg] using hj
        rw [hj]
        intro he
        have hsome := (h.capped r hr (by simpa using hs)).1
        obtain ⟨k, hk⟩ := Option.isSome_iff_exists.mp hsome
        have hnone := (hadj.grace hg).first k (he ▸ hk)
        have := List.find?_eq_none.mp hnone r (List.mem_filter.mp hr).1
        simp [hk] at this
        exact this (by simpa using hs)
      · simp [hg] at hj

theorem LedgerSound.adjust_other {db : Db} {a b : ExamAttempt} {row : AttemptTimeAdjustment}
    {attemptId : String} {first : Option Int} (h : LedgerSound attemptId first db a)
    (hne : row.attemptId ≠ attemptId) :
    LedgerSound attemptId first (db.adjust b row) a := by
  have hrows : (db.adjust b row).adjustmentsOf attemptId = db.adjustmentsOf attemptId := by
    rw [adjustmentsOf_adjust, if_neg hne, List.append_nil]
  have htotal : (db.adjust b row).sumBoundedGraceSeconds attemptId = db.sumBoundedGraceSeconds
      attemptId := by
    simp only [Db.sumBoundedGraceSeconds, hrows]
  exact ⟨hrows ▸ h.leads,
    hrows ▸ h.adds, by rw [hrows, htotal]; exact h.capped, by rw [hrows]; exact h.once⟩

section
variable [Host]

theorem Quiet.deadlines {now : Int} {db db' : Db} (h : Quiet now db db') :
    db'.timeAdjustments = db.timeAdjustments ∧
      ∀ attemptId a, db.findAttempt attemptId = some a → ∃ a', db'.findAttempt attemptId = some a' ∧
        a'.deadlineAt = a.deadlineAt ∧
        a'.interruptionTimingPolicySnapshot = a.interruptionTimingPolicySnapshot := by
  have hrows : db'.timeAdjustments = db.timeAdjustments := by cases h <;> rfl
  refine ⟨hrows, fun attemptId a ha => ?_⟩
  obtain ⟨a', ha', hstep⟩ := (Change.quiet h).row ha
  refine ⟨a', ha', ?_⟩
  cases hstep with
  | extend hadj hdb =>
    have := congrArg List.length (hrows.symm.trans (congrArg Db.timeAdjustments hdb))
    simp [Db.adjust] at this
  | _ => exact ⟨rfl, rfl⟩

theorem LedgerSound.quiet {attemptId : String} {first : Option Int} {now : Int} {db db' : Db}
    {a : ExamAttempt} (ha : db.findAttempt attemptId = some a)
    (h : LedgerSound attemptId first db a) (hq : Quiet now db db') :
    ∃ a', db'.findAttempt attemptId = some a' ∧ LedgerSound attemptId first db' a' := by
  obtain ⟨hrows, hdead⟩ := hq.deadlines
  obtain ⟨a', ha', hd, hs⟩ := hdead attemptId a ha
  have hof : db'.adjustmentsOf attemptId = db.adjustmentsOf attemptId := by
    simp only [Db.adjustmentsOf, hrows]
  have htotal : db'.sumBoundedGraceSeconds attemptId = db.sumBoundedGraceSeconds attemptId := by
    simp only [Db.sumBoundedGraceSeconds, hof]
  refine ⟨a', ha', by rw [hof, hd]; exact h.leads, by rw [hof]; exact h.adds,
    ?_, by rw [hof]; exact h.once⟩
  rw [hof, htotal]
  intro r hr hg
  obtain ⟨hi, hcap⟩ := h.capped r hr hg
  exact ⟨hi, hs ▸ hcap⟩

theorem ledgerSound_change {attemptId : String} {first : Option Int} {now : Int} {db db' : Db}
    (h : ∃ a, db.findAttempt attemptId = some a ∧ LedgerSound attemptId first db a)
    (hc : Change now db db') :
    ∃ a, db'.findAttempt attemptId = some a ∧ LedgerSound attemptId first db' a := by
  obtain ⟨a, ha, h⟩ := h
  cases hc with
  | quiet hq => exact h.quiet ha hq
  | examWrite _ => exact ⟨a, ha, h.leads, h.adds, h.capped, h.once⟩
  | @adjust b row hadj =>
    by_cases hid : attemptId = b.id
    · subst hid
      obtain rfl : a = b := Option.some.inj (ha.symm.trans hadj.found)
      exact ⟨_, findAttempt_adjust ha, h.adjust hadj⟩
    · refine ⟨a, ?_, h.adjust_other (by rw [hadj.attempt]; exact Ne.symm hid)⟩
      rw [show (db.adjust b row).findAttempt attemptId = _ from
        Db.findAttempt_updateAttempt (f := (·.extend _)) db b.id (fun _ => rfl) attemptId, if_neg hid]
      exact ha

/-! ## Runs and decisions -/

/-- What one decision does to an attempt: nothing, or one row that extends its
deadline up to the exam's close, and an automatic one by at most the time since
the open interruption was detected. -/
def Decision (attemptId : String) (now : Int) (db : Db) (a : ExamAttempt) (db' : Db)
    (a' : ExamAttempt) : Prop :=
  (db'.adjustmentsOf attemptId = db.adjustmentsOf attemptId ∧ a'.deadlineAt = a.deadlineAt) ∨
    ∃ row closeAt, db'.adjustmentsOf attemptId = db.adjustmentsOf attemptId ++ [row] ∧
      a.deadlineAt = some row.beforeDeadline ∧ a'.deadlineAt = some row.afterDeadline ∧
      db.exam.closeAt = some closeAt ∧ row.afterDeadline ≤ closeAt ∧
      (row.source = .boundedGrace → ∃ interruptionId interruptedAt,
          row.interruptionId = some interruptionId ∧
        OpenInterruption db a interruptionId interruptedAt ∧
        row.addedSeconds * 1000 ≤ now - interruptedAt)

theorem Quiets.deadlines {now : Int} {db db' : Db} (h : Quiets now db db') {attemptId : String}
    {a : ExamAttempt} (ha : db.findAttempt attemptId = some a) :
    db'.timeAdjustments = db.timeAdjustments ∧
      ∃ a', db'.findAttempt attemptId = some a' ∧ a'.deadlineAt = a.deadlineAt := by
  induction h with
  | refl => exact ⟨rfl, a, ha, rfl⟩
  | tail _ hq ih =>
    obtain ⟨hrows, a₁, ha₁, hd₁⟩ := ih
    obtain ⟨hrows', hdead⟩ := hq.deadlines
    obtain ⟨a₂, ha₂, hd₂, -⟩ := hdead attemptId a₁ ha₁
    exact ⟨hrows'.trans hrows, a₂, ha₂, hd₂.trans hd₁⟩

theorem Quiets.decision {now : Int} {db db' : Db} (h : Quiets now db db') {attemptId : String}
    {a a' : ExamAttempt} (ha : db.findAttempt attemptId = some a)
    (ha' : db'.findAttempt attemptId = some a') :
    db'.adjustmentsOf attemptId = db.adjustmentsOf attemptId ∧ a'.deadlineAt = a.deadlineAt := by
  obtain ⟨hrows, a₁, ha₁, hd⟩ := h.deadlines ha
  obtain rfl := Option.some.inj (ha₁.symm.trans ha')
  exact ⟨by simp only [Db.adjustmentsOf, hrows], hd⟩

theorem Transacts.decision {now : Int} {db db' : Db} (h : Transacts now db db') {attemptId : String}
    {a a' : ExamAttempt} (ha : db.findAttempt attemptId = some a)
    (ha' : db'.findAttempt attemptId = some a') :
    Decision attemptId now db a db' a' := by
  obtain ⟨db₁, rfl | ⟨b, row, hadj, rfl⟩, hq⟩ := h
  · exact .inl (hq.decision ha ha')
  · by_cases hid : attemptId = b.id
    · subst hid
      obtain rfl : a = b := Option.some.inj (ha.symm.trans hadj.found)
      obtain ⟨hrows, hd⟩ := hq.decision (findAttempt_adjust ha) ha'
      obtain ⟨closeAt, hclose, hle⟩ := hadj.close
      rw [adjustmentsOf_adjust, if_pos hadj.attempt] at hrows
      refine .inr ⟨row, closeAt, hrows, hadj.before, hd, hclose, hle, fun hg => ?_⟩
      obtain ⟨i, t, _, _, _, hi, hopen, -, -, -, -, -, ht, -⟩ := (hadj.grace hg).capped
      exact ⟨i, t, hi, hopen, ht⟩
    · have hkeep : (db.adjust b row).findAttempt attemptId = some a :=
        (Db.findAttempt_updateAttempt (f := (·.extend _)) db b.id (fun _ => rfl) attemptId).trans
          ((if_neg hid).trans ha)
      obtain ⟨hrows, hd⟩ := hq.decision hkeep ha'
      rw [adjustmentsOf_adjust, if_neg (by rw [hadj.attempt]; exact Ne.symm hid),
        List.append_nil] at hrows
      exact .inl ⟨hrows, hd⟩

/-- Over every run from an attempt without ledger rows, the deadline is the
first deadline plus all added seconds, the rows chain, the automatic ones
respect the caps of the policy and come once per episode. Every next command
that commits makes at most one decision within the exam's close and the elapsed
time, every one that throws changes nothing, and a grant that is not applied
leaves ledger and deadline alone. -/
theorem ledger_sound (db₀ : Db) (attemptId : String) (a₀ : ExamAttempt)
    (ha₀ : db₀.findAttempt attemptId = some a₀) (hempty : db₀.adjustmentsOf attemptId = [])
    (cs : List Command) :
    ∃ a, (run Command.step db₀ cs).findAttempt attemptId = some a ∧
      LedgerSound attemptId a₀.deadlineAt (run Command.step db₀ cs) a ∧
      a.deadlineAt = a₀.deadlineAt.map
        (· + (((run Command.step db₀ cs).adjustmentsOf attemptId).map (·.addedSeconds)).sum * 1000) ∧
      (∀ (c : Command) e, c.step (run Command.step db₀ cs) = .error e →
        commit (c.step (run Command.step db₀ cs)) (run Command.step db₀ cs) = run Command.step db₀ cs) ∧
      (∀ (c : Command) u db', c.step (run Command.step db₀ cs) = .ok (u, db') →
        ∃ a', db'.findAttempt attemptId = some a' ∧
        Decision attemptId c.now (run Command.step db₀ cs) a db' a') ∧
      ∀ validator cap input freshId r db',
        grantAttemptTime (run Command.step db₀ cs) validator cap input freshId = .ok (r, db') →
        r.outcome ≠ .granted →
        db'.adjustmentsOf attemptId = (run Command.step db₀ cs).adjustmentsOf attemptId ∧
          ∃ a', db'.findAttempt attemptId = some a' ∧ a'.deadlineAt = a.deadlineAt := by
  have h₀ : LedgerSound attemptId a₀.deadlineAt db₀ a₀ := by
    refine ⟨?_, ?_, ?_, ?_⟩ <;> simp [hempty, Leads]
  obtain ⟨a, ha, h⟩ := closure_invariant (fun _ _ h hc => hc.elim fun _ hc => ledgerSound_change h hc)
    (run_changes cs db₀) ⟨a₀, ha₀, h₀⟩
  refine ⟨a, ha, h, h.leads.sum h.adds, ?_, ?_, ?_⟩
  · intro c e he
    rw [he]; rfl
  · intro c u db' hc
    obtain ⟨a', ha', -⟩ :=
      closure_invariant (fun _ _ h hc => hc.elim fun _ hc => ledgerSound_change h hc)
      (step_changes c _ u db' hc) ⟨a, ha, h⟩
    refine ⟨a', ha', ?_⟩
    rcases step_transacts c _ u db' hc with htx | ⟨exam, now, -, -, rfl⟩
    · exact htx.decision ha ha'
    · obtain rfl : a = a' := Option.some.inj (ha.symm.trans ha')
      exact .inl ⟨rfl, rfl⟩
  · intro validator cap input freshId r db' hg hr
    rcases grant_ok hg with ⟨-, hq⟩ | ⟨hr', -⟩
    · obtain ⟨hrows, a', ha', hd⟩ := hq.quiets.deadlines ha
      exact ⟨by simp only [Db.adjustmentsOf, hrows], a', ha', hd⟩
    · exact absurd hr' hr

end

def sampleGraceDb : Db :=
  { sampleDb with
    attempts :=
      [{ sampleAttempt with
          interruptionTimingPolicySnapshot :=
            some { policy := .boundedGrace, perIncidentCapSeconds := some 30
                   perAttemptAggregateCapSeconds := some 60 } }] }

/-- Detected at 20 s and restored at 35 s: 15 s are added to the deadline. -/
def sampleGraceRun : List Command :=
  [.heartbeatScan "attempt" 20000 10 "i1", .restore "attempt" 35000
    { id := "adjustment", operationId := "operation" }]

theorem ledger_sound_sample :
    ∃ a, (run (@Command.step sampleHost) sampleGraceDb sampleGraceRun).findAttempt "attempt" = some a ∧
      a.deadlineAt = some 75000 := by
  let _ : Host := sampleHost
  obtain ⟨a, ha, -, hd, -⟩ := ledger_sound sampleGraceDb "attempt" _ rfl rfl sampleGraceRun
  refine ⟨a, ha, hd.trans ?_⟩
  have hsum : (((run Command.step sampleGraceDb sampleGraceRun).adjustmentsOf "attempt").map
      (·.addedSeconds)).sum = 15 := by
    decide +kernel
  rw [hsum]
  rfl

end ExamSystem
