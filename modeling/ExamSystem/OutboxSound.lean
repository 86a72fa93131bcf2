import ExamSystem.EmailOutbox

/-!
# Soundness of the email outbox

What a step does to one row, and from it what every run keeps: the lock columns
follow the status, terminal rows stay, and the attempt count of a row counts its
claims. A worker finalises a row only under the claim it still owns.
-/

namespace ExamSystem.Outbox

open State

variable {t : EmailOutbox} {k : String}

/-! ## Statements on one row -/

theorem get_create (t : EmailOutbox) (row : EmailOutboxRow) (k : String) :
    (create t row).get k = t.get k ∨ (t.get k = none ∧ 1 ≤ row.maxAttempts ∧
      (create t row).get k = some row) := by
  unfold create
  split
  · exact .inl rfl
  case isFalse hfree =>
    rw [Table.get_put]
    by_cases hk : k = row.id
    · refine .inr ⟨?_, Nat.one_le_iff_ne_zero.mpr fun h => hfree (.inl h), by rw [if_pos hk]⟩
      cases hget : t.get k with
      | none => rfl
      | some r =>
        refine absurd (.inr ?_) hfree
        rw [List.any_eq_true]
        exact ⟨r, Table.mem_of_get hget, by simp [Table.key_get hget, hk]⟩
    · exact .inl (by rw [if_neg hk])

theorem mem_candidates {o : String} {now : Int} {n : Nat} {skipped : List String}
    (h : k ∈ candidates t o now n skipped) :
    ∃ r, t.get k = some r ∧ r.due o now = true := by
  obtain ⟨r, hr, rfl⟩ := List.mem_map.mp h
  have hr := List.mem_filter.mp (List.mem_mergeSort.mp (List.mem_of_mem_take hr))
  exact ⟨r, Table.get_of_mem hr.1, (Bool.and_eq_true_iff.mp hr.2).1⟩

section
variable {o w : String} {now : Int} {n : Nat} {skipped : List String}

theorem get_claimDue (k : String) : (claimDue t o now w n skipped).2.get k =
    if k ∈ candidates t o now n skipped then (t.get k).map (EmailOutboxRow.claim now w)
      else t.get k := by
  have hget : (claimDue t o now w n skipped).2.get k = (t.get k).map fun r =>
      if decide (r.id ∈ candidates t o now n skipped) then r.claim now w else r :=
        Table.get_update t _ (f := EmailOutboxRow.claim now w) (fun _ => rfl) k
  rw [hget]
  cases h : t.get k with
  | none => simp
  | some r =>
    have hid := Table.key_get h
    by_cases hk : k ∈ candidates t o now n skipped <;> simp [hid, hk]

theorem mem_claimDue {c : EmailOutboxRow} (h : c ∈ (claimDue t o now w n skipped).1) :
    ∃ r, t.get c.id = some r ∧ c = r.claim now w ∧
    (claimDue t o now w n skipped).2.get c.id = some c := by
  obtain ⟨r, hr, rfl⟩ := List.mem_map.mp h
  obtain ⟨hr, hid⟩ := List.mem_filter.mp hr
  have hget := Table.get_of_mem hr
  have hid : r.id ∈ candidates t o now n skipped := by simpa using hid
  refine ⟨r, hget, rfl, ?_⟩
  rw [get_claimDue, if_pos (show (r.claim now w).id ∈ _ from hid)]
  exact congrArg (Option.map _) hget

theorem count_claimDue (k : String) : ((claimDue t o now w n skipped).1.countP fun r => r.id = k) =
    if k ∈ candidates t o now n skipped then 1 else 0 := by
  have hcount : ∀ rows : List EmailOutboxRow, (rows.map (EmailOutboxRow.claim now w)).countP
      (fun r => decide (r.id = k)) = (rows.map EmailOutboxRow.id).count k := by
    intro rows
    simp only [List.count, List.countP_map]
    rfl
  rw [claimDue, hcount]
  split
  case isTrue hk =>
    apply List.count_eq_one_of_mem (Table.filter_nodup t _)
    obtain ⟨r, hr, _⟩ := mem_candidates hk
    have hid := Table.key_get hr
    exact List.mem_map.mpr ⟨r, List.mem_filter.mpr ⟨Table.mem_of_get hr, by simpa [hid] using hk⟩, hid⟩
  case isFalse hk =>
    apply List.count_eq_zero_of_not_mem
    intro hmem
    obtain ⟨r, hr, rfl⟩ := List.mem_map.mp hmem
    exact hk (by simpa using (List.mem_filter.mp hr).2)

end

theorem get_recoverAbandoned {o : String} {now lockTimeoutMs : Int} {skipped : List String}
    (k : String) :
    (recoverAbandoned t o now lockTimeoutMs skipped).get k = (t.get k).map fun r =>
      if r.abandoned o (now - lockTimeoutMs) && decide (r.id ∉ skipped) then r.recover now else r :=
  Table.get_update t _ (f := EmailOutboxRow.recover now) (fun _ => rfl) k

theorem get_finalise {o id w : String} {f : EmailOutboxRow → EmailOutboxRow}
    (hf : ∀ r, (f r).id = r.id) (k : String) :
    (finalise t o id w f hf).2.get k = (t.get k).map fun r => if r.ownedBy o id w then f r else r :=
  Table.get_update t _ hf k

/-! ## What a step does to a row -/

def Task.current : Task → Option EmailOutboxRow
  | .acknowledging _ row _ _ => some row
  | .failing _ row _ _ => some row
  | _ => none

structure Finalised (c r r' : EmailOutboxRow) : Prop where
  status : r'.status = .sent ∨ r'.status = .dead ∨ r'.status = .retryWait
  lockedBy : r'.lockedBy = none
  lockedAt : r'.lockedAt = none
  attemptCount : r'.attemptCount = r.attemptCount ∨ r'.attemptCount = c.attemptCount

inductive Change (s : State) (e : Event) (k : String) : Option EmailOutboxRow →
    Option EmailOutboxRow → Prop
  | same (o : Option EmailOutboxRow)
      (h : ((s.claimed e).1.countP fun r => r.id = k) = 0) : Change s e k o o
  | created (r : EmailOutboxRow) (hlock : r.status = .pending ∧ r.lockedBy = none ∧
      r.lockedAt = none) (hzero : r.attemptCount = 0)
      (hlimit : 1 ≤ r.maxAttempts) (h : ((s.claimed e).1.countP fun r => r.id = k) = 0) : Change s e
        k none (some r)
  | claimed (w : String) (now : Int) (r : EmailOutboxRow) (hw : e.worker = some w)
      (hrows : (s.task w).rows = [])
      (hdue : r.status = .pending ∨ r.status = .retryWait)
        (h : ((s.claimed e).1.countP fun r => r.id = k) = 1) :
      Change s e k (some r) (some (r.claim now w))
  | recovered (w : String) (tick : Tick) (lockTimeoutMs : Int) (skipped : List String)
      (outcome : Outcome) (r : EmailOutboxRow)
      (he : e = .recoverAbandoned w tick lockTimeoutMs skipped outcome) (hidle : s.task w = .idle)
        (hran : outcome.ran = true)
      (hr : r.abandoned tick.organizationId (tick.now - lockTimeoutMs) = true)
        (hskipped : r.id ∉ skipped)
      (h : ((s.claimed e).1.countP fun r => r.id = k) = 0) : Change s e k (some r)
        (some (r.recover tick.now))
  | finalised (w : String) (c r r' : EmailOutboxRow) (hw : e.worker = some w)
      (hc : (s.task w).current = some c) (hid : c.id = k)
      (hstatus : r.status = .processing) (howner : r.lockedBy = some w) (hr : Finalised c r r')
        (hlimit : r'.maxAttempts = r.maxAttempts)
      (hretry : r'.status = .retryWait → c.attemptCount < c.maxAttempts)
        (h : ((s.claimed e).1.countP fun r => r.id = k) = 0) : Change s e k (some r) (some r')

section
variable {s : State} {e : Event}

theorem change_finalise {o id w : String} {f : EmailOutboxRow → EmailOutboxRow} {c : EmailOutboxRow}
    (hf : ∀ r, (f r).id = r.id) (hw : e.worker = some w) (hc : (s.task w).current = some c)
    (hid : id = c.id) (hfin : ∀ r, Finalised c r (f r))
    (hlimit : ∀ r, (f r).maxAttempts = r.maxAttempts)
    (hretry : ∀ r, (f r).status = .retryWait → c.attemptCount < c.maxAttempts)
    (hzero : ((s.claimed e).1.countP fun r => r.id = k) = 0) :
    Change s e k (s.outbox.get k) ((finalise s.outbox o id w f hf).2.get k) := by
  rw [get_finalise]
  cases hget : s.outbox.get k with
  | none => exact .same none hzero
  | some r =>
    simp only [Option.map_some]
    split
    case isTrue howned =>
      simp only [EmailOutboxRow.ownedBy, Bool.and_eq_true, decide_eq_true_eq] at howned
      refine .finalised w c r (f r) hw hc ?_ howned.1.2 howned.2 (hfin r) (hlimit r) (hretry r) hzero
      rw [← hid, ← howned.1.1.2]
      exact Table.key_get hget
    case isFalse => exact .same (some r) hzero

@[simp] theorem setTask_outbox (s : State) (w : String) (task : Task) :
    (s.setTask w task).outbox = s.outbox := rfl

@[simp] theorem next_outbox (s : State) (w : String) (tick : Tick) (rows : List EmailOutboxRow) :
    (s.next w tick rows).outbox = s.outbox := by
  cases rows <;> rfl

@[simp] theorem withOutbox_outbox (s : State) (t : EmailOutbox) : (s.withOutbox t).outbox = t := rfl

@[simp] theorem withOutbox_task (s : State) (t : EmailOutbox) : (s.withOutbox t).task = s.task := rfl

theorem step_change (s : State) (e : Event) (k : String) :
    Change s e k (s.outbox.get k) ((s.step e).outbox.get k) := by
  cases e with
  | create o id maxAttempts dedupeKey timestamp =>
    have hzero : ((s.claimed (.create o id maxAttempts dedupeKey timestamp)).1.countP fun r =>
        r.id = k) = 0 := rfl
    simp only [step, withOutbox_outbox]
    rcases get_create s.outbox (newRow o id maxAttempts dedupeKey timestamp) k with h |
      ⟨hnone, hlimit, h⟩
    · rw [h]
      exact .same _ hzero
    · rw [hnone, h]
      exact .created _ ⟨rfl, rfl, rfl⟩ rfl hlimit hzero
  | recoverAbandoned w tick lockTimeoutMs skipped outcome =>
    have hzero : ((s.claimed (.recoverAbandoned w tick lockTimeoutMs skipped outcome)).1.countP
          fun r => r.id = k) = 0 := rfl
    simp only [step]
    split
    case _ htask =>
      simp only [setTask_outbox, withOutbox_outbox]
      split
      case isTrue hran =>
        rw [get_recoverAbandoned]
        cases hget : s.outbox.get k with
        | none => exact .same none hzero
        | some r =>
          simp only [Option.map_some]
          split
          case isTrue hr =>
            simp only [Bool.and_eq_true, decide_eq_true_eq] at hr
            exact .recovered w tick lockTimeoutMs skipped outcome r rfl htask hran hr.1 hr.2 hzero
          case isFalse => exact .same (some r) hzero
      case isFalse => exact .same _ hzero
    · exact .same _ hzero
  | claimDue w batchSize skipped outcome =>
    cases htask : s.task w with
    | claiming tick =>
      have hstep : (s.step (.claimDue w batchSize skipped outcome)).outbox =
          (s.claimed (.claimDue w batchSize skipped outcome)).2 := by
        simp only [step, htask]
        split <;> simp
      rw [hstep]
      by_cases hran : 0 < batchSize ∧ outcome.ran = true
      · have hclaimed : s.claimed (.claimDue w batchSize skipped outcome) =
            claimDue s.outbox tick.organizationId tick.now w batchSize.toNat skipped := by
          simp only [claimed, htask, if_pos hran]
        have hcount := @count_claimDue s.outbox tick.organizationId w tick.now batchSize.toNat skipped k
        rw [hclaimed, get_claimDue]
        split
        case isTrue hk =>
          rw [if_pos hk, ← hclaimed] at hcount
          obtain ⟨r, hr, hdue⟩ := mem_candidates hk
          rw [hr]
          simp only [EmailOutboxRow.due, Bool.and_eq_true, Bool.or_eq_true, decide_eq_true_eq] at hdue
          exact .claimed w tick.now r rfl (by rw [htask]; rfl) (hdue.2.imp id fun h => h.1) hcount
        case isFalse hk =>
          rw [if_neg hk, ← hclaimed] at hcount
          exact .same _ hcount
      · have hclaimed : s.claimed (.claimDue w batchSize skipped outcome) = ([], s.outbox) := by
          simp only [claimed, htask, if_neg hran]
        rw [hclaimed]
        exact .same _ (by rw [hclaimed]; rfl)
    | _ =>
      simp only [step, htask]
      exact .same _ (by simp [claimed, htask])
  | send w result =>
    have hsame : (s.step (.send w result)).outbox = s.outbox := by
      simp only [step]
      split
      · split <;> rfl
      · rfl
    rw [hsame]
    exact .same _ rfl
  | markSent w clock outcome error =>
    cases htask : s.task w with
    | acknowledging tick row providerMessageId rows =>
      have hfin := change_finalise (s := s) (e := .markSent w clock outcome error) (k := k)
        (o := tick.organizationId)
        (f := fun r =>
          { r.unlocked clock with
            status := .sent, sentAt := some tick.now, providerMessageId, nextAttemptAt := none })
        (c := row) (fun _ => rfl) rfl (by rw [htask]; rfl) rfl (fun r => ⟨.inl rfl, rfl, rfl,
            .inl rfl⟩) (fun _ => rfl) (fun _ h => by cases h) rfl
      simp only [step, htask]
      cases outcome with
      | replied => simpa [markSent] using hfin
      | lost => exact hfin
      | failed => exact .same _ rfl
    | _ =>
      simp only [step, htask]
      exact .same _ rfl
  | markFailed w clock outcome =>
    cases htask : s.task w with
    | failing tick row lastError rows =>
      have hdead := change_finalise (s := s) (e := .markFailed w clock outcome) (k := k)
        (o := tick.organizationId)
        (f := fun r => { r.unlocked clock with
          status := .dead, attemptCount := row.attemptCount, lastError := some lastError
          nextAttemptAt := none })
        (c := row) (fun _ => rfl) rfl (by rw [htask]; rfl) rfl (fun r => ⟨.inr (.inl rfl), rfl, rfl,
            .inr rfl⟩) (fun _ => rfl)
        (fun _ h => by cases h) rfl
      have hretry (hleft : row.attemptCount < row.maxAttempts) :=
        change_finalise (s := s) (e := .markFailed w clock outcome) (k := k)
          (o := tick.organizationId)
        (f := fun r => { r.unlocked clock with
          status := .retryWait, attemptCount := row.attemptCount, lastError := some lastError
          nextAttemptAt := some (computeNextRetryAt tick.now row.attemptCount tick.retryBaseSeconds) })
        (c := row) (fun _ => rfl) rfl (by rw [htask]; rfl) rfl (fun r => ⟨.inr (.inr rfl), rfl, rfl,
            .inr rfl⟩) (fun _ => rfl)
        (fun _ _ => hleft) rfl
      simp only [step, htask]
      by_cases hex : row.maxAttempts ≤ row.attemptCount
      · cases outcome with
        | replied => simpa [hex, markDead] using hdead
        | lost => simpa [hex, markDead] using hdead
        | failed => exact .same _ rfl
      · cases outcome with
        | replied => simpa [hex, markRetryWait] using hretry (Nat.lt_of_not_le hex)
        | lost => simpa [hex, markRetryWait] using hretry (Nat.lt_of_not_le hex)
        | failed => exact .same _ rfl
    | _ =>
      simp only [step, htask]
      exact .same _ rfl
  | crash w => exact .same _ rfl

/-! ## What a step does to a worker -/

theorem mem_next_rows {w v : String} {tick : Tick} {rows : List EmailOutboxRow} {c : EmailOutboxRow}
    (h : c ∈ ((s.next w tick rows).task v).rows) :
    (v = w ∧ c ∈ rows) ∨ (v ≠ w ∧ c ∈ (s.task v).rows) := by
  by_cases hv : v = w
  · cases rows with
    | nil => simp [next, setTask, hv, Task.rows] at h
    | cons r rows => exact .inl ⟨hv, by simpa [next, setTask, hv, Task.rows] using h⟩
  · cases rows with
    | nil => exact .inr ⟨hv, by simpa [next, setTask, hv] using h⟩
    | cons r rows => exact .inr ⟨hv, by simpa [next, setTask, hv] using h⟩

theorem mem_setTask_rows {w v : String} {task : Task} {c : EmailOutboxRow}
    (h : c ∈ ((s.setTask w task).task v).rows) :
    (v = w ∧ c ∈ task.rows) ∨ (v ≠ w ∧ c ∈ (s.task v).rows) := by
  by_cases hv : v = w
  · exact .inl ⟨hv, by simpa [setTask, hv] using h⟩
  · exact .inr ⟨hv, by simpa [setTask, hv] using h⟩

theorem no_rows {w : String} : ∀ c ∈ Task.idle.rows, c ∈ (s.task w).rows := by
  intro c hc
  cases hc

theorem step_rows {v : String} {c : EmailOutboxRow} (h : c ∈ ((s.step e).task v).rows) :
    c ∈ (s.task v).rows ∨ (e.worker = some v ∧ c ∈ (s.claimed e).1 ∧
      (s.step e).outbox = (s.claimed e).2) := by
  have hset : ∀ {w : String} {task : Task} {t : EmailOutbox}, (∀ c ∈ task.rows, c ∈ (s.task w).rows) →
      c ∈ (((s.withOutbox t).setTask w task).task v).rows → c ∈ (s.task v).rows := by
    intro w task t hsub hmem
    rcases mem_setTask_rows hmem with ⟨rfl, hc⟩ | ⟨_, hc⟩
    · exact hsub c hc
    · exact hc
  have hnext : ∀ {w : String} {tick : Tick} {rows : List EmailOutboxRow} {t : EmailOutbox},
      (∀ c ∈ rows, c ∈ (s.task w).rows) →
      c ∈ (((s.withOutbox t).next w tick rows).task v).rows → c ∈ (s.task v).rows := by
    intro w tick rows t hsub hmem
    rcases mem_next_rows hmem with ⟨rfl, hc⟩ | ⟨_, hc⟩
    · exact hsub c hc
    · exact hc
  cases e with
  | create => exact .inl h
  | recoverAbandoned w tick lockTimeoutMs skipped outcome =>
    simp only [step] at h
    split at h
    · refine .inl (hset (fun c hc => ?_) h)
      split at hc <;> cases hc
    · exact .inl h
  | claimDue w batchSize skipped outcome =>
    cases htask : s.task w with
    | claiming tick =>
      simp only [step, htask] at h
      split at h
      · rcases mem_next_rows h with ⟨rfl, h⟩ | ⟨_, h⟩
        · refine .inr ⟨rfl, h, ?_⟩
          simp only [step, htask]
          split <;> simp
        · exact .inl h
      · exact .inl (hset no_rows h)
    | _ =>
      simp only [step, htask] at h
      exact .inl h
  | send w result =>
    cases htask : s.task w with
    | delivering tick rows =>
      cases rows with
      | nil =>
        simp only [step, htask] at h
        exact .inl h
      | cons row rows =>
        refine .inl (@hset w ((s.step (.send w result)).task w) s.outbox (fun c hc => ?_) ?_)
        · rw [htask]
          simp only [step, htask] at hc
          cases result <;> simpa [setTask, Task.rows] using hc
        · simp only [step, htask] at h ⊢
          cases result <;> simpa [setTask] using h
    | _ =>
      simp only [step, htask] at h
      exact .inl h
  | markSent w clock outcome error =>
    cases htask : s.task w with
    | acknowledging tick row providerMessageId rows =>
      have hheld : ∀ c ∈ row :: rows, c ∈ (s.task w).rows := by
        intro c hc
        rw [htask]
        exact hc
      simp only [step, htask] at h
      cases outcome with
      | replied => exact .inl (hnext (fun c hc => hheld c (List.mem_cons_of_mem row hc)) h)
      | lost => exact .inl (@hset w (.failing tick row error rows) _ hheld h)
      | failed => exact .inl (@hset w (.failing tick row error rows) s.outbox hheld h)
    | _ =>
      simp only [step, htask] at h
      exact .inl h
  | markFailed w clock outcome =>
    cases htask : s.task w with
    | failing tick row lastError rows =>
      have hheld : ∀ c ∈ rows, c ∈ (s.task w).rows := by
        intro c hc
        rw [htask]
        exact List.mem_cons_of_mem row hc
      simp only [step, htask] at h
      cases outcome with
      | replied => exact .inl (hnext hheld h)
      | lost => exact .inl (hset no_rows h)
      | failed => exact .inl (hset (t := s.outbox) no_rows h)
    | _ =>
      simp only [step, htask] at h
      exact .inl h
  | crash w => exact .inl (hset (t := s.outbox) no_rows h)

/-! ## What every run keeps -/

/-- The lock columns follow the status, and a worker that owns a row it holds owns
it under the claim it holds. -/
structure Sound (s : State) : Prop where
  locked : ∀ k r, s.outbox.get k = some r →
    (r.status = .processing ↔ r.lockedBy.isSome = true) ∧
    (r.status = .processing ↔ r.lockedAt.isSome = true)
  held : ∀ w c, c ∈ (s.task w).rows → ∃ r, s.outbox.get c.id = some r ∧
    c.attemptCount ≤ r.attemptCount ∧ (r.lockedBy = some w → r.attemptCount = c.attemptCount)

theorem init_sound : Sound init where
  locked k r h := by cases h
  held w c h := by cases h

theorem current_mem {task : Task} {c : EmailOutboxRow} (h : task.current = some c) : c ∈ task.rows := by
  cases task with
  | acknowledging _ row _ rows => cases h; exact List.mem_cons_self
  | failing _ row _ rows => cases h; exact List.mem_cons_self
  | _ => cases h

theorem finalised_count (h : Sound s) {w : String} {c r r' : EmailOutboxRow}
    (hget : s.outbox.get k = some r) (hc : (s.task w).current = some c) (hid : c.id = k)
    (howner : r.lockedBy = some w) (hr : Finalised c r r') :
    r.attemptCount = c.attemptCount ∧ r'.attemptCount = r.attemptCount := by
  obtain ⟨x, hx, _, heq⟩ := h.held w c (current_mem hc)
  rw [hid, hget, Option.some.injEq] at hx
  subst hx
  refine ⟨heq howner, ?_⟩
  rcases hr.attemptCount with h | h
  · exact h
  · exact h.trans (heq howner).symm

def attempts (t : EmailOutbox) (k : String) : Nat := ((t.get k).map (·.attemptCount)).getD 0

theorem step_attempts (h : Sound s) (e : Event) (k : String) :
    attempts (s.step e).outbox k = attempts s.outbox k + (s.claimed e).1.countP fun r => r.id = k := by
  have hchange := step_change s e k
  unfold attempts
  generalize hb : s.outbox.get k = before at hchange ⊢
  generalize ha : (s.step e).outbox.get k = after at hchange ⊢
  cases hchange with
  | same _ hcount => rw [hcount, Nat.add_zero]
  | created r _ hzero _ hcount => simp [hzero, hcount]
  | claimed w now r _ _ _ hcount => simp [hcount, EmailOutboxRow.claim]
  | recovered w tick lockTimeoutMs skipped outcome r _ _ _ _ _ hcount =>
    simp [hcount, EmailOutboxRow.recover]
  | finalised w c r r' _ hc hid _ howner hr _ _ hcount =>
    simp [hcount, (finalised_count h hb hc hid howner hr).2]

theorem step_row (h : Sound s) (e : Event) {r : EmailOutboxRow} (hr : s.outbox.get k = some r) :
    ∃ r', (s.step e).outbox.get k = some r' ∧ r.attemptCount ≤ r'.attemptCount := by
  have hchange := step_change s e k
  have hcount := step_attempts h e k
  rw [hr] at hchange
  generalize ha : (s.step e).outbox.get k = after at hchange
  simp only [attempts, hr, ha, Option.map_some, Option.getD_some] at hcount
  cases hchange with
  | same => exact ⟨r, rfl, Nat.le_refl _⟩
  | claimed => exact ⟨_, rfl, by simp at hcount; omega⟩
  | recovered => exact ⟨_, rfl, Nat.le_refl _⟩
  | finalised => exact ⟨_, rfl, by simp at hcount; omega⟩

theorem step_locked (h : Sound s) (e : Event) {r : EmailOutboxRow}
    (hr : (s.step e).outbox.get k = some r) :
    (r.status = .processing ↔ r.lockedBy.isSome = true) ∧
    (r.status = .processing ↔ r.lockedAt.isSome = true) := by
  have hchange := step_change s e k
  rw [hr] at hchange
  generalize hb : s.outbox.get k = before at hchange
  cases hchange with
  | same => exact h.locked k r hb
  | created _ hlock => simp [hlock.1, hlock.2.1, hlock.2.2]
  | claimed => simp [EmailOutboxRow.claim]
  | recovered => simp [EmailOutboxRow.recover]
  | finalised w c x _ _ _ _ _ _ hfin => rcases hfin.status with hs | hs | hs <;> simp [hs,
      hfin.lockedBy, hfin.lockedAt]

/-- Who owns a row after a step owned it before, or has just claimed it. -/
theorem step_owner (e : Event) {w : String} {r r' : EmailOutboxRow} (hr : s.outbox.get k = some r)
    (hr' : (s.step e).outbox.get k = some r') (ho : r'.lockedBy = some w) :
    (r.lockedBy = some w ∧ r'.attemptCount = r.attemptCount) ∨
      (e.worker = some w ∧ (s.task w).rows = [] ∧ r'.attemptCount = r.attemptCount + 1) := by
  have hchange := step_change s e k
  rw [hr, hr'] at hchange
  cases hchange with
  | same => exact .inl ⟨ho, rfl⟩
  | claimed v now _ hw hrows =>
    have hv : v = w := by simpa [EmailOutboxRow.claim] using ho
    subst hv
    exact .inr ⟨hw, hrows, rfl⟩
  | recovered => simp [EmailOutboxRow.recover] at ho
  | finalised v c _ _ _ _ _ _ _ hfin =>
    rw [hfin.lockedBy] at ho
    cases ho

theorem claimed_stored {c : EmailOutboxRow} (hc : c ∈ (s.claimed e).1)
    (houtbox : (s.step e).outbox = (s.claimed e).2) :
    (s.step e).outbox.get c.id = some c := by
  rw [houtbox]
  unfold claimed at hc ⊢
  split at hc
  · split at hc
    · split at hc
      case isTrue hran =>
        obtain ⟨_, _, _, hget⟩ := mem_claimDue hc
        simpa [hran] using hget
      case isFalse => cases hc
    · cases hc
  · cases hc

theorem sound_step (h : Sound s) (e : Event) : Sound (s.step e) where
  locked k r hr := step_locked h e hr
  held w c hc := by
    rcases step_rows hc with hc | ⟨_, hc, houtbox⟩
    · obtain ⟨r, hr, hle, howner⟩ := h.held w c hc
      obtain ⟨r', hr', hle'⟩ := step_row h e hr
      refine ⟨r', hr', Nat.le_trans hle hle', fun ho => ?_⟩
      rcases step_owner e hr hr' ho with ⟨ho, hcount⟩ | ⟨_, hrows, _⟩
      · exact hcount.trans (howner ho)
      · rw [hrows] at hc
        cases hc
    · exact ⟨c, claimed_stored hc houtbox, Nat.le_refl _, fun _ => rfl⟩

end

theorem sound_run : ∀ (es : List Event) {s : State}, Sound s → Sound (s.run es)
  | [], _, h => h
  | e :: es, _, h => sound_run es (sound_step h e)

theorem attempts_run : ∀ (es : List Event) {s : State}, Sound s → ∀ k : String,
    attempts (s.run es).outbox k = attempts s.outbox k + s.claims es k
  | [], _, _, _ => rfl
  | e :: es, s, h, k => by
    have hrest := attempts_run es (sound_step h e) k
    rw [step_attempts h e k] at hrest
    rw [show s.run (e :: es) = (s.step e).run es from rfl, hrest, State.claims]
    omega

section
variable {s : State} {e : Event} {r : EmailOutboxRow}

theorem terminal_step (e : Event) (hr : s.outbox.get k = some r)
    (hs : r.status = .sent ∨ r.status = .dead) :
    (s.step e).outbox.get k = some r := by
  have hchange := step_change s e k
  rw [hr] at hchange
  generalize (s.step e).outbox.get k = after at hchange ⊢
  have hfree : r.status ≠ .processing := by
    intro hp
    rw [hp] at hs
    simp at hs
  cases hchange with
  | same => rfl
  | claimed _ _ _ _ _ hdue => rcases hs with hs | hs <;> simp [hs] at hdue
  | recovered _ _ _ _ _ _ _ _ _ hab =>
    simp only [EmailOutboxRow.abandoned, Bool.and_eq_true, decide_eq_true_eq] at hab
    exact absurd hab.1.2 hfree
  | finalised _ _ _ _ _ _ _ hstatus => exact absurd hstatus hfree

theorem terminal_run :
    ∀ (es : List Event) {s : State}, s.outbox.get k = some r → r.status = .sent ∨ r.status = .dead →
    (s.run es).outbox.get k = some r
  | [], _, hr, _ => hr
  | e :: es, _, hr, hs => terminal_run es (terminal_step e hr hs) hs

/-- What a step does to a processing row: nothing, a recovery past the lock timeout,
or a finalisation by its owner under the claim that took the lock. -/
theorem processing_step (h : Sound s) (e : Event) (hr : s.outbox.get k = some r)
    (hp : r.status = .processing) :
    ∃ r', (s.step e).outbox.get k = some r' ∧
      (r' = r ∨
        (∃ w tick lockTimeoutMs skipped outcome lockedAt,
            e = .recoverAbandoned w tick lockTimeoutMs skipped outcome ∧
          r.lockedAt = some lockedAt ∧ lockedAt ≤ tick.now - lockTimeoutMs ∧ r' = r.recover tick.now) ∨
        ∃ w c, e.worker = some w ∧ r.lockedBy = some w ∧ (s.task w).current = some c ∧ c.id = k ∧
          c.attemptCount = r.attemptCount ∧ Finalised c r r') := by
  have hchange := step_change s e k
  rw [hr] at hchange
  generalize (s.step e).outbox.get k = after at hchange ⊢
  cases hchange with
  | same => exact ⟨r, rfl, .inl rfl⟩
  | claimed _ _ _ _ _ hdue => rw [hp] at hdue; simp at hdue
  | recovered w tick lockTimeoutMs skipped outcome _ he _ _ hab =>
    simp only [EmailOutboxRow.abandoned, Bool.and_eq_true, Option.any_eq_true] at hab
    obtain ⟨_, lockedAt, hlocked, hle⟩ := hab
    exact ⟨_, rfl,
      .inr (.inl ⟨w, tick, lockTimeoutMs, skipped, outcome, lockedAt, he,
          hlocked, by simpa using hle, rfl⟩)⟩
  | finalised w c _ r' hw hc hid _ howner hfin =>
    exact ⟨r', rfl,
      .inr (.inr ⟨w, c, hw, howner, hc, hid, (finalised_count h hr hc hid howner hfin).1.symm, hfin⟩)⟩

/-! ## Lost claims -/

/-- The claim that returned `c` to the worker is not the one that holds the row. -/
def Lost (s : State) (w : String) (c : EmailOutboxRow) : Prop :=
  ∃ r, s.outbox.get c.id = some r ∧ c.attemptCount ≤ r.attemptCount ∧
    (r.attemptCount = c.attemptCount → r.lockedBy ≠ some w)

theorem lost_step {w : String} {c : EmailOutboxRow} (h : Sound s) (e : Event) (hl : Lost s w c) :
    Lost (s.step e) w c := by
  obtain ⟨r, hr, hle, hne⟩ := hl
  obtain ⟨r', hr', hle'⟩ := step_row h e hr
  refine ⟨r', hr', Nat.le_trans hle hle', fun hcount ho => ?_⟩
  rcases step_owner e hr hr' ho with ⟨ho, hsame⟩ | ⟨_, _, hsucc⟩
  · exact hne (hsame.symm.trans hcount) ho
  · omega

theorem lost_run {w : String} {c : EmailOutboxRow} :
    ∀ (es : List Event) {s : State}, Sound s → Lost s w c → Lost (s.run es) w c
  | [], _, _, hl => hl
  | e :: es, _, h, hl => lost_run es (sound_step h e) (lost_step h e hl)

theorem lost_unchanged {w : String} {c : EmailOutboxRow} (h : Sound s) (hl : Lost s w c)
    (hc : c ∈ (s.task w).rows) (hw : e.worker = some w) :
    (s.step e).outbox.get c.id = s.outbox.get c.id := by
  obtain ⟨r, hr, _, hne⟩ := hl
  obtain ⟨x, hx, _, howned⟩ := h.held w c hc
  rw [hr, Option.some.injEq] at hx
  subst hx
  have hbusy : (s.task w).rows ≠ [] := List.ne_nil_of_mem hc
  have hchange := step_change s e c.id
  rw [hr] at hchange ⊢
  generalize (s.step e).outbox.get c.id = after at hchange ⊢
  cases hchange with
  | same => rfl
  | claimed v _ _ hv hrows =>
    rw [hw, Option.some.injEq] at hv
    exact absurd (hv ▸ hrows) hbusy
  | recovered v _ _ _ _ _ he hidle =>
    rw [he, Event.worker, Option.some.injEq] at hw
    exact absurd (by rw [← hw, hidle]; rfl) hbusy
  | finalised v _ _ _ hv _ _ _ howner =>
    rw [hw, Option.some.injEq] at hv
    rw [← hv] at howner
    exact absurd howner (hne (howned howner))

end

/-- Over every run of the workers: the lock columns follow the status and the attempt
count is the number of claims; terminal rows stay as they are; a processing row
changes only by a recovery past the lock timeout or by its owner under the claim it
holds; and a worker whose claim was taken from it never changes the row through it. -/
theorem outbox_safe (es : List Event) (k : String) (r : EmailOutboxRow)
    (hr : (init.run es).outbox.get k = some r) :
    (r.status = .processing ↔ r.lockedBy.isSome = true) ∧
    (r.status = .processing ↔ r.lockedAt.isSome = true) ∧
    r.attemptCount = init.claims es k ∧
    (r.status = .sent ∨ r.status = .dead → ∀ es', ((init.run es).run es').outbox.get k = some r) ∧
    (r.status = .processing → ∀ e, ∃ r', ((init.run es).step e).outbox.get k = some r' ∧
      (r' = r ∨
        (∃ w tick lockTimeoutMs skipped outcome lockedAt,
            e = .recoverAbandoned w tick lockTimeoutMs skipped outcome ∧
          r.lockedAt = some lockedAt ∧ lockedAt ≤ tick.now - lockTimeoutMs ∧ r' = r.recover tick.now) ∨
        ∃ w c, e.worker = some w ∧ r.lockedBy = some w ∧ ((init.run es).task w).current = some c ∧
          c.id = k ∧ c.attemptCount = r.attemptCount ∧ Finalised c r r')) ∧
    (∀ w c, c ∈ ((init.run es).task w).rows → c.id = k → r.lockedBy ≠ some w → ∀ es' e,
      c ∈ (((init.run es).run es').task w).rows → e.worker = some w →
      (((init.run es).run es').step e).outbox.get k = ((init.run es).run es').outbox.get k) := by
  have h := sound_run es init_sound
  obtain ⟨hby, hat⟩ := h.locked k r hr
  have hcount := attempts_run es init_sound k
  rw [attempts, hr, show attempts init.outbox k = 0 from rfl, Nat.zero_add] at hcount
  refine ⟨hby, hat, hcount, fun hs es' => terminal_run es' hr hs,
    fun hp e => processing_step h e hr hp, ?_⟩
  intro w c hc hid hne es' e hc' hw
  subst hid
  obtain ⟨x, hx, hle, _⟩ := h.held w c hc
  rw [hr, Option.some.injEq] at hx
  subst hx
  exact lost_unchanged (sound_run es' h) (lost_run es' h ⟨r, hr, hle, fun _ => hne⟩) hc' hw

/-- A row whose first claim was recovered: the second worker owns it while the first
one is still at its email. -/
def handedOver : List Event :=
  [.create "org" "mail" 5 none 0,
    .recoverAbandoned "first" ⟨"org", 10, 60, {}⟩ 1000 [] .replied, .claimDue "first" 10 [] .replied,
    .recoverAbandoned "second" ⟨"org", 5000, 60, {}⟩ 1000 [] .replied,
    .claimDue "second" 10 [] .replied]

def claimedTwice : EmailOutboxRow :=
  ((newRow "org" "mail" 5 none 0).claim 10 "first" |>.recover 5000).claim 5000 "second"

theorem outbox_safe_recovered :
    init.claims handedOver "mail" = 2 ∧
    (((init.run handedOver).run [.send "first" (.ok none)]).step
        (.markSent "first" 5001 .replied "")).outbox.get "mail" =
      some claimedTwice := by
  have hr : (init.run handedOver).outbox.get "mail" = some claimedTwice := by decide +kernel
  obtain ⟨_, _, hcount, _, _, hlost⟩ := outbox_safe handedOver "mail" claimedTwice hr
  have hheld : (newRow "org" "mail" 5 none 0).claim 10 "first" ∈
    ((init.run handedOver).task "first").rows := by decide +kernel
  have hsent : (newRow "org" "mail" 5 none 0).claim 10 "first" ∈
      (((init.run handedOver).run [.send "first" (.ok none)]).task "first").rows := by decide +kernel
  have hsame := hlost "first" _ hheld rfl (by decide) [.send "first" (.ok none)]
    (.markSent "first" 5001 .replied "") hsent rfl
  refine ⟨by rw [← hcount]; decide, hsame.trans ?_⟩
  decide +kernel

end ExamSystem.Outbox
