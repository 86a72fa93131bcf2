import ExamSystem.OutboxSound

/-!
# The attempt limit of the outbox

A failed send ends a row that is at its limit, and nothing else does: a recovery
returns the row of a crashed worker whatever its count. As long as the recoveries
spare the rows at their limit, no row is tried more often than its limit allows;
a recovery that does not spare one leads to an attempt too many.
-/

namespace ExamSystem.Outbox

namespace State

/-- The recovery of the step, if it is one, returns no row that is at its limit. -/
def Spares (s : State) : Event → Prop
  | .recoverAbandoned worker tick lockTimeoutMs skipped outcome =>
    s.task worker = .idle → outcome.ran = true → ∀ r ∈ s.outbox.rows,
      r.abandoned tick.organizationId (tick.now - lockTimeoutMs) = true → r.id ∉ skipped →
      r.attemptCount < r.maxAttempts
  | _ => True

def SparesAlong (s : State) : List Event → Prop
  | [] => True
  | e :: es => s.Spares e ∧ (s.step e).SparesAlong es

end State

open State

structure Within (r : EmailOutboxRow) : Prop where
  count : r.attemptCount ≤ r.maxAttempts
  waiting : r.status = .pending ∨ r.status = .retryWait → r.attemptCount < r.maxAttempts

structure Budgeted (s : State) : Prop where
  rows : ∀ k r, s.outbox.get k = some r → Within r
  held : ∀ w c, c ∈ (s.task w).rows → ∃ r, s.outbox.get c.id = some r ∧ r.maxAttempts = c.maxAttempts

section
variable {s : State} {e : Event} {k : String} {r : EmailOutboxRow}

theorem step_limit (e : Event) (hr : s.outbox.get k = some r) :
    ∃ r', (s.step e).outbox.get k = some r' ∧ r'.maxAttempts = r.maxAttempts := by
  have hchange := step_change s e k
  rw [hr] at hchange
  generalize (s.step e).outbox.get k = after at hchange ⊢
  cases hchange with
  | same => exact ⟨r, rfl, rfl⟩
  | claimed => exact ⟨_, rfl, rfl⟩
  | recovered => exact ⟨_, rfl, rfl⟩
  | finalised _ _ _ r' _ _ _ _ _ _ hlimit => exact ⟨r', rfl, hlimit⟩

theorem step_within (h : Sound s) (hb : Budgeted s) (hspares : s.Spares e)
    (hr : (s.step e).outbox.get k = some r) : Within r := by
  have hchange := step_change s e k
  rw [hr] at hchange
  generalize hbefore : s.outbox.get k = before at hchange
  cases hchange with
  | same => exact hb.rows k r hbefore
  | created r hlock hzero hlimit => exact ⟨by omega, fun _ => by omega⟩
  | claimed w now x _ _ hdue =>
    have hleft := (hb.rows k x hbefore).waiting hdue
    refine ⟨hleft, fun hs => ?_⟩
    simp [EmailOutboxRow.claim] at hs
  | recovered w tick lockTimeoutMs skipped outcome x he hidle hran hab hskipped =>
    subst he
    have hleft := hspares hidle hran x (Table.mem_of_get hbefore) hab hskipped
    exact ⟨Nat.le_of_lt hleft, fun _ => hleft⟩
  | finalised w c x _ _ hc hid hstatus howner hfin hlimit hretry =>
    obtain ⟨hcount, hsame⟩ := finalised_count h hbefore hc hid howner hfin
    have hx := (hb.rows k x hbefore).count
    refine ⟨by omega, fun hs => ?_⟩
    obtain ⟨y, hy, hlimit'⟩ := hb.held w c (current_mem hc)
    rw [hid, hbefore, Option.some.injEq] at hy
    subst hy
    have hretry : r.status = .retryWait := by
      rcases hs with hs | hs
      · rcases hfin.status with h' | h' | h' <;> rw [hs] at h' <;> cases h'
      · exact hs
    have := ‹r.status = .retryWait → _› hretry
    omega

theorem budgeted_step (h : Sound s) (hb : Budgeted s) (hspares : s.Spares e) : Budgeted (s.step e) where
  rows k r hr := step_within h hb hspares hr
  held w c hc := by
    rcases step_rows hc with hc | ⟨_, hc, houtbox⟩
    · obtain ⟨r, hr, hlimit⟩ := hb.held w c hc
      obtain ⟨r', hr', hlimit'⟩ := step_limit e hr
      exact ⟨r', hr', hlimit'.trans hlimit⟩
    · exact ⟨c, claimed_stored hc houtbox, rfl⟩

end

theorem budgeted_run :
    ∀ (es : List Event) {s : State}, Sound s → Budgeted s → s.SparesAlong es → Budgeted (s.run es)
  | [], _, _, hb, _ => hb
  | e :: es, _, h, hb, hspares =>
    budgeted_run es (sound_step h e) (budgeted_step h hb hspares.1) hspares.2

theorem init_budgeted : Budgeted init where
  rows k r h := by cases h
  held w c h := by cases h

/-! ## A recovery at the limit -/

section
variable {s : State} {k w : String} {r : EmailOutboxRow}

theorem pending_candidate {t : EmailOutbox} (hr : t.get k = some r) (hs : r.status = .pending)
    (now : Int) :
    k ∈ candidates t r.organizationId now t.rows.length [] := by
  have hdue : r.due r.organizationId now = true := by simp [EmailOutboxRow.due, hs]
  unfold candidates
  rw [List.take_of_length_le]
  · refine List.mem_map.mpr ⟨r, ?_, Table.key_get hr⟩
    exact List.mem_mergeSort.mpr (List.mem_filter.mpr ⟨Table.mem_of_get hr, by simp [hdue]⟩)
  · rw [List.length_mergeSort]
    exact List.length_filter_le _ _

/-- A worker that starts anew claims it. -/
theorem pending_claimed (hr : s.outbox.get k = some r) (hs : r.status = .pending) :
    ∃ es r', (s.run es).outbox.get k = some r' ∧ r'.attemptCount = r.attemptCount + 1 ∧
    r'.maxAttempts = r.maxAttempts := by
  let tick : Tick := ⟨r.organizationId, 0, 0, {}⟩
  let polled : State :=
    s.run [.crash "w", .recoverAbandoned "w" tick 0 (s.outbox.rows.map (·.id)) .replied]
  have htask : polled.task "w" = .claiming tick := by simp [polled, run, step, setTask, withOutbox,
    Outcome.ran, tick]
  have hpolled : polled.outbox.get k = some r := by
    have hid : r.id ∈ s.outbox.rows.map (·.id) := List.mem_map.mpr ⟨r, Table.mem_of_get hr, rfl⟩
    have hout : polled.outbox = recoverAbandoned s.outbox tick.organizationId tick.now 0
        (s.outbox.rows.map (·.id)) := by
      simp [polled, run, step, setTask, withOutbox, Outcome.ran, tick]
    rw [hout, get_recoverAbandoned, hr, Option.map_some, if_neg (by simp [hid])]
  have hpositive : 0 < polled.outbox.rows.length := List.length_pos_of_mem (Table.mem_of_get hpolled)
  refine ⟨[.crash "w", .recoverAbandoned "w" tick 0 (s.outbox.rows.map (·.id)) .replied,
    .claimDue "w" polled.outbox.rows.length [] .replied], r.claim 0 "w", ?_, rfl, rfl⟩
  show (polled.step (.claimDue "w" polled.outbox.rows.length [] .replied)).outbox.get k = _
  have hstep : (polled.step (.claimDue "w" polled.outbox.rows.length [] .replied)).outbox =
      (claimDue polled.outbox r.organizationId 0 "w" polled.outbox.rows.length []).2 := by
    simp [step, htask, claimed, Outcome.ran, hpositive, tick]
  rw [hstep, get_claimDue, if_pos (pending_candidate hpolled hs 0), hpolled]
  rfl

/-- A recovery that does not spare a row at its limit leads to an attempt too many. -/
theorem overrun {e : Event} (h : ¬ s.Spares e) :
    ∃ es k r, ((s.step e).run es).outbox.get k = some r ∧ r.maxAttempts < r.attemptCount := by
  cases e with
  | recoverAbandoned w tick lockTimeoutMs skipped outcome =>
    simp only [Spares, not_forall, Nat.not_lt] at h
    obtain ⟨hidle, hran, r, hr, hab, hskipped, hlimit⟩ := h
    have hget : (s.step (.recoverAbandoned w tick lockTimeoutMs skipped outcome)).outbox.get
        r.id = some (r.recover tick.now) := by
      simp only [step, hidle, hran, if_true, setTask_outbox, withOutbox_outbox]
      rw [get_recoverAbandoned, Table.get_of_mem hr, Option.map_some, if_pos (by simp [hab, hskipped])]
    obtain ⟨es, r', hr', hcount, hmax⟩ := pending_claimed hget rfl
    refine ⟨es, r.id, r', hr', ?_⟩
    rw [hcount, hmax]
    exact Nat.lt_succ_of_le hlimit
  | _ => exact absurd trivial h

end

/-- In a run whose recoveries spare the rows at their limit, a row is never tried
more often than its limit, and at its limit it is not waiting for another attempt.
Any other recovery after such a run can be followed by an attempt too many. -/
theorem attempts_bounded (es : List Event) (h : init.SparesAlong es) :
    (∀ k r, (init.run es).outbox.get k = some r → r.attemptCount ≤ r.maxAttempts ∧
      init.claims es k ≤ r.maxAttempts ∧
      (r.attemptCount = r.maxAttempts → r.status = .processing ∨ r.status = .sent ∨ r.status = .dead)) ∧
    ∀ e, ¬ (init.run es).Spares e →
      ∃ es' k r, (((init.run es).step e).run es').outbox.get k = some r ∧
      r.maxAttempts < r.attemptCount := by
  refine ⟨fun k r hr => ?_, fun e => overrun⟩
  have hwithin := (budgeted_run es init_sound init_budgeted h).rows k r hr
  have hclaims := attempts_run es init_sound k
  rw [attempts, hr, show attempts init.outbox k = 0 from rfl, Nat.zero_add] at hclaims
  refine ⟨hwithin.count, hclaims ▸ hwithin.count, fun hlimit => ?_⟩
  have hwaiting := hwithin.waiting
  cases hs : r.status with
  | processing => exact .inl rfl
  | sent => exact .inr (.inl rfl)
  | dead => exact .inr (.inr rfl)
  | pending | retryWait =>
    have := hwaiting (by simp [hs])
    omega

theorem attempts_bounded_handed_over : init.claims handedOver "mail" ≤ 5 := by
  have hr : (init.run handedOver).outbox.get "mail" = some claimedTwice := by decide +kernel
  have hspares : init.SparesAlong handedOver := by
    refine ⟨trivial, ?_, trivial, ?_, trivial, trivial⟩
    · intro _ _ r hr
      revert r
      decide +kernel
    · intro _ _ r hr
      revert r
      decide +kernel
  exact ((attempts_bounded handedOver hspares).1 "mail" claimedTwice hr).2.1

/-- One attempt is allowed; its worker crashes, and the row is recovered and claimed again. -/
theorem attempts_unbounded :
    ¬ ∀ (es : List Event) (k : String) (r : EmailOutboxRow), (init.run es).outbox.get k = some r →
    r.attemptCount ≤ r.maxAttempts := by
  intro h
  let crashes : List Event :=
    [.create "org" "mail" 1 none 0,
      .recoverAbandoned "first" ⟨"org", 10, 60, {}⟩ 1000 [] .replied,
      .claimDue "first" 10 [] .replied, .crash "first",
      .recoverAbandoned "second" ⟨"org", 5000, 60, {}⟩ 1000 [] .replied,
      .claimDue "second" 10 [] .replied]
  have hr : ((init.run crashes).outbox.get "mail").map (fun r => (r.attemptCount,
      r.maxAttempts)) = some (2, 1) := by decide +kernel
  obtain ⟨r, hr, hcounts⟩ := Option.map_eq_some_iff.mp hr
  have hle := h crashes "mail" r hr
  simp only [Prod.mk.injEq] at hcounts
  omega

end ExamSystem.Outbox
