import ExamSystem.Sessions
import ExamSystem.EpisodeSound

/-!
# The order of the instants

What the rows and the events of an attempt date, in the order in which it
happened. A deadline that passed is dated back to its instant, and the one
thing that may come after it on record is the detection of the interruption
that the submission ends.
-/

namespace ExamSystem

open Tx Episodes

/-! ## Deadlines -/

theorem effectiveDeadline_later {closeAt closeAt' deadlineAt deadlineAt' : Option Int} {d' : Int}
    (hc : NoEarlier closeAt closeAt') (hd : NoEarlier deadlineAt deadlineAt')
    (h : computeEffectiveDeadline closeAt' deadlineAt' = .ok (some d')) :
    ∃ d, computeEffectiveDeadline closeAt deadlineAt = .ok (some d) ∧ d ≤ d' := by
  have hclose : ∀ close', closeAt' = some close' → ∃ close, closeAt = some close ∧ close ≤ close' := by
    rintro close' rfl
    rcases hc with rfl | ⟨close, later, rfl, hlater, hle⟩
    · exact ⟨close', rfl, le_refl _⟩
    · exact ⟨close, rfl, Option.some.inj hlater ▸ hle⟩
  cases closeAt' with
  | none => cases deadlineAt' <;> cases h
  | some close' =>
    obtain ⟨close, rfl, hle⟩ := hclose close' rfl
    rcases hd with rfl | ⟨before, after, rfl, rfl, hle'⟩
    · cases deadlineAt' with
      | none =>
        obtain rfl := Option.some.inj (Except.ok.inj h)
        exact ⟨close, rfl, hle⟩
      | some deadline =>
        obtain rfl := Option.some.inj (Except.ok.inj h)
        refine ⟨_, rfl, ?_⟩
        split <;> split <;> omega
    · obtain rfl := Option.some.inj (Except.ok.inj h)
      refine ⟨_, rfl, ?_⟩
      split <;> split <;> omega

/-! ## The invariant -/

/-- The instants on the row of an attempt: none is after the clock, and in flight
no answer was saved after the deadline. -/
structure ExamAttempt.Dated (a : ExamAttempt) (clock : Int) (closeAt : Option Int) : Prop where
  started : ∃ start, a.startedAt = some start ∧ start ≤ clock
  saved : ∀ r ∈ a.answers, r.savedAt ≤ clock
  submitted : ∀ t ∈ a.submittedAt, t ≤ clock ∧ ∀ r ∈ a.answers, r.savedAt ≤ t
  graded : ∀ t ∈ a.gradedAt, ∃ s, a.submittedAt = some s ∧ s ≤ t
  held : a.status = .submitted → a.submittedAt.isSome
  flight : a.status ≠ .submitted → a.status ≠ .graded → a.submittedAt = none ∧ a.gradedAt = none
  intime : a.status ≠ .submitted → a.status ≠ .graded → ∀ d,
    computeEffectiveDeadline closeAt a.deadlineAt = .ok (some d) → ∀ r ∈ a.answers, r.savedAt ≤ d

structure Dated (clock : Int) (db : Db) : Prop where
  rows : ∀ attemptId a, db.findAttempt attemptId = some a → a.Dated clock db.exam.closeAt
  past : ∀ e ∈ db.interruptionEvents, e.occurredAt ≤ clock
  begun : ∀ e ∈ db.interruptionEvents, e.eventType = .detected →
    ∃ a start, db.findAttempt e.attemptId = some a ∧ a.startedAt = some start ∧ start ≤ e.occurredAt
  ended : ∀ e ∈ db.interruptionEvents, ∀ o ∈ db.interruptionEvents, e.eventType = .detected →
    Db.isOutcome o = true → o.interruptionId = e.interruptionId → e.occurredAt ≤ o.occurredAt

section
variable {clock now : Int} {db db' : Db} {a : ExamAttempt} {f : ExamAttempt → ExamAttempt}

theorem Initial.dated (h : Initial db) (clock : Int) : Dated clock db := by
  constructor
  · intro attemptId a ha
    rw [h.findAttempt] at ha
    cases ha
  all_goals
    intro e he
    rw [h.interruptionEvents] at he
    exact absurd he List.not_mem_nil

theorem ExamAttempt.Dated.later {closeAt closeAt' : Option Int} (h : a.Dated clock closeAt)
    (hle : clock ≤ now) (hc : NoEarlier closeAt closeAt') : a.Dated now closeAt' := by
  obtain ⟨start, hstart, hbefore⟩ := h.started
  refine ⟨⟨start, hstart, hbefore.trans hle⟩, fun r hr => (h.saved r hr).trans hle,
    fun t ht => ⟨(h.submitted t ht).1.trans hle, (h.submitted t ht).2⟩, h.graded, h.held, h.flight, ?_⟩
  intro hs hg d' hd r hr
  obtain ⟨d, hd, hdd⟩ := effectiveDeadline_later hc (.inl rfl) hd
  exact (h.intime hs hg d hd r hr).trans hdd

theorem Dated.later (h : Dated clock db) (hle : clock ≤ now) : Dated now db :=
  ⟨fun k x hx => (h.rows k x hx).later hle (.inl rfl), fun e he => (h.past e he).trans hle,
    h.begun, h.ended⟩

theorem Dated.congr (h : Dated clock db) (hclose : db'.exam.closeAt = db.exam.closeAt)
    (hattempts : db'.attempts = db.attempts)
    (hevents : db'.interruptionEvents = db.interruptionEvents) : Dated clock db' := by
  have hfind : ∀ k, db'.findAttempt k = db.findAttempt k := by
    intro k
    rw [Db.findAttempt, hattempts]
    rfl
  constructor
  · intro k x hx
    rw [hclose]
    exact h.rows k x (hfind k ▸ hx)
  · rw [hevents]
    exact h.past
  · rw [hevents]
    intro e he hd
    rw [hfind]
    exact h.begun e he hd
  · rw [hevents]
    exact h.ended

theorem Dated.update (h : Dated clock db) (hle : clock ≤ now) (ha : db.findAttempt a.id = some a)
    (hid : ∀ x, (f x).id = x.id) (hstart : ∀ x, (f x).startedAt = x.startedAt)
    (hrow : (f a).Dated now db.exam.closeAt) :
    Dated now (db.updateAttempt a.id f) := by
  have hfind := Db.findAttempt_updateAttempt db a.id hid
  constructor
  · intro k x hx
    rw [hfind] at hx
    split at hx
    · rw [ha] at hx
      obtain rfl := Option.some.inj hx
      exact hrow
    · exact (h.rows k x hx).later hle (.inl rfl)
  · exact fun e he => (h.past e he).trans hle
  · intro e he hd
    obtain ⟨x, start, hx, hs, hbefore⟩ := h.begun e he hd
    rw [hfind]
    split
    · rename_i heq
      rw [heq, ha] at hx
      obtain rfl := Option.some.inj hx
      exact ⟨f a, start, by rw [ha]; rfl, (hstart a).trans hs, hbefore⟩
    · exact ⟨x, start, hx, hs, hbefore⟩
  · exact h.ended

/-- The detection of an interruption, at the instant of the transaction. -/
theorem Dated.detected {e : AttemptInterruptionEvent} (h : Dated now db) (ht : e.occurredAt = now)
    (he : e.eventType = .detected) (ha : ∃ a, db.findAttempt e.attemptId = some a)
    (hfresh : ∀ o ∈ db.interruptionEvents, o.interruptionId ≠ e.interruptionId) :
    Dated now { db with interruptionEvents := db.interruptionEvents ++ [e] } := by
  have hnew : ∀ {x : AttemptInterruptionEvent}, x ∈ db.interruptionEvents ++ [e] →
      x ∈ db.interruptionEvents ∨ x = e := by
    intro x hx
    simpa using hx
  have hno : Db.isOutcome e = false := by simp [Db.isOutcome, he]
  refine ⟨h.rows, ?_, ?_, ?_⟩
  · intro x hx
    rcases hnew hx with hx | rfl
    · exact h.past x hx
    · exact ht.le
  · intro x hx hd
    rcases hnew hx with hx | rfl
    · exact h.begun x hx hd
    · obtain ⟨a, ha⟩ := ha
      obtain ⟨start, hstart, hle⟩ := (h.rows _ a ha).started
      exact ⟨a, start, ha, hstart, ht ▸ hle⟩
  · intro x hx o ho hd hout hkey
    rcases hnew ho with hold | rfl
    · rcases hnew hx with hx | rfl
      · exact h.ended x hx o hold hd hout hkey
      · exact absurd hkey (hfresh o hold)
    · rw [hno] at hout
      cases hout

/-- The outcome of an interruption that was detected no later. -/
theorem Dated.outcome {e : AttemptInterruptionEvent} (h : Dated now db) (ht : e.occurredAt ≤ now)
    (he : Db.isOutcome e = true)
    (hafter : ∀ d ∈ db.interruptionEvents, d.eventType = .detected →
      e.interruptionId = d.interruptionId → d.occurredAt ≤ e.occurredAt) :
    Dated now { db with interruptionEvents := db.interruptionEvents ++ [e] } := by
  have hnew : ∀ {x : AttemptInterruptionEvent}, x ∈ db.interruptionEvents ++ [e] →
      x ∈ db.interruptionEvents ∨ x = e := by
    intro x hx
    simpa using hx
  have hno : e.eventType ≠ .detected := by
    intro hd
    simp [Db.isOutcome, hd] at he
  refine ⟨h.rows, ?_, ?_, ?_⟩
  · intro x hx
    rcases hnew hx with hx | rfl
    · exact h.past x hx
    · exact ht
  · intro x hx hd
    rcases hnew hx with hx | rfl
    · exact h.begun x hx hd
    · exact absurd hd hno
  · intro x hx o ho hd hout hkey
    rcases hnew hx with hold | rfl
    · rcases hnew ho with ho | rfl
      · exact h.ended x hold o ho hd hout hkey
      · exact hafter x hold hd hkey
    · exact absurd hd hno

/-! ## Moves -/

theorem OpenInterruption.detections {current : String → Option (String × Int)}
    {interruptionId : String} {interruptedAt : Int} (hep : EpisodesSound db current)
    (h : OpenInterruption db a interruptionId interruptedAt) :
    ∀ d ∈ db.interruptionEvents, d.eventType = .detected → interruptionId = d.interruptionId →
    d.occurredAt = interruptedAt := by
  intro d hd hdet hkey
  obtain ⟨e, he, -, ht⟩ := h.detected
  have hp := List.find?_some he
  simp only [decide_eq_true_eq] at hp
  have hopened : ∀ x ∈ db.interruptionEvents, x.eventType = .detected →
      x.episode ∈ db.episodes.opened := by
    intro x hx hdet
    exact List.mem_map.mpr ⟨x, List.mem_filter.mpr ⟨hx, by simp [hdet]⟩, rfl⟩
  have heq := hep.log.opened_unique (hopened d hd hdet) (hopened e (List.mem_of_find?_eq_some he) hp.2)
    (hkey.symm.trans hp.1.symm)
  rw [← ht]
  exact congrArg Episode.since heq

theorem ExamAttempt.Dated.close {closeAt : Option Int} (h : a.Dated clock closeAt)
    (hle : clock ≤ now) (hs : a.status = .submitted) (aggregated : GradingEntryAggregate) :
    (a.gradedRow aggregated now).Dated now closeAt := by
  have hl := h.later hle (.inl rfl)
  refine ⟨hl.started, hl.saved, hl.submitted, ?_, fun hs => (by cases hs),
    fun _ hg => absurd rfl hg, fun _ hg => absurd rfl hg⟩
  intro t ht
  obtain rfl := Option.some.inj ht
  obtain ⟨u, hu⟩ := Option.isSome_iff_exists.mp (h.held hs)
  exact ⟨u, hu, ((h.submitted u hu).1).trans hle⟩

theorem Dated.close {aggregated : GradingEntryAggregate} (h : Dated clock db) (hle : clock ≤ now)
    (ha : db.findAttempt a.id = some a) (hs : a.status = .submitted) :
    Dated now (db.close a aggregated now) :=
  (h.update (f := (·.gradedRow aggregated now)) hle ha (fun _ => rfl) (fun _ => rfl)
    ((h.rows a.id a ha).close hle hs aggregated)).congr rfl rfl rfl

theorem Dated.adjust {row : AttemptTimeAdjustment} (h : Dated clock db) (hle : clock ≤ now)
    (hadd : Appends db a row now) :
    Dated now (db.adjust a row) := by
  have hadj := hadd.adjusts
  have hl := (h.rows a.id a hadj.found).later hle (.inl rfl)
  have hlater : NoEarlier a.deadlineAt (some row.afterDeadline) := by
    have hpositive := hadj.positive
    have hafter := hadj.after
    exact .inr ⟨_, _, hadj.before, rfl, by omega⟩
  refine (h.update (f := (·.extend row.afterDeadline)) hle hadj.found (fun _ => rfl) (fun _ => rfl)
    ⟨hl.started, hl.saved, hl.submitted, hl.graded, hl.held, hl.flight, ?_⟩).congr rfl rfl rfl
  intro hs hg d hd r hr
  obtain ⟨d', hd', hle'⟩ := effectiveDeadline_later (.inl rfl) hlater hd
  exact (hl.intime hs hg d' hd' r hr).trans hle'

theorem Dated.created {input : StartAttemptInput} (h : Dated clock db) (hle : clock ≤ now)
    (hc : Creates db a input) (hnow : input.now = now) : Dated now (db.create a) := by
  have hfind := Db.findAttempt_append hc.fresh
  have hl := h.later hle
  constructor
  · intro k x hx
    rw [show (db.create a).findAttempt k = _ from hfind k] at hx
    split at hx
    · obtain rfl := Option.some.inj hx
      obtain ⟨deadlineAt, snapshot, hrow⟩ := hc.row
      rw [hrow]
      refine ⟨⟨now, congrArg some hnow, le_refl _⟩, ?_, ?_, ?_, fun hs => (by cases hs),
        fun _ _ => ⟨rfl, rfl⟩, ?_⟩
      · exact fun r hr => absurd hr List.not_mem_nil
      · exact fun t ht => by cases ht
      · exact fun t ht => by cases ht
      · exact fun _ _ d _ r hr => absurd hr List.not_mem_nil
    · exact hl.rows k x hx
  · exact hl.past
  · intro e he hd
    obtain ⟨x, start, hx, hs, hbefore⟩ := h.begun e he hd
    rw [show (db.create a).findAttempt e.attemptId = _ from hfind e.attemptId]
    split
    · rename_i heq
      rw [heq, hc.fresh] at hx
      cases hx
    · exact ⟨x, start, hx, hs, hbefore⟩
  · exact hl.ended

theorem ExamAttempt.Dated.freeze {closeAt : Option Int} {t : Int} {reason : Option SubmissionReason}
    (h : a.Dated clock closeAt) (hle : clock ≤ now)
    (hs : a.status = .inProgress ∨ a.status = .disrupted) (ht : t ≤ now)
    (hsaved : ∀ r ∈ a.answers, r.savedAt ≤ t) : (a.submittedRow t reason).Dated now closeAt := by
  have hflight : a.gradedAt = none := by
    refine (h.flight ?_ ?_).2 <;> rcases hs with hs | hs <;> rw [hs] <;> decide
  have hl := h.later hle (.inl rfl)
  refine ⟨hl.started, hl.saved, ?_, ?_, fun _ => rfl, fun hne => absurd rfl hne,
    fun hne => absurd rfl hne⟩
  · intro u hu
    obtain rfl := Option.some.inj hu
    exact ⟨ht, hsaved⟩
  · intro u hu
    change a.gradedAt = some u at hu
    rw [hflight] at hu
    cases hu

variable [Host]

/-- A submission at `t`, of an attempt whose answers and whose interruption are no later. -/
theorem Dated.freeze {current : String → Option (String × Int)} {t : Int}
    {reason : Option SubmissionReason} {events : List AttemptInterruptionEvent} (h : Dated clock db)
    (hep : EpisodesSound db current) (hle : clock ≤ now) (hf : Freezes db a events)
    (hdated : ∀ e ∈ events, e.occurredAt = t) (ht : t ≤ now)
    (hsaved : ∀ r ∈ a.answers, r.savedAt ≤ t)
    (hint : t = now ∨ (a.status = .disrupted → ∀ u ∈ a.interruptedAt, u ≤ t)) :
    Dated now (db.freeze a t reason events) := by
  have hupdate : Dated now (db.updateAttempt a.id (·.submittedRow t reason)) :=
    h.update (f := (·.submittedRow t reason)) hle hf.found (fun _ => rfl) (fun _ => rfl)
      ((h.rows a.id a hf.found).freeze hle hf.events.active ht hsaved)
  cases hf.events with
  | inProgress hs => exact hupdate.congr rfl rfl (List.append_nil _)
  | @disrupted interruptionId interruptedAt event hs hopen hout =>
    have hevent : event.occurredAt = t := hdated event (List.mem_singleton.mpr rfl)
    refine (hupdate.outcome (e := event) (hevent ▸ ht) hout.outcome ?_).congr rfl rfl rfl
    intro d hd hdet hkey
    have hsince := hopen.detections hep d hd hdet (hout.interruption ▸ hkey)
    rw [hevent]
    rcases hint with rfl | hint
    · exact (h.past d hd).trans hle
    · rw [hsince]
      exact hint hs interruptedAt hopen.interrupted

theorem Dated.settles {current : String → Option (String × Int)} {t : Int} (h : Dated clock db)
    (hep : EpisodesSound db current) (hle : clock ≤ now) (hs : Settles db a t now db') (ht : t ≤ now)
    (hsaved : ∀ r ∈ a.answers, r.savedAt ≤ t)
    (hint : t = now ∨ (a.status = .disrupted → ∀ u ∈ a.interruptedAt, u ≤ t)) : Dated now db' := by
  cases hs with
  | held hf hdated _ => exact h.freeze hep hle hf hdated ht hsaved hint
  | closed hf hdated _ hc =>
    exact (h.freeze hep hle hf hdated ht hsaved hint).close (le_refl _) hc.found hc.submitted

/-- The attempt that the transaction reconciles was interrupted no later than
the deadline it missed. -/
def InTimeFor (target : Option String) (db : Db) (now : Int) : Prop :=
  ∀ a d, target = some a.id → ExpiredAt db a d now → db.findAttempt a.id = some a →
    a.status = .disrupted → ∀ u ∈ a.interruptedAt, u ≤ d

theorem Dated.move {current : String → Option (String × Int)} {target : Option String}
    (h : Dated clock db) (hep : EpisodesSound db current) (hle : clock ≤ now)
    (hm : Move now target db db') (hintime : InTimeFor target db now) :
    Dated now db' := by
  cases hm with
  | stay => exact h.later hle
  | create hc hnow _ _ => exact h.created hle hc hnow
  | @touch a ha hs =>
    have hl := (h.rows a.id a ha).later hle (.inl rfl)
    exact h.update (f := (·.touch now)) hle ha (fun _ => rfl) (fun _ => rfl)
      ⟨hl.started, hl.saved, hl.submitted, hl.graded, hl.held, hl.flight, hl.intime⟩
  | @save c a question record receipt hw hnow hdeadline =>
    have hid : a.id = c.context.attemptId := Db.findAttempt_id hw.found
    have hm := hw.acceptance.isMutable
    have hl := (h.rows _ a hw.found).later hle (.inl rfl)
    have hflight := hl.flight hm.not_submitted hm.not_graded
    have hrecord : record.savedAt = now := hw.acceptance.record_savedAt.trans hnow
    have hanswers : ∀ r ∈ applyAcceptedResult a.answers record c.request, r = record ∨
        r ∈ a.answers := by
      intro r hr
      exact ((mem_applyAcceptedResult hw.acceptance.record_question).mp hr).imp id And.left
    refine (h.update
        (f := (·.recordSave (applyAcceptedResult a.answers record c.request) c.context.checkedAt)) hle
      (hid ▸ hw.found) (fun _ => rfl) (fun _ => rfl) ⟨hl.started, ?_, ?_, hl.graded, hl.held,
        hl.flight, ?_⟩).congr
      rfl (by rw [hid]; rfl) rfl
    · intro r hr
      rcases hanswers r hr with rfl | hr
      · exact hrecord.le
      · exact hl.saved r hr
    · intro t ht
      change a.submittedAt = some t at ht
      rw [hflight.1] at ht
      cases ht
    · intro hs hg d hd r hr
      rcases hanswers r hr with rfl | hr
      · have heffective : c.context.effectiveDeadline = some d :=
          Except.ok.inj (hdeadline.symm.trans hd)
        by_contra hlt
        refine hm.not_expired ⟨d, heffective, ?_⟩
        change d ≤ c.context.checkedAt
        omega
      · exact hl.intime hs hg d hd r hr
  | @detect a freshId heartbeatTimeoutSeconds policy ha hs hfresh _ =>
    have hl := (h.rows a.id a ha).later hle (.inl rfl)
    have hupdate : Dated now (db.updateAttempt a.id (·.markDisrupted freshId now)) :=
      h.update (f := (·.markDisrupted freshId now)) hle ha (fun _ => rfl) (fun _ => rfl)
        ⟨hl.started, hl.saved, hl.submitted, hl.graded, fun hs => (by cases hs),
          fun _ _ => hl.flight (by rw [hs]; decide) (by rw [hs]; decide),
          fun _ _ => hl.intime (by rw [hs]; decide) (by rw [hs]; decide)⟩
    refine (hupdate.detected (e := detectedEvent a freshId now heartbeatTimeoutSeconds policy) rfl
        rfl ?_ ?_).congr rfl rfl rfl
    · exact ⟨_, Db.findAttempt_updateAttempt_self (f := (·.markDisrupted freshId now)) db a.id
          (fun _ => rfl) ha⟩
    · intro o ho hkey
      obtain ⟨i, hi, hio⟩ := hep.known ho
      exact hfresh i hi (hio.trans hkey)
  | @settle a t _ hs ht =>
    rcases ht with rfl | ⟨htarget, hexp⟩
    · exact h.settles hep hle hs (le_refl _)
        (fun r hr => ((h.rows a.id a hs.found).saved r hr).trans hle) (.inl rfl)
    · refine h.settles hep hle hs hexp.due ?_ (.inr (hintime a t htarget hexp hs.found))
      refine (h.rows a.id a hs.found).intime ?_ ?_ t hexp.deadline <;>
        rcases hexp.active with hact | hact <;> rw [hact] <;> decide
  | @restore a interruptionId interruptedAt event ha hs hopen hout hdated =>
    have hl := (h.rows a.id a ha).later hle (.inl rfl)
    have hupdate : Dated now (db.updateAttempt a.id (·.restore now)) :=
      h.update (f := (·.restore now)) hle ha (fun _ => rfl) (fun _ => rfl)
        ⟨hl.started, hl.saved, hl.submitted, hl.graded, fun hs => (by cases hs),
          fun _ _ => hl.flight (by rw [hs]; decide) (by rw [hs]; decide),
          fun _ _ => hl.intime (by rw [hs]; decide) (by rw [hs]; decide)⟩
    refine (hupdate.outcome (e := event) hdated.le hout.outcome ?_).congr rfl rfl rfl
    intro d hd _ _
    rw [hdated]
    exact (h.past d hd).trans hle
  | extend hadd => exact h.adjust hle hadd
  | score hs => exact (h.later hle).congr rfl rfl rfl
  | @scoreLast a entry score comment graderId aggregated hs hc =>
    have hscored : Dated now (db.updateEntry a.id entry.questionId
        (·.complete score comment graderId now)) :=
      (h.later hle).congr rfl rfl rfl
    exact hscored.close (le_refl _) hc.found hc.submitted
  | close hc _ => exact h.close hle hc.found hc.submitted

theorem Dated.moves {target : Option String} {due : ExamAttempt → Option Int} (h : Dated clock db)
    (hreach : Reachable db) (hle : clock ≤ now) (hm : Moves now target due db db')
    (hdue : ∀ a u d, target = some a.id → db.findAttempt a.id = some a → a.status = .disrupted →
      a.interruptedAt = some u → computeEffectiveDeadline db.exam.closeAt (due a) = .ok (some d) →
      d ≤ now → u ≤ d) : Dated now db' := by
  obtain ⟨current, hep⟩ := hreach.episodesSound
  rcases hm with ⟨hm, hown⟩ | ⟨a, row, -, hadd, htarget, hafter, hm⟩
  · refine h.move hep hle hm ?_
    intro a d htarget hexp ha hs u hu
    have hdeadline := hexp.deadline
    rw [hown a htarget ha hs] at hdeadline
    exact hdue a u d htarget ha hs hu hdeadline hexp.due
  · obtain ⟨current', hep'⟩ := episodesSound_change now db (db.adjust a row) ⟨current,
      hep⟩ (.adjust hadd.adjusts)
    refine (h.adjust hle hadd).move hep' (le_refl _) hm ?_
    intro x d hx hexp hfound hs u hu
    have hid : x.id = a.id := Option.some.inj (hx.symm.trans htarget)
    rw [hid] at hfound
    obtain rfl : a.extend row.afterDeadline = x :=
      Option.some.inj ((findAttempt_adjust hadd.adjusts.found).symm.trans hfound)
    have hdeadline : computeEffectiveDeadline db.exam.closeAt (some row.afterDeadline) = .ok
      (some d) := hexp.deadline
    rw [hafter] at hdeadline
    exact hdue a u d htarget hadd.adjusts.found hs hu hdeadline hexp.due

/-! ## Runs -/

structure Chronological (db : Db) : Prop where
  detected : ∀ e ∈ db.interruptionEvents, e.eventType = .detected →
    ∃ a start, db.findAttempt e.attemptId = some a ∧ a.startedAt = some start ∧ start ≤ e.occurredAt
  outcome : ∀ e ∈ db.interruptionEvents, ∀ o ∈ db.interruptionEvents, e.eventType = .detected →
    Db.isOutcome o = true → o.interruptionId = e.interruptionId → e.occurredAt ≤ o.occurredAt
  saved : ∀ attemptId a, db.findAttempt attemptId = some a → ∀ t ∈ a.submittedAt, ∀ r ∈ a.answers,
    r.savedAt ≤ t
  graded : ∀ attemptId a, db.findAttempt attemptId = some a →
    ∀ t ∈ a.gradedAt, ∃ s, a.submittedAt = some s ∧ s ≤ t

omit [Host] in
theorem Dated.chronological (h : Dated clock db) : Chronological db :=
  ⟨h.begun, h.ended, fun k a ha t ht => ((h.rows k a ha).submitted t ht).2,
    fun k a ha => (h.rows k a ha).graded⟩

/-- A command that reconciles a disrupted attempt past its effective deadline
finds an interruption that was detected by then. -/
def Request.OnTime (r : Request) (db : Db) : Prop :=
  match r with
  | .sitting c _ => ∀ a ∈ (c.reconciles db).bind db.findAttempt, a.status = .disrupted →
      ∀ d ∈ (computeEffectiveDeadline db.exam.closeAt (c.due db a)).toOption.join, d ≤ c.now →
      ∀ u ∈ a.interruptedAt, u ≤ d
  | _ => True

instance : ∀ (r : Request) (db : Db), Decidable (r.OnTime db)
  | .sitting c _, db => by
    unfold Request.OnTime
    infer_instance
  | .exam _, _ | .cancel _, _ | .archive _, _ | .publishResults _, _ => inferInstanceAs (Decidable True)

theorem Dated.step {r : Request} (hs : Session clock db) (h : Dated clock db)
    (hclock : ∀ t ∈ r.now, clock ≤ t) (htime : r.OnTime db) (hacts : Acts db r db') :
    Dated (r.now.getD clock) db' := by
  cases hacts with
  | @sitting c hc _ hm =>
    refine h.moves hs.reachable (hclock _ rfl) hm ?_
    intro a u d htarget ha hdis hu hdeadline hdue
    have hfound : (c.reconciles db).bind db.findAttempt = some a := by
      rw [htarget]
      exact ha
    refine htime a hfound hdis d ?_ hdue u hu
    rw [hdeadline]
    rfl
  | @exam r exam hr =>
    have hle : clock ≤ r.now.getD clock := by
      cases hn : r.now with
      | none => exact le_refl _
      | some t => exact hclock t hn
    refine ⟨?_, fun e he => (h.past e he).trans hle, h.begun, h.ended⟩
    intro k x hx
    have hne : db.attempts ≠ [] := by
      intro hnil
      have hmem : x ∈ db.attempts := Db.findAttempt_mem hx
      rw [hnil] at hmem
      exact absurd hmem List.not_mem_nil
    exact (h.rows k x hx).later hle (hs.kept hclock hr hne).closeAt

variable [RichContent]

/-- From the draft on, over every run of requests in the order of the clock, the
stored instants are in order, when no command dates a submission back to a
deadline before the interruption that it ends was detected. -/
theorem chronology_kept (db₀ : Db) (h₀ : Initial db₀) (hdraft : db₀.exam.status = .draft)
    (rs : List Request) (clock : Int) (horder : InOrder clock rs)
    (htime : Along Request.step Request.OnTime db₀ rs) :
    Chronological (run Request.step db₀ rs) :=
  (session_run (P := Dated) (fun _ _ _ hle h => h.later hle)
    (fun _ _ _ _ _ hs h hclock ht hx => h.step hs hclock ht (Request.acts hx))
    rs clock db₀ (h₀.session hdraft clock) (h₀.dated clock) horder htime).2.chronological

end

/-! ## A late detection -/

def sampleTimed : Db := sampleStore (sampleCreate .timedWindow (some 1) (some 600000))

theorem sampleTimed_initial : Initial sampleTimed :=
  ⟨rfl, rfl, rfl, rfl, rfl, rfl, rfl, rfl, ⟨rfl, rfl, rfl⟩⟩

/-- An attempt of one minute from 1 s on: it is found without a heartbeat at
`detectedAt`, and the candidate is back at 80 s. -/
def sampleReturn (detectedAt : Int) : List Request :=
  [.exam (.publish sampleBank), .sitting (.start (sampleArrival 1000)) rfl,
    .sitting (.heartbeatScan "attempt" detectedAt 10 "i1") rfl,
    .sitting (.take "attempt" "candidate" 80000) rfl]

/-- Detected at 70 s, after the deadline at 61 s, and terminalized as of the deadline. -/
theorem chronology_broken :
    Initial sampleTimed ∧ sampleTimed.exam.status = .draft ∧ InOrder 0 (sampleReturn 70000) ∧
      ¬ Chronological (run (@Request.step sampleHost sampleContent) sampleTimed
          (sampleReturn 70000)) := by
  refine ⟨sampleTimed_initial, rfl, by simp [InOrder, sampleReturn, Request.now, ExamCommand.now,
      Command.now, sampleArrival], ?_⟩
  have hevents : ∃ e ∈ (run (@Request.step sampleHost sampleContent) sampleTimed
      (sampleReturn 70000)).interruptionEvents,
      ∃ o ∈ (run (@Request.step sampleHost sampleContent) sampleTimed
          (sampleReturn 70000)).interruptionEvents,
        e.eventType = .detected ∧ Db.isOutcome o = true ∧ o.interruptionId = e.interruptionId ∧
        o.occurredAt < e.occurredAt := by
    decide +kernel
  obtain ⟨e, he, o, ho, hdet, hout, hkey, hlt⟩ := hevents
  intro h
  exact absurd (h.outcome e he o ho hdet hout hkey) (not_le.mpr hlt)

/-- Detected at 50 s, and the submission at 61 s ends the interruption. -/
theorem chronology_kept_sample :
    Chronological (run (@Request.step sampleHost sampleContent) sampleTimed (sampleReturn 50000)) ∧
      (run (@Request.step sampleHost sampleContent) sampleTimed
          (sampleReturn 50000)).interruptionEvents.map (·.occurredAt) =
        [50000, 61000] :=
  ⟨@chronology_kept sampleHost sampleContent sampleTimed sampleTimed_initial rfl (sampleReturn 50000) 0
    (by simp [InOrder, sampleReturn, Request.now, ExamCommand.now, Command.now, sampleArrival])
      (by decide +kernel),
    by decide +kernel⟩

end ExamSystem
