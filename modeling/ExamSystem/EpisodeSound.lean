import ExamSystem.AttemptRows
import ExamSystem.Episodes

/-!
# Interruption episodes

The status of an attempt, its pointer fields and the append-only event log tell
one story: a disrupted attempt has the one open episode it points at, and no
other attempt has one.
-/

namespace ExamSystem

open Tx Episodes

/-! ## The log of the store -/

def AttemptInterruptionEvent.episode (e : AttemptInterruptionEvent) : Episode String String Int :=
  ⟨e.interruptionId, e.attemptId, e.occurredAt⟩

namespace Db

def episodes (db : Db) : Log String String Int :=
  { opened := (db.interruptionEvents.filter fun e => e.eventType = .detected).map (·.episode)
    resolved := (db.interruptionEvents.filter isOutcome).map (·.interruptionId) }

def detectedOf (db : Db) (interruptionId : String) : List AttemptInterruptionEvent :=
  (db.interruptionEvents.filter fun e => e.eventType = .detected).filter fun e =>
    e.interruptionId = interruptionId

def outcomesOf (db : Db) (interruptionId : String) : List AttemptInterruptionEvent :=
  (db.interruptionEvents.filter isOutcome).filter fun e => e.interruptionId = interruptionId

def OpenEpisode (db : Db) (attemptId interruptionId : String) : Prop :=
  (∃ i ∈ db.interruptions, i.id = interruptionId ∧ i.attemptId = attemptId) ∧
    (db.detectedOf interruptionId).length = 1 ∧ db.outcomesOf interruptionId = []

end Db

/-- The row agrees with the episode `m` it should point at. -/
structure ExamAttempt.Marks (a : ExamAttempt) (m : Option (String × Int)) : Prop where
  status : a.status = .disrupted ↔ m.isSome
  pointer : a.currentInterruptionId = m.map (·.1)
  since : a.interruptedAt = m.map (·.2)

theorem ExamAttempt.Marks.eq_none {a : ExamAttempt} {m : Option (String × Int)} (h : a.Marks m)
    (hs : a.status ≠ .disrupted) : m = none := by
  cases m with
  | none => rfl
  | some p => exact absurd (h.status.mpr rfl) hs

theorem ExamAttempt.Marks.eq_some {a : ExamAttempt} {m : Option (String × Int)} {db : Db}
    {interruptionId : String} {interruptedAt : Int} (h : a.Marks m)
    (hopen : OpenInterruption db a interruptionId interruptedAt) :
    m = some (interruptionId, interruptedAt) := by
  have hp := h.pointer.symm.trans hopen.pointer
  have ht := h.since.symm.trans hopen.interrupted
  cases m with
  | none => cases hp
  | some p =>
    cases hp
    cases ht
    rfl

structure Tracks (db : Db) (current : String → Option (String × Int)) : Prop where
  rows : ∀ attemptId a, db.findAttempt attemptId = some a → a.Marks (current attemptId)
  absent : ∀ attemptId, db.findAttempt attemptId = none → current attemptId = none

structure EpisodesSound (db : Db) (current : String → Option (String × Int)) : Prop where
  log : db.episodes.Sound current
  table : db.interruptions.map (fun i => (i.id, i.attemptId)) = db.episodes.opened.map fun e =>
    (e.key, e.owner)
  tracks : Tracks db current

/-! ## Rows -/

section
variable {db : Db} {current : String → Option (String × Int)} {a : ExamAttempt}
    {f : ExamAttempt → ExamAttempt}

theorem Tracks.update (h : Tracks db current) (hf : ∀ a, (f a).id = a.id)
    (ha : db.findAttempt a.id = some a) {m : Option (String × Int)} (hm : (f a).Marks m) :
    Tracks (db.updateAttempt a.id f) (Function.update current a.id m) := by
  constructor
  · intro attemptId b hb
    rw [Db.findAttempt_updateAttempt db a.id hf] at hb
    by_cases hid : attemptId = a.id
    · subst hid
      rw [if_pos rfl, ha] at hb
      obtain rfl := Option.some.inj hb
      rw [Function.update_self]
      exact hm
    · rw [if_neg hid] at hb
      rw [Function.update_of_ne hid]
      exact h.rows attemptId b hb
  · intro attemptId hb
    rw [Db.findAttempt_updateAttempt db a.id hf] at hb
    by_cases hid : attemptId = a.id
    · subst hid
      rw [if_pos rfl, ha] at hb
      cases hb
    · rw [if_neg hid] at hb
      rw [Function.update_of_ne hid]
      exact h.absent attemptId hb

theorem Tracks.keep (h : Tracks db current) (hf : ∀ a, (f a).id = a.id)
    (ha : db.findAttempt a.id = some a) (hm : ∀ m, a.Marks m → (f a).Marks m) :
    Tracks (db.updateAttempt a.id f) current := by
  have hupdate := h.update hf ha (hm _ (h.rows a.id a ha))
  rw [Function.update_eq_self] at hupdate
  exact hupdate

theorem Tracks.append (h : Tracks db current) (hnone : db.findAttempt a.id = none) (hm : a.Marks none) :
    Tracks { db with attempts := db.attempts ++ [a] } current := by
  constructor
  · intro attemptId b hb
    rw [Db.findAttempt_append hnone] at hb
    by_cases hid : attemptId = a.id
    · subst hid
      rw [if_pos rfl] at hb
      obtain rfl := Option.some.inj hb
      rw [h.absent _ hnone]
      exact hm
    · rw [if_neg hid] at hb
      exact h.rows attemptId b hb
  · intro attemptId hb
    rw [Db.findAttempt_append hnone] at hb
    by_cases hid : attemptId = a.id
    · rw [if_pos hid] at hb
      cases hb
    · rw [if_neg hid] at hb
      exact h.absent attemptId hb

end

/-! ## Changes -/

theorem Initial.episodesSound {db : Db} (h : Initial db) : EpisodesSound db fun _ => none := by
  refine ⟨?_, ?_, ?_, fun _ _ => rfl⟩
  · simp only [Db.episodes, h.interruptionEvents, List.filter_nil, List.map_nil]
    exact Log.sound_nil
  · simp [Db.episodes, h.interruptionEvents, h.interruptions]
  · intro attemptId a ha
    rw [h.findAttempt] at ha
    cases ha

theorem EpisodesSound.mem_table {db : Db} {current : String → Option (String × Int)}
    (h : EpisodesSound db current) {p : Episode String String Int}
    (hp : p ∈ db.episodes.opened) : ∃ i ∈ db.interruptions, i.id = p.key ∧ i.attemptId = p.owner := by
  have hmem : (p.key, p.owner) ∈ db.interruptions.map fun i => (i.id, i.attemptId) :=
    h.table ▸ List.mem_map_of_mem hp
  obtain ⟨i, hi, hip⟩ := List.mem_map.mp hmem
  exact ⟨i, hi, congrArg Prod.fst hip, congrArg Prod.snd hip⟩

theorem EpisodesSound.detect {db : Db} {current : String → Option (String × Int)} {a : ExamAttempt}
    {freshId : String} {now heartbeatTimeoutSeconds : Int} {policy : InterruptionTimePolicy}
    (h : EpisodesSound db current) (ha : db.findAttempt a.id = some a) (hs : a.status = .inProgress)
    (hfresh : ∀ i ∈ db.interruptions, i.id ≠ freshId) :
    EpisodesSound (db.detect a freshId now heartbeatTimeoutSeconds policy)
      (Function.update current a.id (some (freshId, now))) := by
  have hidle : current a.id = none := (h.tracks.rows a.id a ha).eq_none (by simp [hs])
  have hkeys : ∀ e ∈ db.episodes.opened, e.key ≠ freshId := by
    intro e he
    obtain ⟨i, hi, hkey, -⟩ := h.mem_table he
    rw [← hkey]
    exact hfresh i hi
  have hlog : (db.detect a freshId now heartbeatTimeoutSeconds policy).episodes =
      ⟨db.episodes.opened ++ [⟨freshId, a.id, now⟩], db.episodes.resolved⟩ := by
    simp [Db.episodes, Db.detect, Db.updateAttempt, detectedEvent, Db.isOutcome,
      AttemptInterruptionEvent.episode]
  refine ⟨?_, ?_, ?_⟩
  · rw [hlog]
    exact h.log.opens hkeys hidle
  · rw [hlog, List.map_append, ← h.table]
    simp [Db.detect]
  · have hm : (a.markDisrupted freshId now).Marks (some (freshId, now)) :=
      ⟨by simp [ExamAttempt.markDisrupted], rfl, rfl⟩
    have ht := h.tracks.update (f := (·.markDisrupted freshId now)) (fun _ => rfl) ha hm
    exact ⟨ht.rows, ht.absent⟩

/-- An outcome event beside a write that clears the pointer. -/
theorem EpisodesSound.outcome {db : Db} {current : String → Option (String × Int)} {a : ExamAttempt}
    {f : ExamAttempt → ExamAttempt} {event : AttemptInterruptionEvent} {interruptionId : String}
    {interruptedAt : Int} {entries : List AttemptGradingEntry} (h : EpisodesSound db current)
    (hf : ∀ a, (f a).id = a.id) (ha : db.findAttempt a.id = some a) (hm : (f a).Marks none)
    (hopen : OpenInterruption db a interruptionId interruptedAt)
    (hout : OutcomeOf event a interruptionId) :
    EpisodesSound { db.updateAttempt a.id f with
        gradingEntries := entries, interruptionEvents := db.interruptionEvents ++ [event] }
      (Function.update current a.id none) := by
  have hcur : current a.id = some (interruptionId, interruptedAt) :=
    (h.tracks.rows a.id a ha).eq_some hopen
  have hnot : event.eventType ≠ .detected := by
    intro he
    have := hout.outcome
    simp [Db.isOutcome, he] at this
  have hlog : Db.episodes { db.updateAttempt a.id f with
      gradingEntries := entries, interruptionEvents := db.interruptionEvents ++ [event] } =
      ⟨db.episodes.opened, db.episodes.resolved ++ [interruptionId]⟩ := by
    simp [Db.episodes, hnot, hout.outcome, hout.interruption]
  refine ⟨?_, ?_, ?_⟩
  · rw [hlog]
    exact h.log.resolves hcur
  · rw [hlog]
    exact h.table
  · have := h.tracks.update hf ha hm
    exact ⟨this.rows, this.absent⟩

section
variable [Host]

theorem EpisodesSound.freeze {db : Db} {current : String → Option (String × Int)} {a : ExamAttempt}
    {submittedAt : Int} {reason : Option SubmissionReason} {events : List AttemptInterruptionEvent}
    (h : EpisodesSound db current) (hf : Freezes db a events) :
    ∃ current', EpisodesSound (db.freeze a submittedAt reason events) current' := by
  have hm : (a.submittedRow submittedAt reason).Marks none :=
    ⟨by simp [ExamAttempt.submittedRow, ExamAttempt.freeze], rfl, rfl⟩
  cases hf.events with
  | inProgress hs =>
    have hidle : current a.id = none := (h.tracks.rows a.id a hf.found).eq_none (by simp [hs])
    have htracks := h.tracks.update (f := (·.submittedRow submittedAt reason))
      (fun _ => rfl) hf.found hm
    rw [← hidle, Function.update_eq_self] at htracks
    have hlog : (db.freeze a submittedAt reason []).episodes = db.episodes := by
      simp [Db.episodes, Db.freeze, Db.updateAttempt]
    refine ⟨current, ?_, ?_, htracks.rows, htracks.absent⟩
    · rw [hlog]
      exact h.log
    · rw [hlog]
      exact h.table
  | disrupted hs hopen hout =>
    exact ⟨_, h.outcome (f := (·.submittedRow submittedAt reason))
        (fun _ => rfl) hf.found hm hopen hout⟩

theorem EpisodesSound.quiet {now : Int} {db db' : Db} {current : String → Option (String × Int)}
    (h : EpisodesSound db current) (hq : Quiet now db db') :
    ∃ current', EpisodesSound db' current' := by
  cases hq with
  | @save c a question record receipt hw =>
    have hid : a.id = c.context.attemptId := Db.findAttempt_id hw.found
    have ht := h.tracks.keep
      (f := (·.recordSave (applyAcceptedResult a.answers record c.request) c.context.checkedAt))
      (fun _ => rfl) (hid ▸ hw.found) fun m hm => ⟨hm.status, hm.pointer, hm.since⟩
    rw [hid] at ht
    exact ⟨current, h.log, h.table, ht.rows, ht.absent⟩
  | touch ha hs =>
    have ht := h.tracks.keep (f := (·.touch now)) (fun _ => rfl) ha fun m hm => ⟨hm.status,
      hm.pointer, hm.since⟩
    exact ⟨current, h.log, h.table, ht⟩
  | detect ha hs hfresh _ => exact ⟨_, h.detect ha hs hfresh⟩
  | restore ha hs hopen hout =>
    exact ⟨_, h.outcome (f := (·.restore now)) (fun _ => rfl) ha ⟨by simp [ExamAttempt.restore],
        rfl, rfl⟩ hopen hout⟩
  | freeze hf => exact h.freeze hf
  | score _ => exact ⟨current, h.log, h.table, h.tracks.rows, h.tracks.absent⟩
  | @close a aggregated hcl =>
    have ht := h.tracks.keep (f := (·.gradedRow aggregated now)) (fun _ => rfl) hcl.found fun m hm =>
      ⟨by simp [ExamAttempt.gradedRow, ← hm.status, hcl.submitted], hm.pointer, hm.since⟩
    exact ⟨current, h.log, h.table, ht.rows, ht.absent⟩
  | @create a input hcr =>
    obtain ⟨deadlineAt, snapshot, hrow⟩ := hcr.row
    have ht := h.tracks.append hcr.fresh (by rw [hrow]; exact ⟨by simp [newAttempt], rfl, rfl⟩)
    exact ⟨current, h.log, h.table, ht.rows, ht.absent⟩

theorem episodesSound_change (now : Int) (db db' : Db) (h : ∃ current, EpisodesSound db current)
    (hc : Change now db db') : ∃ current, EpisodesSound db' current := by
  obtain ⟨current, h⟩ := h
  cases hc with
  | @adjust a row hadj =>
    have ht := h.tracks.keep (f := (·.extend row.afterDeadline)) (fun _ => rfl) hadj.found fun m hm =>
      ⟨hm.status, hm.pointer, hm.since⟩
    exact ⟨current, h.log, h.table, ht.rows, ht.absent⟩
  | examWrite _ => exact ⟨current, h.log, h.table, h.tracks.rows, h.tracks.absent⟩
  | quiet hq => exact h.quiet hq

theorem Reachable.episodesSound {db : Db} (h : Reachable db) : ∃ current, EpisodesSound db current :=
  h.invariant (fun _ hi => ⟨_, hi.episodesSound⟩) episodesSound_change

end

/-! ## Episodes and rows -/

section
variable {db : Db} {current : String → Option (String × Int)}

theorem EpisodesSound.detected (h : EpisodesSound db current) {i : AttemptInterruption}
    (hi : i ∈ db.interruptions) :
    ∃ e, db.detectedOf i.id = [e] ∧ e.attemptId = i.attemptId ∧ e.episode ∈ db.episodes.opened ∧
      e.interruptionId = i.id := by
  have hmem : (i.id, i.attemptId) ∈ db.episodes.opened.map fun e => (e.key, e.owner) :=
    h.table ▸ List.mem_map_of_mem hi
  obtain ⟨p, hp, hpi⟩ := List.mem_map.mp hmem
  obtain ⟨e, he, rfl⟩ := List.mem_map.mp hp
  have hkey : e.interruptionId = i.id := congrArg Prod.fst hpi
  have howner : e.attemptId = i.attemptId := congrArg Prod.snd hpi
  have hnodup := h.log.keys
  rw [Db.episodes, List.map_map] at hnodup
  refine ⟨e, ?_, howner, hp, hkey⟩
  rw [Db.detectedOf, ← hkey]
  exact Rows.filter_key (·.interruptionId) hnodup he

theorem EpisodesSound.outcomes (h : EpisodesSound db current) (interruptionId : String) :
    (db.outcomesOf interruptionId).length ≤ 1 := by
  have hn : ((db.interruptionEvents.filter Db.isOutcome).map fun e => e.interruptionId).Nodup :=
    h.log.once
  exact Rows.length_filter_key (fun e : AttemptInterruptionEvent => e.interruptionId) hn interruptionId

theorem outcomesOf_eq_nil {interruptionId : String} :
    db.outcomesOf interruptionId = [] ↔ interruptionId ∉ db.episodes.resolved := by
  simp only [Db.outcomesOf, Db.episodes, List.filter_eq_nil_iff, decide_eq_true_eq, List.mem_map,
    not_exists, not_and]

theorem EpisodesSound.known (h : EpisodesSound db current) {e : AttemptInterruptionEvent}
    (he : e ∈ db.interruptionEvents) : ∃ i ∈ db.interruptions, i.id = e.interruptionId := by
  have hopened : ∃ p ∈ db.episodes.opened, p.key = e.interruptionId := by
    cases ht : e.eventType with
    | detected => exact ⟨e.episode, List.mem_map_of_mem (List.mem_filter.mpr ⟨he, by simp [ht]⟩), rfl⟩
    | restored =>
      exact h.log.known _ (List.mem_map_of_mem (List.mem_filter.mpr ⟨he, by simp [Db.isOutcome, ht]⟩))
    | terminalized =>
      exact h.log.known _ (List.mem_map_of_mem (List.mem_filter.mpr ⟨he, by simp [Db.isOutcome, ht]⟩))
  obtain ⟨p, hp, hkey⟩ := hopened
  obtain ⟨i, hi, hid, -⟩ := h.mem_table hp
  exact ⟨i, hi, hid.trans hkey⟩

theorem EpisodesSound.openEpisode_iff (h : EpisodesSound db current)
    {attemptId interruptionId : String} :
    db.OpenEpisode attemptId interruptionId ↔ ∃ t, current attemptId = some (interruptionId, t) := by
  constructor
  · rintro ⟨⟨i, hi, rfl, rfl⟩, -, hout⟩
    obtain ⟨e, -, howner, hopened, hkey⟩ := h.detected hi
    refine ⟨e.occurredAt, (h.log.points _ _ _).mpr ⟨?_, outcomesOf_eq_nil.mp hout⟩⟩
    rw [← hkey, ← howner]
    exact hopened
  · rintro ⟨t, hcur⟩
    obtain ⟨hopened, hres⟩ := (h.log.points _ _ _).mp hcur
    obtain ⟨i, hi, hid, howner⟩ := h.mem_table hopened
    obtain rfl : i.id = interruptionId := hid
    obtain ⟨e, hdet, -⟩ := h.detected hi
    exact ⟨⟨i, hi, rfl, howner⟩, by simp [hdet], outcomesOf_eq_nil.mpr hres⟩

theorem EpisodesSound.detected_at (h : EpisodesSound db current) {attemptId interruptionId : String}
    {t : Int} (hcur : current attemptId = some (interruptionId, t)) :
    ∃ e, db.detectedOf interruptionId = [e] ∧ e.attemptId = attemptId ∧ e.occurredAt = t := by
  obtain ⟨hopened, -⟩ := (h.log.points _ _ _).mp hcur
  obtain ⟨i, hi, hid, howner⟩ := h.mem_table hopened
  obtain rfl : i.id = interruptionId := hid
  obtain ⟨e, hdet, heowner, heopened, hkey⟩ := h.detected hi
  have hep := h.log.opened_unique heopened hopened hkey
  exact ⟨e, hdet, heowner.trans howner, congrArg Episode.since hep⟩

end

/-! ## Runs -/

structure EpisodesOf (db : Db) (a : ExamAttempt) : Prop where
  pointers : a.status = .disrupted ↔ a.currentInterruptionId.isSome ∧ a.interruptedAt.isSome
  open_once : a.status = .disrupted ↔ ∃! interruptionId, db.OpenEpisode a.id interruptionId
  detected_at : ∀ interruptionId, db.OpenEpisode a.id interruptionId →
    a.currentInterruptionId = some interruptionId ∧
      ∃ e, db.detectedOf interruptionId = [e] ∧ e.attemptId = a.id ∧ a.interruptedAt = some e.occurredAt
  episodes : ∀ i ∈ db.interruptions, (db.detectedOf i.id).length = 1 ∧ (db.outcomesOf i.id).length ≤ 1
  known : ∀ e ∈ db.interruptionEvents, ∃ i ∈ db.interruptions, i.id = e.interruptionId
  quiet : a.status ≠ .disrupted → ∀ interruptionId, ¬ db.OpenEpisode a.id interruptionId

theorem EpisodesSound.attempt {db : Db} {current : String → Option (String × Int)} {a : ExamAttempt}
    (h : EpisodesSound db current) (ha : db.findAttempt a.id = some a) : EpisodesOf db a := by
  have hm := h.tracks.rows a.id a ha
  have hopen : ∀ interruptionId, db.OpenEpisode a.id interruptionId →
      ∃ t, current a.id = some (interruptionId, t) :=
    fun _ => h.openEpisode_iff.mp
  refine ⟨?_, ?_, ?_, ?_, fun e he => h.known he, ?_⟩
  · rw [hm.status, hm.pointer, hm.since]
    simp
  · rw [hm.status]
    constructor
    · intro hsome
      obtain ⟨⟨i, t⟩, hcur⟩ := Option.isSome_iff_exists.mp hsome
      refine ⟨i, h.openEpisode_iff.mpr ⟨t, hcur⟩, fun j hj => ?_⟩
      obtain ⟨t', hcur'⟩ := hopen j hj
      rw [hcur] at hcur'
      cases hcur'
      rfl
    · rintro ⟨i, hi, -⟩
      obtain ⟨t, hcur⟩ := hopen i hi
      rw [hcur]
      rfl
  · intro i hi
    obtain ⟨t, hcur⟩ := hopen i hi
    obtain ⟨e, hdet, howner, rfl⟩ := h.detected_at hcur
    refine ⟨?_, e, hdet, howner, ?_⟩
    · rw [hm.pointer, hcur]
      rfl
    · rw [hm.since, hcur]
      rfl
  · intro i hi
    obtain ⟨e, hdet, -⟩ := h.detected hi
    exact ⟨by rw [hdet]; rfl, h.outcomes i.id⟩
  · intro hs i hi
    obtain ⟨t, hcur⟩ := hopen i hi
    rw [hm.eq_none hs] at hcur
    cases hcur

/-- Over every run from the assignment on, an attempt is disrupted exactly when
its pointer and its instant are set, and exactly when it has one open episode,
detected at that instant; every episode has one detected event and at most one
outcome, and an attempt that is not disrupted has none open. -/
theorem episodes_sound [Host] (db₀ : Db) (h₀ : Initial db₀) (cs : List Command) (attemptId : String)
    (a : ExamAttempt) (ha : (run Command.step db₀ cs).findAttempt attemptId = some a) :
    EpisodesOf (run Command.step db₀ cs) a := by
  obtain ⟨current, h⟩ := (reachable_run h₀.reachable cs).episodesSound
  have hid : a.id = attemptId := Db.findAttempt_id ha
  exact h.attempt (hid ▸ ha)

def sampleDisruption : List Command := [sampleStart, .heartbeatScan "attempt" 20000 10 "i1"]

theorem episodes_sound_sample :
    ∃! interruptionId, (run (@Command.step sampleHost) sampleInitial sampleDisruption).OpenEpisode
      "attempt" interruptionId := by
  let _ : Host := sampleHost
  have hrow : ((run Command.step sampleInitial sampleDisruption).findAttempt "attempt").map
      (·.status) = some .disrupted := by
    decide +kernel
  obtain ⟨a, ha, hs⟩ := Option.map_eq_some_iff.mp hrow
  have h := episodes_sound sampleInitial sampleInitial_initial sampleDisruption "attempt" a ha
  rw [← show a.id = "attempt" from Db.findAttempt_id ha]
  exact h.open_once.mp hs

end ExamSystem
