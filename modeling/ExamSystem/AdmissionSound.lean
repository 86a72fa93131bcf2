import ExamSystem.Admissions
import ExamSystem.Ranks
import Mathlib.Data.Prod.Lex
import Mathlib.Data.String.Basic

/-!
# The capacity of the waiting room

The ordinal of a membership is its rank among the keys `(joinedAt, id)`, and a
membership is admitted when the batch of its ordinal is released. As long as no
later join pushes an admitted membership over the end of its released batches,
the admitted memberships fit into what is released.
-/

namespace ExamSystem.Admission

open Tx

/-! ## The schedule -/

theorem earliest_ne_none : ∀ {ts : List Int}, ts ≠ [] → earliest ts ≠ none
  | t :: ts, _ => by
    simp only [earliest]
    split <;> simp

theorem earliest_spec : ∀ {ts : List Int} {u : Int}, earliest ts = some u → u ∈ ts ∧ ∀ t ∈ ts, u ≤ t
  | t :: ts, u, h => by
    simp only [earliest] at h
    cases hts : earliest ts with
    | none =>
      have hempty : ts = [] := by
        by_contra hne
        exact earliest_ne_none hne hts
      rw [hts] at h
      cases h
      simp [hempty]
    | some v =>
      obtain ⟨hv, hle⟩ := earliest_spec hts
      rw [hts] at h
      simp only [Option.some.injEq] at h
      by_cases hvt : v < t
      · rw [if_pos hvt] at h
        subst h
        refine ⟨List.mem_cons_of_mem t hv, ?_⟩
        intro t' ht'
        rcases List.mem_cons.mp ht' with rfl | ht'
        · omega
        · exact hle t' ht'
      · rw [if_neg hvt] at h
        subst h
        refine ⟨by simp, ?_⟩
        intro t' ht'
        rcases List.mem_cons.mp ht' with rfl | ht'
        · omega
        · have := hle t' ht'
          omega

theorem earliest_concat {ts : List Int} {u v : Int} (hu : u ∈ ts) (huv : u ≤ v) :
    earliest (ts ++ [v]) = earliest ts := by
  cases hts : earliest ts with
  | none => exact absurd hts (earliest_ne_none (List.ne_nil_of_mem hu))
  | some w =>
    obtain ⟨hw, hmin⟩ := earliest_spec hts
    cases hall : earliest (ts ++ [v]) with
    | none => exact absurd hall (earliest_ne_none (by simp))
    | some x =>
      obtain ⟨hx, hxmin⟩ := earliest_spec hall
      have hxw := hxmin w (by simp [hw])
      have hwx : w ≤ x := by
        rcases List.mem_append.mp hx with hx | hx
        · exact hmin x hx
        · have hwu := hmin u hu
          simp only [List.mem_singleton] at hx
          omega
      rw [Int.le_antisymm hxw hwx]

def scheduleKey (r : ExamAdmissionRecord) : Int ×ₗ String := toLex (r.joinedAt, r.id)

theorem isAhead_iff (joinedAt : Int) (id : String) (r : ExamAdmissionRecord) :
    isAhead joinedAt id r = decide (scheduleKey r < toLex (joinedAt, id)) := by
  simp [isAhead, scheduleKey, Prod.Lex.toLex_lt_toLex]

section
variable (organizationId examId : String)

def membersOf (t : Admissions) : List ExamAdmissionRecord :=
  t.rows.filter (ofExam organizationId examId)

def schedule (t : Admissions) : List (Int ×ₗ String) :=
  (membersOf organizationId examId t).map scheduleKey

theorem earliestJoinedAt_schedule (t : Admissions) :
    earliestJoinedAt t organizationId examId = earliest
      ((schedule organizationId examId t).map fun k => (ofLex k).1) := by
  simp [earliestJoinedAt, schedule, membersOf, scheduleKey, Function.comp_def]

theorem countAllAhead_members (t : Admissions) (r : ExamAdmissionRecord) :
    countAllAhead t organizationId examId r.joinedAt r.id = Ranks.ahead scheduleKey
      (membersOf organizationId examId t) (scheduleKey r) := by
  simp only [countAllAhead, Ranks.ahead, membersOf, List.countP_filter, isAhead_iff]
  apply List.countP_congr
  intro x _
  rw [Bool.and_comm]
  rfl

theorem countAllAhead_schedule (t : Admissions) (r : ExamAdmissionRecord) :
    countAllAhead t organizationId examId r.joinedAt r.id = Ranks.ahead id
      (schedule organizationId examId t) (scheduleKey r) := by
  rw [countAllAhead_members, Ranks.ahead, Ranks.ahead, schedule, List.countP_map]
  rfl

theorem schedule_nodup (t : Admissions) :
    ((membersOf organizationId examId t).map scheduleKey).Nodup := by
  have hids : ((membersOf organizationId examId t).map (·.id)).Nodup := t.filter_nodup _
  have hmap : (membersOf organizationId examId t).map (·.id) =
      ((membersOf organizationId examId t).map scheduleKey).map fun k => (ofLex k).2 := by
    simp [scheduleKey, Function.comp_def]
  rw [hmap] at hids
  exact List.Nodup.of_map _ hids

/-- An update of the admission or the consumption leaves the schedule. -/
theorem schedule_update (t : Admissions) (p : ExamAdmissionRecord → Bool)
    {f : ExamAdmissionRecord → ExamAdmissionRecord} (hf : ∀ r, (f r).id = r.id)
    (hexam : ∀ r, ofExam organizationId examId (f r) = ofExam organizationId examId r)
    (hkey : ∀ r, scheduleKey (f r) = scheduleKey r) :
    schedule organizationId examId (t.update p f hf) = schedule organizationId examId t := by
  simp only [schedule, membersOf, Table.update]
  induction t.rows with
  | nil => rfl
  | cons r rows ih =>
    have hexam' : ofExam organizationId examId (if p r = true then f r else r) =
        ofExam organizationId examId r := by
      split
      · exact hexam r
      · rfl
    have hkey' : scheduleKey (if p r = true then f r else r) = scheduleKey r := by
      split
      · exact hkey r
      · rfl
    simp only [List.map_cons, List.filter_cons, hexam']
    split
    · simp only [List.map_cons, hkey', ih]
    · exact ih

end

/-! ## What an operation does -/

def consumed (t : Admissions) (organizationId examId candidateId : String) (consumedAt : Int)
    (attemptId : String) : Admissions :=
  t.update (activeOf organizationId examId candidateId) (·.consume consumedAt attemptId)
    (consume_id consumedAt attemptId)

section
variable (organizationId : String) (exam : Exam)

def Eligible (t : Admissions) (r : ExamAdmissionRecord) (now : Int) : Prop :=
  computeBatchNumber (scheduleOrdinal organizationId exam t r) exam.controlFlags.batchSize ≤
    (released organizationId exam t now).releasedBatches

inductive Moves (t : Admissions) : AdmissionOp → Admissions → Prop
  | stay {op : AdmissionOp} : Moves t op t
  | join {candidateId : String} {now : Int} {ids : List String} {id : String}
      (hnone : findActive t organizationId exam.id candidateId = none)
      (hid : ids.find? (fun id => (t.get id).isNone) = some id) :
      Moves t (.join candidateId now ids)
        (t.put (newMembership organizationId exam.id candidateId now id))
  | admission {candidateId : String} {now : Int} {r : ExamAdmissionRecord}
      (hr : findActive t organizationId exam.id candidateId = some r) (hw : r.admittedAt = none)
      (he : Eligible organizationId exam t r now) :
      Moves t (.reconcile candidateId now) (admitOnce t r.id now).2
  | consume {candidateId attemptId : String} {consumedAt : Int}
      (hadmitted : ∀ r ∈ t.rows, activeOf organizationId exam.id candidateId r = true →
        r.admittedAt.isSome) :
      Moves t (.consume candidateId consumedAt attemptId)
        (consumed t organizationId exam.id candidateId consumedAt attemptId)

variable {organizationId exam}

theorem joinActive_ok {t t' : Admissions} {examId candidateId : String} {joinedAt : Int}
    {row : ExamAdmissionRecord} :
    ∀ {ids : List String}, joinActive t organizationId examId candidateId joinedAt ids = .ok (row, t') →
      (findActive t organizationId examId candidateId = some row ∧ t' = t) ∨
      ∃ id, findActive t organizationId examId candidateId = none ∧
        ids.find? (fun id => (t.get id).isNone) = some id ∧
        row = newMembership organizationId examId candidateId joinedAt id ∧ t' = t.put row
  | id :: ids, h => by
    simp only [joinActive] at h
    cases hactive : findActive t organizationId examId candidateId with
    | some existing =>
      rw [hactive] at h
      cases h
      exact .inl ⟨rfl, rfl⟩
    | none =>
      rw [hactive] at h
      by_cases htaken : (t.get id).isSome
      · simp only [htaken, if_true] at h
        have hnot : (t.get id).isNone = false := by simpa using htaken
        simp only [List.find?_cons, hnot]
        exact (joinActive_ok h).imp (fun hj => ⟨hactive ▸ hj.1, hj.2⟩) fun ⟨i, hj⟩ => ⟨i, trivial, hj.2⟩
      · simp only [htaken, Bool.false_eq_true, if_false] at h
        cases h
        have hfree : (t.get id).isNone = true := by simpa using htaken
        exact .inr ⟨id, rfl, by simp only [List.find?_cons, hfree], rfl, rfl⟩

theorem reconcileAdmission_moves (t : Admissions) (candidateId : String) (now : Int) :
    Moves organizationId exam t (.reconcile candidateId now)
      (reconcileAdmission organizationId exam t candidateId now).2 := by
  unfold reconcileAdmission
  cases hactive : findActive t organizationId exam.id candidateId with
  | none => exact .stay
  | some active =>
    by_cases hadmitted : active.admittedAt.isSome
    · simp only [hadmitted, if_true]
      exact .stay
    · simp only [hadmitted, Bool.false_eq_true, if_false]
      by_cases hlate : (released organizationId exam t now).releasedBatches <
          computeBatchNumber (scheduleOrdinal organizationId exam t active) exam.controlFlags.batchSize
      · simp only [hlate, if_true]
        exact .stay
      · simp only [hlate, if_false]
        exact .admission hactive (by simpa using hadmitted) (not_lt.mp hlate)

/-- A reconcile admits a waiting membership exactly when its batch is released. -/
theorem reconcileAdmission_admits {t : Admissions} {candidateId : String} {now : Int}
    {r : ExamAdmissionRecord} (hr : findActive t organizationId exam.id candidateId = some r)
    (hw : r.admittedAt = none) :
    (∃ r', (reconcileAdmission organizationId exam t candidateId now).1 = some r' ∧
      r'.admittedAt.isSome) ↔ Eligible organizationId exam t r now := by
  unfold reconcileAdmission Eligible
  rw [hr]
  simp only [hw, Option.isSome_none, Bool.false_eq_true, if_false]
  by_cases hlate : (released organizationId exam t now).releasedBatches <
      computeBatchNumber (scheduleOrdinal organizationId exam t r) exam.controlFlags.batchSize
  · simp only [hlate, if_true, not_le.mpr hlate, iff_false]
    rintro ⟨r', hr', hadmitted⟩
    cases hr'
    rw [hw] at hadmitted
    cases hadmitted
  · simp only [hlate, if_false, not_lt.mp hlate, iff_true]
    -- the row that is found is the one that the update admits
    have hhit : t.rows.find? (fun x => decide (x.id = r.id ∧ x.admittedAt = none)) = some r := by
      apply Table.find_unique (k := r.id) (Table.find_eq_some hr).1 (by simp [hw])
      intro id x hx hp
      rw [← Table.key_get hx]
      simpa using (of_decide_eq_true hp).1
    refine ⟨r.withAdmittedAt now, ?_, rfl⟩
    simp only [admitOnce, hhit]
    rfl

theorem AdmissionOp.step_moves {op : AdmissionOp} {t t' : Admissions} {u : Unit}
    (h : op.step organizationId exam t = .ok (u, t')) :
    Moves organizationId exam t op t' := by
  cases op with
  | join candidateId now ids =>
    simp only [AdmissionOp.step, bind_eq_ok, pure_eq_ok] at h
    obtain ⟨⟨row, t₁⟩, hjoin, hpure⟩ := h
    cases hpure
    rcases joinActive_ok hjoin with ⟨-, rfl⟩ | ⟨id, hnone, hid, rfl, rfl⟩
    · exact .stay
    · exact .join hnone hid
  | reconcile candidateId now =>
    cases h
    exact reconcileAdmission_moves t candidateId now
  | consume candidateId consumedAt attemptId =>
    simp only [AdmissionOp.step, consumeActive, bind_eq_ok, pure_eq_ok, require_eq_ok] at h
    obtain ⟨⟨row, t₁⟩, ⟨-, hadmitted, hpure⟩, hpure'⟩ := h
    cases hpure
    cases hpure'
    exact .consume hadmitted

/-! ## What an operation keeps of the schedule -/

theorem schedule_admitOnce (t : Admissions) (organizationId examId id : String) (admittedAt : Int) :
    schedule organizationId examId (admitOnce t id admittedAt).2 = schedule organizationId examId t :=
  schedule_update _ _ t _ (f := (·.withAdmittedAt admittedAt)) (fun _ => rfl)
    (fun _ => rfl) fun _ => rfl

theorem schedule_consumed (t : Admissions) (organizationId examId candidateId attemptId : String)
    (consumedAt : Int) :
    schedule organizationId examId
      (consumed t organizationId examId candidateId consumedAt attemptId) = schedule organizationId
      examId t :=
  schedule_update _ _ t _ (f := (·.consume consumedAt attemptId)) (fun _ => rfl)
    (fun _ => rfl) fun _ => rfl

theorem schedule_put {t : Admissions} {organizationId examId candidateId id : String}
    {joinedAt : Int} (h : t.get id = none) :
    schedule organizationId examId
      (t.put (newMembership organizationId examId candidateId joinedAt id)) =
      schedule organizationId examId t ++ [toLex (joinedAt, id)] := by
  have hrows := Table.rows_put_fresh (t := t)
    (r := newMembership organizationId examId candidateId joinedAt id) h
  simp only [schedule, membersOf, hrows]
  simp [ofExam, newMembership, scheduleKey]

theorem eligible_congr {s t : Admissions}
    (h : schedule organizationId exam.id t = schedule organizationId exam.id s)
    {r r' : ExamAdmissionRecord} (hr : scheduleKey r' = scheduleKey r) (now : Int) :
    Eligible organizationId exam t r' now ↔ Eligible organizationId exam s r now := by
  unfold Eligible scheduleOrdinal released
  rw [countAllAhead_schedule, countAllAhead_schedule, earliestJoinedAt_schedule,
    earliestJoinedAt_schedule, h, hr]

theorem released_put {t : Admissions} {candidateId id : String} {joinedAt : Int}
    (h : t.get id = none) {r : ExamAdmissionRecord} (hr : r ∈ membersOf organizationId exam.id t)
    (hle : r.joinedAt ≤ joinedAt) (now : Int) :
    released organizationId exam
      (t.put (newMembership organizationId exam.id candidateId joinedAt id)) now =
      released organizationId exam t now := by
  have hmem : r.joinedAt ∈ (schedule organizationId exam.id t).map fun k => (ofLex k).1 :=
    List.mem_map.mpr ⟨scheduleKey r, List.mem_map.mpr ⟨r, hr, rfl⟩, rfl⟩
  unfold released
  rw [earliestJoinedAt_schedule, earliestJoinedAt_schedule, schedule_put h, List.map_append]
  exact congrArg (computeBatchRelease · _ _ _) (earliest_concat hmem hle)

/-- A join moves the ordinals behind its key by one, and no others. -/
theorem scheduleOrdinal_put {t : Admissions} {candidateId newId : String} {joinedAt : Int}
    (h : t.get newId = none) (r : ExamAdmissionRecord) :
    scheduleOrdinal organizationId exam
      (t.put (newMembership organizationId exam.id candidateId joinedAt newId)) r =
      scheduleOrdinal organizationId exam t r + if toLex (joinedAt, newId) < scheduleKey r then 1
      else 0 := by
  unfold scheduleOrdinal
  rw [countAllAhead_schedule, countAllAhead_schedule, schedule_put h]
  split
  · rename_i hahead
    rw [Ranks.ahead_concat_ahead id hahead]
    omega
  · rename_i hbehind
    rw [Ranks.ahead_concat_behind id (not_lt.mp hbehind)]
    omega

/-! ## Batches -/

theorem computeBatchNumber_le {ordinal batchSize batches : Int} (hsize : 1 ≤ batchSize) :
    computeBatchNumber ordinal batchSize ≤ batches ↔ ordinal ≤ batches * batchSize := by
  have hneg : -(-ordinal / batchSize) ≤ batches ↔ -batches ≤ -ordinal / batchSize := by omega
  rw [computeBatchNumber, hneg, Int.le_ediv_iff_mul_le (by omega), Int.neg_mul, Int.neg_le_neg_iff]

theorem elapsedSeconds_mono {anchor now now' : Int} (h : now ≤ now') :
    elapsedSeconds anchor now ≤ elapsedSeconds anchor now' := by
  simp only [elapsedSeconds]
  have hdiv : (now - anchor) / 1000 ≤ (now' - anchor) / 1000 := Int.ediv_le_ediv (by decide) (by omega)
  split <;> split <;> omega

theorem released_mono {t : Admissions} (hinterval : 1 ≤ exam.controlFlags.batchInterval)
    {now now' : Int} (h : now ≤ now') :
    (released organizationId exam t now).releasedBatches ≤
      (released organizationId exam t now').releasedBatches := by
  unfold released computeBatchRelease
  split
  · exact le_refl _
  · rename_i anchor _
    have helapsed : elapsedSeconds anchor now ≤ elapsedSeconds anchor now' := elapsedSeconds_mono h
    have hdiv := Int.ediv_le_ediv (show 0 < exam.controlFlags.batchInterval by omega) helapsed
    simp only
    omega

theorem releasedCount_eq (t : Admissions) (now : Int) :
    (released organizationId exam t now).releasedCount =
      (released organizationId exam t now).releasedBatches * exam.controlFlags.batchSize := by
  unfold released computeBatchRelease
  split <;> simp

theorem releasedBatches_nonneg (t : Admissions) (hinterval : 1 ≤ exam.controlFlags.batchInterval)
    (now : Int) :
    0 ≤ (released organizationId exam t now).releasedBatches := by
  unfold released computeBatchRelease
  split
  · exact le_refl _
  · rename_i anchor _
    have helapsed : 0 ≤ elapsedSeconds anchor now := by
      simp only [elapsedSeconds]
      split <;> omega
    have hdiv := Int.ediv_nonneg helapsed (show 0 ≤ exam.controlFlags.batchInterval by omega)
    simp only
    omega

end

/-! ## Capacity -/

section
variable (organizationId : String) (exam : Exam)

def joinsAs (t : Admissions) (candidateId : String) (ids : List String) : Option String :=
  if (findActive t organizationId exam.id candidateId).isSome then none else ids.find? fun id =>
    (t.get id).isNone

def AdmissionOp.InOrder (op : AdmissionOp) (t : Admissions) : Prop :=
  match op with
  | .join _ now _ => ∀ r ∈ membersOf organizationId exam.id t, r.joinedAt ≤ now
  | _ => True

/-- A join does not push an admitted membership over the end of the batches that
were released when it was admitted. -/
def AdmissionOp.KeepsBatches (op : AdmissionOp) (t : Admissions) : Prop :=
  match op with
  | .join candidateId now ids =>
    ∀ id ∈ joinsAs organizationId exam t candidateId ids, ∀ r ∈ membersOf organizationId exam.id t,
      ∀ admittedAt ∈ r.admittedAt,
      isAhead r.joinedAt r.id (newMembership organizationId exam.id candidateId now id) = true →
      computeBatchNumber (scheduleOrdinal organizationId exam t r + 1) exam.controlFlags.batchSize ≤
        (released organizationId exam t admittedAt).releasedBatches
  | _ => True

instance decidableInOrder :
    ∀ (op : AdmissionOp) (t : Admissions), Decidable (op.InOrder organizationId exam t)
  | .join _ now _, t =>
    inferInstanceAs (Decidable (∀ r ∈ membersOf organizationId exam.id t, r.joinedAt ≤ now))
  | .reconcile _ _, _ => inferInstanceAs (Decidable True)
  | .consume _ _ _, _ => inferInstanceAs (Decidable True)

instance decidableKeepsBatches :
    ∀ (op : AdmissionOp) (t : Admissions), Decidable (op.KeepsBatches organizationId exam t)
  | .join candidateId now ids, t =>
    inferInstanceAs (Decidable (∀ id ∈ joinsAs organizationId exam t candidateId ids,
        ∀ r ∈ membersOf organizationId exam.id t,
      ∀ admittedAt ∈ r.admittedAt, isAhead r.joinedAt r.id
        (newMembership organizationId exam.id candidateId now id) = true →
      computeBatchNumber (scheduleOrdinal organizationId exam t r + 1) exam.controlFlags.batchSize ≤
        (released organizationId exam t admittedAt).releasedBatches))
  | .reconcile _ _, _ => inferInstanceAs (Decidable True)
  | .consume _ _ _, _ => inferInstanceAs (Decidable True)

def admittedBy (now : Int) (r : ExamAdmissionRecord) : Bool := r.admittedAt.any (· ≤ now)

def admittedCount (t : Admissions) (now : Int) : Nat :=
  (membersOf organizationId exam.id t).countP (admittedBy now)

/-- The batch of an admitted membership was released when it was admitted. -/
def AdmittedInBatch (t : Admissions) : Prop :=
  ∀ r ∈ membersOf organizationId exam.id t, ∀ admittedAt ∈ r.admittedAt,
    Eligible organizationId exam t r admittedAt

variable {organizationId exam}

theorem admittedCount_le {t : Admissions} (hsize : 1 ≤ exam.controlFlags.batchSize)
    (hinterval : 1 ≤ exam.controlFlags.batchInterval) (h : AdmittedInBatch organizationId exam t)
    (now : Int) :
    (admittedCount organizationId exam t now : Int) ≤
      (released organizationId exam t now).releasedCount := by
  -- whoever has been admitted has an ordinal within the released count
  have hordinal : ∀ r ∈ membersOf organizationId exam.id t, admittedBy now r = true →
      scheduleOrdinal organizationId exam t r ≤ (released organizationId exam t now).releasedCount := by
    intro r hr hadmitted
    obtain ⟨admittedAt, hat, hle⟩ := (Option.any_eq_true _ _).mp hadmitted
    have hbatch : Eligible organizationId exam t r admittedAt := h r hr admittedAt hat
    rw [releasedCount_eq, ← computeBatchNumber_le hsize]
    exact le_trans hbatch (released_mono hinterval (by simpa using hle))
  have hcount : admittedCount organizationId exam t now ≤
      (released organizationId exam t now).releasedCount.toNat := by
    apply Ranks.countP_le_of_ahead scheduleKey (schedule_nodup organizationId exam.id t)
    intro r hr hadmitted
    have hle := hordinal r hr hadmitted
    rw [← countAllAhead_members]
    simp only [scheduleOrdinal] at hle
    omega
  have hnonneg : 0 ≤ (released organizationId exam t now).releasedCount := by
    rw [releasedCount_eq]
    exact Int.mul_nonneg (releasedBatches_nonneg t hinterval now) (by omega)
  omega

theorem eligible_put {t : Admissions} {candidateId newId : String} {now : Int}
    (hnew : t.get newId = none) {r : ExamAdmissionRecord}
    (hr : r ∈ membersOf organizationId exam.id t) (hle : r.joinedAt ≤ now) {at' : Int}
    (he : Eligible organizationId exam t r at')
    (hkeep : isAhead r.joinedAt r.id (newMembership organizationId exam.id candidateId now newId) =
        true → computeBatchNumber (scheduleOrdinal organizationId exam t r + 1)
        exam.controlFlags.batchSize ≤ (released organizationId exam t at').releasedBatches) :
    Eligible organizationId exam
      (t.put (newMembership organizationId exam.id candidateId now newId)) r at' := by
  unfold Eligible
  rw [released_put hnew hr hle, scheduleOrdinal_put hnew]
  by_cases hahead : toLex (now, newId) < scheduleKey r
  · rw [if_pos hahead]
    apply hkeep
    rw [isAhead_iff]
    exact decide_eq_true hahead
  · rw [if_neg hahead, Int.add_zero]
    exact he

theorem mem_members_put {t : Admissions} {candidateId newId : String} {now : Int}
    (hnew : t.get newId = none) {r : ExamAdmissionRecord}
    (hr : r ∈ membersOf organizationId exam.id
        (t.put (newMembership organizationId exam.id candidateId now newId))) :
    r ∈ membersOf organizationId exam.id t ∨
    r = newMembership organizationId exam.id candidateId now newId := by
  obtain ⟨hmem, hexam⟩ := List.mem_filter.mp hr
  rw [Table.rows_put_fresh (r := newMembership organizationId exam.id candidateId now newId) hnew,
    List.mem_append] at hmem
  rcases hmem with hmem | hmem
  · exact .inl (List.mem_filter.mpr ⟨hmem, hexam⟩)
  · exact .inr (List.mem_singleton.mp hmem)

theorem mem_members_update {t : Admissions} {p : ExamAdmissionRecord → Bool}
    {f : ExamAdmissionRecord → ExamAdmissionRecord} (hf : ∀ r, (f r).id = r.id)
    (hexam : ∀ r, ofExam organizationId exam.id (f r) = ofExam organizationId exam.id r)
    {r' : ExamAdmissionRecord} (hr : r' ∈ membersOf organizationId exam.id (t.update p f hf)) :
    ∃ r ∈ membersOf organizationId exam.id t, r' = if p r = true then f r else r := by
  obtain ⟨hmem, hof⟩ := List.mem_filter.mp hr
  obtain ⟨r, hold, rfl⟩ := List.mem_map.mp hmem
  refine ⟨r, List.mem_filter.mpr ⟨hold, ?_⟩, rfl⟩
  by_cases hp : p r = true
  · rw [if_pos hp, hexam] at hof
    exact hof
  · rw [if_neg hp] at hof
    exact hof

/-- What one operation preserves. -/
theorem Moves.admittedInBatch {t t' : Admissions} {op : AdmissionOp}
    (hm : Moves organizationId exam t op t') (h : AdmittedInBatch organizationId exam t)
    (horder : op.InOrder organizationId exam t) (hkeep : op.KeepsBatches organizationId exam t) :
    AdmittedInBatch organizationId exam t' := by
  intro r' hr' at' hat'
  cases hm with
  | stay => exact h r' hr' at' hat'
  | @join candidateId now ids newId hnone hid =>
    have hnew : t.get newId = none := by simpa using List.find?_some hid
    rcases mem_members_put hnew hr' with hr | rfl
    · refine eligible_put hnew hr (horder r' hr) (h r' hr at' hat') ?_
      apply hkeep newId _ r' hr at' hat'
      simp [joinsAs, hnone, hid]
    · cases hat'
  | @admission candidateId now r hr hw he =>
    have hsame := schedule_admitOnce t organizationId exam.id r.id now
    obtain ⟨x, hx, rfl⟩ := mem_members_update (f := (·.withAdmittedAt now)) (fun _ => rfl)
      (fun _ => rfl) hr'
    by_cases hhit : x.id = r.id ∧ x.admittedAt = none
    · have hget := (Table.find_eq_some hr).1
      have hxget := Table.get_of_mem (List.mem_filter.mp hx).1
      obtain rfl : x = r := Option.some.inj (hxget.symm.trans (hhit.1 ▸ hget))
      rw [if_pos (by simpa using hhit)] at hat' ⊢
      obtain rfl : now = at' := Option.some.inj hat'
      exact (eligible_congr hsame (r := x) rfl now).mpr he
    · rw [if_neg (by simpa using hhit)] at hat' ⊢
      exact (eligible_congr hsame rfl at').mpr (h x hx at' hat')
  | @consume candidateId attemptId consumedAt hadmitted =>
    have hsame := schedule_consumed t organizationId exam.id candidateId attemptId consumedAt
    obtain ⟨x, hx, rfl⟩ := mem_members_update (f := (·.consume consumedAt attemptId)) (fun _ => rfl)
      (fun _ => rfl) hr'
    have hold : x.admittedAt = some at' := by
      split at hat'
      · exact hat'
      · exact hat'
    refine (eligible_congr hsame ?_ at').mpr (h x hx at' hold)
    split <;> rfl

/-- Over every run whose joins come in order and keep the batches of the admitted
memberships, those admitted by an instant are at most those released at it. -/
theorem admission_capacity (organizationId : String) (exam : Exam)
    (hsize : 1 ≤ exam.controlFlags.batchSize) (hinterval : 1 ≤ exam.controlFlags.batchInterval)
    (t₀ : Admissions) (hempty : membersOf organizationId exam.id t₀ = []) (ops : List AdmissionOp)
    (halong : Along (AdmissionOp.step organizationId exam)
        (fun op t => op.InOrder organizationId exam t ∧ op.KeepsBatches organizationId exam t) t₀
        ops) (now : Int) :
    (admittedCount organizationId exam (run (AdmissionOp.step organizationId exam) t₀ ops) now : Int) ≤
      (released organizationId exam (run (AdmissionOp.step organizationId exam) t₀ ops)
          now).releasedCount := by
  apply admittedCount_le hsize hinterval
  refine run_along _ (P := AdmittedInBatch organizationId exam) ?_ ops t₀ ?_ halong
  · intro op t u t' h hg hstep
    exact (AdmissionOp.step_moves hstep).admittedInBatch h hg.1 hg.2
  · intro r hr
    rw [hempty] at hr
    cases hr

end

/-! ## A tie in the waiting room -/

def sampleQueue : Exam :=
  { sampleExam with
    controlFlags := { sampleFlags with requireQueue := true, batchSize := 1, batchInterval := 60 } }

def earlyId : String := "0b6a7f0e-5c35-4c2b-9a30-3d5f2b9c1a77"

def lateId : String := "f3d81c52-7e0a-4b8f-8a6d-90c4e2b7d615"

/-- Two candidates join at one instant, each reconciled before the next one joins. -/
def sampleTie : List AdmissionOp :=
  [.join "first" 0 [lateId], .reconcile "first" 0, .join "second" 0 [earlyId], .reconcile "second" 0]

theorem admission_capacity_exceeded :
    Along (AdmissionOp.step "org" sampleQueue) (AdmissionOp.InOrder "org" sampleQueue) Table.empty
      sampleTie ∧ membersOf "org" sampleQueue.id Table.empty = [] ∧
      1 ≤ sampleQueue.controlFlags.batchSize ∧ 1 ≤ sampleQueue.controlFlags.batchInterval ∧
      ¬ (admittedCount "org" sampleQueue
          (run (AdmissionOp.step "org" sampleQueue) Table.empty sampleTie) 0 : Int) ≤
        (released "org" sampleQueue (run (AdmissionOp.step "org" sampleQueue) Table.empty sampleTie)
            0).releasedCount := by
  decide +kernel

theorem admission_capacity_sample :
    (admittedCount "org" sampleQueue (run (AdmissionOp.step "org" sampleQueue) Table.empty
      [.join "first" 0 [earlyId], .reconcile "first" 0, .join "second" 0 [lateId],
        .reconcile "second" 0]) 0 : Int) ≤
      (released "org" sampleQueue (run (AdmissionOp.step "org" sampleQueue) Table.empty
        [.join "first" 0 [earlyId], .reconcile "first" 0, .join "second" 0 [lateId],
          .reconcile "second" 0]) 0).releasedCount :=
  admission_capacity "org" sampleQueue (by decide) (by decide) Table.empty rfl _ (by decide +kernel) 0

end ExamSystem.Admission
