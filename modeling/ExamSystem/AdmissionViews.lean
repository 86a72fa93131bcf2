import ExamSystem.OrderedMaps
import ExamSystem.QueueView

/-!
# The waiting room as the operator sees it

The operator's list is derived from the rows alone, with positions by a sort.
It agrees with what every candidate is shown, and what a candidate is shown only
improves.
-/

namespace ExamSystem.Admission

open Tx

/-! ## The operator's list -/

/-- `ORDER BY joined_at, id`. -/
def listByExam (t : Admissions) (organizationId examId : String) : List ExamAdmissionRecord :=
  (t.rows.filter (ofExam organizationId examId)).mergeSort fun a b => a.joinedAt < b.joinedAt ∨
    (a.joinedAt = b.joinedAt ∧ a.id ≤ b.id)

structure AdmissionViewItem where
  candidateId : String
  state : AdmissionState
  position : Option Int
  joinedAt : Int
  admittedAt : Option Int
  consumedAt : Option Int
  consumedAttemptId : Option String
  deriving DecidableEq, Repr

def goesBefore (a b : ExamAdmissionRecord) : Bool :=
  if a.joinedAt ≠ b.joinedAt then a.joinedAt - b.joinedAt < 0 else a.id < b.id

def activeInOrder (records : List ExamAdmissionRecord) : List ExamAdmissionRecord :=
  (records.filter (·.consumedAt.isNone)).mergeSort fun a b => !goesBefore b a

def positionOf (records : List ExamAdmissionRecord) : OrderedMap String Int :=
  OrderedMap.setAll Table.empty ((activeInOrder records).zipIdx.map fun e => (e.1.id, (e.2 : Int) + 1))

def deriveAdmissionViews (records : List ExamAdmissionRecord) : List AdmissionViewItem :=
  records.map fun r =>
    { candidateId := r.candidateId
      state := deriveAdmissionState r
      position := (positionOf records).lookup r.id
      joinedAt := r.joinedAt
      admittedAt := r.admittedAt
      consumedAt := r.consumedAt
      consumedAttemptId := r.consumedAttemptId }

/-! ## Positions -/

theorem goesBefore_iff (a b : ExamAdmissionRecord) :
    goesBefore a b = decide (scheduleKey a < scheduleKey b) := by
  rw [scheduleKey, scheduleKey, Bool.eq_iff_iff, decide_eq_true_eq, Prod.Lex.toLex_lt_toLex]
  unfold goesBefore
  by_cases hne : a.joinedAt ≠ b.joinedAt
  · rw [if_pos hne, decide_eq_true_eq]
    omega
  · rw [if_neg hne, decide_eq_true_eq]
    simp [not_not.mp hne]

section
variable {records : List ExamAdmissionRecord}

theorem scheduleKeys_nodup (hn : (records.map (·.id)).Nodup) : (records.map scheduleKey).Nodup := by
  have hids : (records.map (·.id)) = (records.map scheduleKey).map fun k => (ofLex k).2 := by
    simp [scheduleKey, Function.comp_def]
  rw [hids] at hn
  exact List.Nodup.of_map _ hn

theorem activeInOrder_perm (records : List ExamAdmissionRecord) :
    (activeInOrder records).Perm (records.filter (·.consumedAt.isNone)) := List.mergeSort_perm _ _

theorem activeInOrder_sorted (hn : (records.map (·.id)).Nodup) :
    (activeInOrder records).Pairwise fun a b => scheduleKey a < scheduleKey b := by
  refine Ranks.mergeSort_pairwise scheduleKey (fun a b => ?_)
    (scheduleKeys_nodup ((List.filter_sublist.map _).nodup hn))
  rw [goesBefore_iff, ← decide_not]
  exact decide_eq_decide.mpr not_lt

theorem lookup_positionOf (hn : (records.map (·.id)).Nodup) {r : ExamAdmissionRecord}
    (hr : r ∈ records) :
    (positionOf records).lookup r.id =
      if r.consumedAt = none then
        some ((Ranks.ahead scheduleKey (records.filter (·.consumedAt.isNone))
            (scheduleKey r) : Int) + 1)
      else none := by
  have hkeys : ((activeInOrder records).zipIdx.map fun e => (e.1.id,
      (e.2 : Int) + 1)).map Prod.fst = (activeInOrder records).map (·.id) := by
    have hids := congrArg (List.map fun r : ExamAdmissionRecord => r.id)
      (List.zipIdx_map_fst 0 (activeInOrder records))
    rw [List.map_map] at hids ⊢
    exact hids
  have hperm := activeInOrder_perm records
  split_ifs with hactive
  · have hmem : r ∈ activeInOrder records :=
      hperm.mem_iff.mpr (List.mem_filter.mpr ⟨hr, by simp [hactive]⟩)
    obtain ⟨i, hi, rfl⟩ := List.getElem_of_mem hmem
    have hentry : ((activeInOrder records)[i].id, (i : Int) + 1) ∈
        (activeInOrder records).zipIdx.map fun e => (e.1.id, (e.2 : Int) + 1) :=
      List.mem_map.mpr ⟨((activeInOrder records)[i], i),
        List.mk_mem_zipIdx_iff_getElem?.mpr (List.getElem?_eq_getElem hi), rfl⟩
    have hids : ((activeInOrder records).map (·.id)).Nodup :=
      (hperm.map _).nodup_iff.mpr ((List.filter_sublist.map _).nodup hn)
    have hrank : Ranks.ahead scheduleKey (records.filter (·.consumedAt.isNone))
        (scheduleKey (activeInOrder records)[i]) = i :=
      (hperm.countP_eq _).symm.trans (Ranks.ahead_getElem scheduleKey (activeInOrder_sorted hn) i hi)
    rw [hrank]
    exact OrderedMap.lookup_setAll_of_mem (hkeys ▸ hids) Table.empty hentry
  · refine (OrderedMap.lookup_setAll_of_not_mem Table.empty ?_).trans (OrderedMap.lookup_empty r.id)
    rw [hkeys]
    intro hid
    obtain ⟨r', hr', hsame⟩ := List.mem_map.mp hid
    obtain ⟨hmem, hactive'⟩ := List.mem_filter.mp (hperm.mem_iff.mp hr')
    obtain rfl : r' = r := List.inj_on_of_nodup_map hn hmem hr hsame
    exact hactive (Option.isNone_iff_eq_none.mp hactive')

end

section
variable {organizationId : String} {exam : Exam} {t : Admissions} {records : List ExamAdmissionRecord}

/-- The row of the operator's list, by the position that the candidate is shown. -/
def viewOf (organizationId : String) (exam : Exam) (t : Admissions) (r : ExamAdmissionRecord) :
    AdmissionViewItem :=
  { candidateId := r.candidateId
    state := deriveAdmissionState r
    position := if r.consumedAt = none then some (activePosition organizationId exam t r) else none
    joinedAt := r.joinedAt
    admittedAt := r.admittedAt
    consumedAt := r.consumedAt
    consumedAttemptId := r.consumedAttemptId }

theorem countActiveAhead_members (t : Admissions) (examId : String) (r : ExamAdmissionRecord) :
    countActiveAhead t organizationId examId r.joinedAt r.id =
      Ranks.ahead scheduleKey ((membersOf organizationId examId t).filter (·.consumedAt.isNone))
        (scheduleKey r) := by
  simp only [countActiveAhead, Ranks.ahead, membersOf, List.filter_filter, List.countP_filter,
    isAhead_iff]
  refine List.countP_congr fun x _ => ?_
  simp only [Bool.and_eq_true]
  exact ⟨fun h => ⟨h.2, h.1.2, h.1.1⟩, fun h => ⟨⟨h.2.2, h.2.1⟩, h.1⟩⟩

theorem deriveAdmissionViews_eq (hperm : records.Perm (membersOf organizationId exam.id t)) :
    deriveAdmissionViews records = records.map (viewOf organizationId exam t) := by
  have hn : (records.map (·.id)).Nodup := (hperm.map _).nodup_iff.mpr (t.filter_nodup _)
  refine List.map_congr_left fun r hr => ?_
  have hahead : Ranks.ahead scheduleKey (records.filter (·.consumedAt.isNone)) (scheduleKey r) =
      countActiveAhead t organizationId exam.id r.joinedAt r.id := by
    rw [countActiveAhead_members]
    exact (hperm.filter _).countP_eq _
  rw [lookup_positionOf hn hr, hahead]
  rfl

theorem listByExam_perm (t : Admissions) (organizationId examId : String) :
    (listByExam t organizationId examId).Perm (membersOf organizationId examId t) :=
      List.mergeSort_perm _ _

theorem listByExam_sorted (t : Admissions) (organizationId examId : String) :
    (listByExam t organizationId examId).Pairwise fun a b => scheduleKey a < scheduleKey b := by
  refine Ranks.mergeSort_pairwise scheduleKey (fun a b => ?_) (schedule_nodup organizationId examId t)
  rw [scheduleKey, scheduleKey, decide_eq_decide, Prod.Lex.toLex_le_toLex]

end

/-! ## The operator and the candidates -/

section
variable {organizationId : String} {exam : Exam}

theorem run_wellformed (ops : List AdmissionOp) :
    Wellformed (run (AdmissionOp.step organizationId exam) Table.empty ops) := by
  refine run_invariant _ (fun op t u t' hw hstep => (AdmissionOp.step_moves hstep).wellformed hw)
    ops Table.empty ⟨?_, ?_⟩
  · intro o e c id id' r r' hr
    cases hr
  · intro id r hr
    cases hr

theorem mem_membersOf {t : Admissions} {r : ExamAdmissionRecord} :
    r ∈ membersOf organizationId exam.id t ↔ t.get r.id = some r ∧
    r.organizationId = organizationId ∧ r.examId = exam.id := by
  rw [membersOf, List.mem_filter, Table.mem_rows]
  simp [ofExam]

theorem findActive_member {t : Admissions} (hw : Wellformed t) {r : ExamAdmissionRecord}
    (hr : r ∈ membersOf organizationId exam.id t) (hactive : r.consumedAt = none) :
    findActive t organizationId exam.id r.candidateId = some r := by
  obtain ⟨hget, horg, hexam⟩ := mem_membersOf.mp hr
  have hhit : activeOf organizationId exam.id r.candidateId r = true :=
    activeOf_iff.mpr ⟨⟨horg, hexam⟩, rfl, hactive⟩
  exact Table.find_unique hget hhit fun id x hx hp => hw.active _ _ _ _ _ _ _ hx hget hp hhit

theorem findActive_spec {t : Admissions} {candidateId : String} {m : ExamAdmissionRecord}
    (h : findActive t organizationId exam.id candidateId = some m) :
    m ∈ membersOf organizationId exam.id t ∧ m.candidateId = candidateId ∧ m.consumedAt = none := by
  obtain ⟨hget, hhit⟩ := Table.find_eq_some h
  obtain ⟨⟨horg, hexam⟩, hcandidate, hactive⟩ := activeOf_iff.mp hhit
  exact ⟨mem_membersOf.mpr ⟨hget, horg, hexam⟩, hcandidate, hactive⟩

theorem admitted_iff {r : ExamAdmissionRecord} (hactive : r.consumedAt = none) :
    deriveAdmissionState r = .admitted ↔ r.admittedAt.isSome := by
  cases hadmitted : r.admittedAt <;> simp [deriveAdmissionState, hactive, hadmitted]

theorem positions_in_order (t : Admissions) :
    ((listByExam t organizationId exam.id).map (viewOf organizationId exam t)).filterMap (·.position) =
      (List.range ((membersOf organizationId exam.id t).countP (·.consumedAt.isNone))).map
        fun i : Nat => (i : Int) + 1 := by
  let active := (listByExam t organizationId exam.id).filter (·.consumedAt.isNone)
  have hperm : active.Perm ((membersOf organizationId exam.id t).filter (·.consumedAt.isNone)) :=
    (listByExam_perm t organizationId exam.id).filter _
  have hsorted : active.Pairwise fun a b => scheduleKey a < scheduleKey b :=
    (listByExam_sorted t organizationId exam.id).filter _
  have hposition : ∀ r, activePosition organizationId exam t r = (Ranks.ahead scheduleKey active
      (scheduleKey r) : Int) + 1 := by
    intro r
    rw [activePosition, countActiveAhead_members]
    exact congrArg (fun n : Nat => (n : Int) + 1) (hperm.countP_eq _).symm
  rw [List.filterMap_map]
  calc (listByExam t organizationId exam.id).filterMap ((·.position) ∘ viewOf organizationId exam t)
      = (listByExam t organizationId exam.id).filterMap fun r =>
          if r.consumedAt.isNone = true then some (activePosition organizationId exam t r)
            else none := by
        refine List.filterMap_congr fun r _ => ?_
        simp [viewOf]
    _ = active.map fun r => (Ranks.ahead scheduleKey active (scheduleKey r) : Int) + 1 := by
        rw [← List.filterMap_filter, List.filterMap_eq_map']
        exact List.map_congr_left fun r _ => hposition r
    _ = (List.range active.length).map fun i : Nat => (i : Int) + 1 := by
        rw [← Ranks.ranks_sorted scheduleKey hsorted, List.map_map]
        rfl
    _ = _ := by
        rw [hperm.length_eq, List.countP_eq_length_filter]

end

/-- Over every run of the waiting room, at every instant: the operator's list
gives the active rows the positions 1, 2, 3, … in its order and the others none,
and each of them is what its candidate is shown; it shows every candidate that
has an active row, and from any other source of the rows it is the same list in
another order. -/
theorem operator_view_agrees (organizationId : String) (exam : Exam) (ops : List AdmissionOp)
    (now : Int) :
    let t := run (AdmissionOp.step organizationId exam) Table.empty ops
    let views := deriveAdmissionViews (listByExam t organizationId exam.id)
    (∀ view ∈ views, (view.position = none ↔ view.consumedAt.isSome) ∧ ∀ position ∈ view.position,
      let own := previewAdmissionStatus organizationId exam t view.candidateId now
      own.position = position ∧ own.state = view.state ∧ (own.ready = true ↔ view.admittedAt.isSome)) ∧
    (∀ candidateId, (∃ view ∈ views, view.candidateId = candidateId ∧ view.position.isSome) ↔
      (findActive t organizationId exam.id candidateId).isSome) ∧
    views.filterMap (·.position) =
      (List.range ((membersOf organizationId exam.id t).countP (·.consumedAt.isNone))).map
        (fun i : Nat => (i : Int) + 1) ∧
    ∀ records, records.Perm (listByExam t organizationId exam.id) →
    (deriveAdmissionViews records).Perm views := by
  intro t views
  have hw : Wellformed t := run_wellformed ops
  have hperm := listByExam_perm t organizationId exam.id
  have hviews : views = (listByExam t organizationId exam.id).map (viewOf organizationId exam t) :=
    deriveAdmissionViews_eq hperm
  refine ⟨fun view hview => ?_, fun candidateId => ⟨?_, fun hsome => ?_⟩,
    hviews ▸ positions_in_order t, fun records hrecords => ?_⟩
  · rw [hviews] at hview
    obtain ⟨r, hr, rfl⟩ := List.mem_map.mp hview
    cases hactive : r.consumedAt with
    | some consumedAt => simp [viewOf, hactive]
    | none =>
      have hfound := findActive_member hw (hperm.mem_iff.mp hr) hactive
      refine ⟨by simp [viewOf, hactive], fun position hposition => ?_⟩
      have hown : position = activePosition organizationId exam t r := by
        simpa [viewOf, hactive] using hposition.symm
      subst hown
      simp only [viewOf, previewAdmissionStatus, hfound, decide_eq_true_eq]
      exact ⟨trivial, trivial, admitted_iff hactive⟩
  · rintro ⟨view, hview, rfl, hposition⟩
    rw [hviews] at hview
    obtain ⟨r, hr, rfl⟩ := List.mem_map.mp hview
    have hactive : r.consumedAt = none := by
      by_contra hne
      simp [viewOf, hne] at hposition
    exact Option.isSome_iff_exists.mpr ⟨r, findActive_member hw (hperm.mem_iff.mp hr) hactive⟩
  · obtain ⟨m, hm⟩ := Option.isSome_iff_exists.mp hsome
    obtain ⟨hmember, hcandidate, hactive⟩ := findActive_spec hm
    refine ⟨viewOf organizationId exam t m,
      hviews ▸ List.mem_map_of_mem (hperm.mem_iff.mpr hmember), hcandidate, ?_⟩
    simp [viewOf, hactive]
  · rw [deriveAdmissionViews_eq (hrecords.trans hperm), hviews]
    exact hrecords.map _

/-! ## What a candidate is shown only improves -/

section
variable {organizationId : String} {exam : Exam} {t t' : Admissions} {op : AdmissionOp}
    {m r : ExamAdmissionRecord}

theorem released_congr (h : schedule organizationId exam.id t' = schedule organizationId exam.id t)
    (now : Int) :
    released organizationId exam t' now = released organizationId exam t now := by
  unfold released
  rw [earliestJoinedAt_schedule, earliestJoinedAt_schedule, h]

theorem scheduleOrdinal_congr
      (h : schedule organizationId exam.id t' = schedule organizationId exam.id t)
    {r r' : ExamAdmissionRecord} (hr : scheduleKey r' = scheduleKey r) :
    scheduleOrdinal organizationId exam t' r' = scheduleOrdinal organizationId exam t r := by
  unfold scheduleOrdinal
  rw [countAllAhead_schedule, countAllAhead_schedule, h, hr]

/-- An update that takes back no consumption leaves at least as many consumed. -/
theorem consumedAhead_update (t : Admissions) (p : ExamAdmissionRecord → Bool)
    {f : ExamAdmissionRecord → ExamAdmissionRecord} (hid : ∀ r, (f r).id = r.id)
    (hf : ∀ r, ofExam organizationId exam.id r = true → isAhead m.joinedAt m.id r = true →
      r.consumedAt.isSome = true → ofExam organizationId exam.id (f r) = true ∧
      isAhead m.joinedAt m.id (f r) = true ∧ (f r).consumedAt.isSome = true) :
    consumedAhead organizationId exam t m ≤ consumedAhead organizationId exam (t.update p f hid) m := by
  simp only [consumedAhead, countAhead, Table.update, List.countP_map]
  refine List.countP_mono_left fun r _ h => ?_
  simp only [Bool.and_eq_true] at h
  simp only [Function.comp_apply, Bool.and_eq_true]
  split
  · obtain ⟨hexam, hahead, hconsumed⟩ := hf r h.1.1 h.1.2 h.2
    exact ⟨⟨hexam, hahead⟩, hconsumed⟩
  · exact h

/-- What is left of the membership `m` of `t₀`, and of what is ahead of it. -/
structure Held (organizationId : String) (exam : Exam) (t₀ : Admissions) (m : ExamAdmissionRecord)
    (t : Admissions) (r : ExamAdmissionRecord) : Prop where
  row : t.get m.id = some r
  later : Later m r
  ordinal : scheduleOrdinal organizationId exam t r = scheduleOrdinal organizationId exam t₀ m
  release : ∀ now, released organizationId exam t now = released organizationId exam t₀ now
  consumed : consumedAhead organizationId exam t₀ m ≤ consumedAhead organizationId exam t m

/-- What one operation keeps. -/
theorem Moves.held {t₀ : Admissions} (hm : Moves organizationId exam t op t') (hw : Wellformed t)
    (hmember : ofExam organizationId exam.id m = true) (h : Held organizationId exam t₀ m t r)
    (hbehind : op.JoinsBehind organizationId exam m t) : ∃ r', Held organizationId exam t₀ m t' r' := by
  obtain ⟨r', hr', hlater⟩ := hm.later hw h.row
  have hlater' : Later m r' := h.later.trans hlater
  cases hm with
  | stay => exact ⟨r, h⟩
  | @join candidateId now ids newId hnone hid =>
    have hnew : t.get newId = none := by simpa using List.find?_some hid
    have hkeys : r.joinedAt = m.joinedAt ∧ r.id = m.id := by simpa [scheduleKey] using h.later.key
    have hnot : isAhead m.joinedAt m.id
        (newMembership organizationId exam.id candidateId now newId) = false :=
      hbehind newId (by simp [joinsAs, hnone, hid])
    have hle : r.joinedAt ≤ now := by
      rw [hkeys.1]
      exact not_lt.mp fun hlt => of_decide_eq_false hnot (.inl hlt)
    have hrow : r ∈ membersOf organizationId exam.id t := by
      refine List.mem_filter.mpr ⟨Table.mem_of_get h.row, ?_⟩
      simpa [ofExam, h.later.exam.1, h.later.exam.2.1] using hmember
    have hahead : ¬ toLex (now, newId) < scheduleKey r := by
      rw [isAhead_iff, decide_eq_false_iff_not] at hnot
      rw [h.later.key]
      exact hnot
    have hput : (t.put (newMembership organizationId exam.id candidateId now newId)).rows = _ :=
      Table.rows_put_fresh hnew
    have hordinal : scheduleOrdinal organizationId exam
        (t.put (newMembership organizationId exam.id candidateId now newId)) r = _ :=
      scheduleOrdinal_put hnew r
    rw [if_neg hahead, Int.add_zero] at hordinal
    refine ⟨r', hr', hlater', ?_, fun at' => (released_put hnew hrow hle at').trans (h.release at'), ?_⟩
    · exact (scheduleOrdinal_congr rfl hlater.key).trans (hordinal.trans h.ordinal)
    · refine h.consumed.trans ?_
      simp only [consumedAhead, countAhead, hput, List.countP_append]
      exact Nat.le_add_right _ _
  | @admission candidateId now r₀ hactive hwaiting he =>
    have hsame := schedule_admitOnce t organizationId exam.id r₀.id now
    refine ⟨r', hr', hlater', (scheduleOrdinal_congr hsame hlater.key).trans h.ordinal,
      fun at' => (released_congr hsame at').trans (h.release at'), h.consumed.trans ?_⟩
    exact consumedAhead_update (f := (·.withAdmittedAt now)) t _
      (fun _ => rfl) fun r hexam hahead hconsumed => ⟨hexam, hahead, hconsumed⟩
  | @consume candidateId attemptId consumedAt hadmitted =>
    have hsame := schedule_consumed t organizationId exam.id candidateId attemptId consumedAt
    refine ⟨r', hr', hlater', (scheduleOrdinal_congr hsame hlater.key).trans h.ordinal,
      fun at' => (released_congr hsame at').trans (h.release at'), h.consumed.trans ?_⟩
    exact consumedAhead_update (f := (·.consume consumedAt attemptId)) t _
      (fun _ => rfl) fun r hexam hahead _ => ⟨hexam, hahead, rfl⟩

theorem run_held (ops : List AdmissionOp) (hw : Wellformed t) (hm : t.get m.id = some m)
    (hmember : ofExam organizationId exam.id m = true)
    (hbehind : Along (AdmissionOp.step organizationId exam)
        (AdmissionOp.JoinsBehind organizationId exam m) t ops) :
    ∃ r, Held organizationId exam t m (run (AdmissionOp.step organizationId exam) t ops) r := by
  refine (run_along _ (P := fun t' => Wellformed t' ∧ ∃ r, Held organizationId exam t m t' r)
      (fun op s u s' h hg hstep => ?_) ops t
    ⟨hw, m, hm, .refl m, rfl, fun _ => rfl, le_refl _⟩ hbehind).2
  obtain ⟨hw, r, h⟩ := h
  have hmoves := AdmissionOp.step_moves hstep
  exact ⟨hmoves.wellformed hw, hmoves.held hw hmember h hg⟩

end

/-- From every reachable waiting room, over every run of joins behind a member,
of reconciles and of consumptions: as long as the membership is active, its
candidate is at every later instant shown a position that is smaller by exactly
the members ahead that were consumed meanwhile, no larger count and no longer
wait, and stays admitted. -/
theorem candidate_view_improves (organizationId : String) (exam : Exam)
    (hsize : 1 ≤ exam.controlFlags.batchSize) (hinterval : 1 ≤ exam.controlFlags.batchInterval)
    (before later : List AdmissionOp) (candidateId : String) (m m' : ExamAdmissionRecord)
    (now now' : Int) (hnow : now ≤ now') :
    let t := run (AdmissionOp.step organizationId exam) Table.empty before
    let t' := run (AdmissionOp.step organizationId exam) t later
    findActive t organizationId exam.id candidateId = some m →
    Along (AdmissionOp.step organizationId exam)
      (AdmissionOp.JoinsBehind organizationId exam m) t later →
    findActive t' organizationId exam.id candidateId = some m' → m'.id = m.id →
    let own := previewAdmissionStatus organizationId exam t candidateId now
    let own' := previewAdmissionStatus organizationId exam t' candidateId now'
    own.position - own'.position = consumedAhead organizationId exam t' m -
      consumedAhead organizationId exam t m ∧
      own'.position ≤ own.position ∧ own'.waitCount ≤ own.waitCount ∧
      own'.estimatedWaitSeconds ≤ own.estimatedWaitSeconds ∧
      (own.ready = true → own'.ready = true) := by
  intro t t' hm hbehind hm' hid own own'
  obtain ⟨hmember, -, hactive⟩ := findActive_spec hm
  obtain ⟨-, -, hactive'⟩ := findActive_spec hm'
  obtain ⟨hrow, hof⟩ := mem_membersOf.mp hmember
  obtain ⟨r, h⟩ : ∃ r, Held organizationId exam t m t' r :=
    run_held later (run_wellformed before) hrow (by simpa [ofExam] using hof) hbehind
  obtain rfl : m' = r := by
    have hget := (Table.find_eq_some hm').1
    rw [hid, h.row] at hget
    exact (Option.some.inj hget).symm
  have hkeys : m'.joinedAt = m.joinedAt ∧ m'.id = m.id := by simpa [scheduleKey] using h.later.key
  have hall : scheduleOrdinal organizationId exam t m = activePosition organizationId exam t m +
      consumedAhead organizationId exam t m := by
    rw [scheduleOrdinal, activePosition, countAllAhead_split]
    omega
  have hall' : scheduleOrdinal organizationId exam t' m' =
      activePosition organizationId exam t' m' + consumedAhead organizationId exam t' m := by
    rw [scheduleOrdinal, activePosition, hkeys.1, hkeys.2, countAllAhead_split]
    omega
  have hordinal := h.ordinal
  have hconsumed := h.consumed
  have hreleased : (released organizationId exam t now).releasedBatches ≤
      (released organizationId exam t' now').releasedBatches := by
    rw [h.release now']
    exact released_mono hinterval hnow
  have hcount : (released organizationId exam t now).releasedCount ≤
      (released organizationId exam t' now').releasedCount := by
    rw [releasedCount_eq, releasedCount_eq]
    exact Int.mul_le_mul_of_nonneg_right hreleased (by omega)
  have hadmitted : m.admittedAt.isSome → m'.admittedAt.isSome := by
    intro hsome
    obtain ⟨admittedAt, hat⟩ := Option.isSome_iff_exists.mp hsome
    rw [h.later.admitted admittedAt hat]
    rfl
  have hposition : own.position = activePosition organizationId exam t m := by
    simp only [own, previewAdmissionStatus, hm]
  have hposition' : own'.position = activePosition organizationId exam t' m' := by
    simp only [own', previewAdmissionStatus, hm']
  refine ⟨by omega, by omega, ?_, ?_, ?_⟩
  · simp only [own, own', previewAdmissionStatus, hm, hm']
    omega
  · by_cases hwaiting' : m'.admittedAt = none
    · have hwaiting : m.admittedAt = none := by
        by_contra hne
        rw [hwaiting'] at hadmitted
        exact absurd (hadmitted (Option.isSome_iff_ne_none.mpr hne)) Bool.false_ne_true
      simp only [own, own', previewAdmissionStatus, hm, hm', deriveAdmissionState, hactive,
        hactive', hwaiting, hwaiting', hordinal, ne_eq, not_true_eq_false, if_false, if_true]
      exact Int.mul_le_mul_of_nonneg_right (by omega) (by omega)
    · have hzero : own'.estimatedWaitSeconds = 0 := by
        simp [own', previewAdmissionStatus, hm', deriveAdmissionState, hactive', hwaiting']
      rw [hzero]
      simp only [own, previewAdmissionStatus, hm]
      split
      · exact Int.mul_nonneg (le_max_left _ _) (by omega)
      · exact le_refl _
  · simp only [own, own', previewAdmissionStatus, hm, hm', decide_eq_true_eq, admitted_iff hactive,
      admitted_iff hactive']
    exact hadmitted

/-- The third of three moves up when the first starts. -/
theorem candidate_view_improves_sample :
    let t := run (AdmissionOp.step "org" sampleQueue) sampleThree [.consume "first" 1000 "attempt",
      .reconcile "second" 60000]
    (previewAdmissionStatus "org" sampleQueue sampleThree "third" 500).position = 3 ∧
      (previewAdmissionStatus "org" sampleQueue sampleThree "third" 500).position -
        (previewAdmissionStatus "org" sampleQueue t "third" 60000).position = 1 := by
  have h := candidate_view_improves "org" sampleQueue (by decide) (by decide)
    [.join "first" 0 [earlyId], .reconcile "first" 0, .join "second" 500 [lateId],
      .join "third" 500 ["third"]]
    [.consume "first" 1000 "attempt", .reconcile "second" 60000] "third"
      (newMembership "org" sampleQueue.id "third" 500 "third")
    (newMembership "org" sampleQueue.id "third" 500 "third") 500 60000 (by decide)
      (by decide +kernel) (by decide +kernel)
    (by decide +kernel) rfl
  exact ⟨by decide +kernel, h.1.trans (by decide +kernel)⟩

end ExamSystem.Admission
