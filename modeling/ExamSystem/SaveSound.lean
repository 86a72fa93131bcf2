import ExamSystem.AnswerProtocol

/-!
# Runs of saves

A save either changes nothing or writes one record and its receipt. Over a run
the record of a question carries the number of accepted saves, its receipts the
versions up to it, and a receipt once written answers every later replay.
-/

namespace ExamSystem

open Tx

/-! ## Records -/

theorem findRecord_applyAcceptedResult (answers : List AnswerRecord) (record : AnswerRecord)
    (request : SaveAnswerRequest) (q : String) :
    findRecord (applyAcceptedResult answers record request) q =
      if q = request.questionId then some { record with questionId := request.questionId }
        else findRecord answers q := by
  have hfind : findRecord (answers.filter fun a => a.questionId ≠ request.questionId) q =
      if q = request.questionId then none else findRecord answers q := by
    simp only [findRecord, Rows.row, List.find?_filter]
    by_cases hq : q = request.questionId
    · subst hq; simp
    · rw [if_neg hq]
      refine congrArg (fun p => List.find? p answers) (funext fun a => ?_)
      by_cases ha : a.questionId = q
      · simp [ha, hq]
      · simp [ha]
  unfold findRecord at hfind
  simp only [findRecord, applyAcceptedResult, Rows.row_concat, hfind]
  by_cases hq : q = request.questionId
  · simp [hq]
  · simp [hq, Ne.symm hq]

theorem mem_applyAcceptedResult {answers : List AnswerRecord} {record r : AnswerRecord}
    {request : SaveAnswerRequest} (hq : record.questionId = request.questionId) :
    r ∈ applyAcceptedResult answers record request ↔ r = record ∨
    (r ∈ answers ∧ r.questionId ≠ request.questionId) := by
  obtain ⟨q, answer, version, savedAt⟩ := record
  subst hq
  simp only [applyAcceptedResult, List.mem_append, List.mem_filter, List.mem_singleton,
    decide_eq_true_eq]
  exact or_comm

theorem questions_applyAcceptedResult (answers : List AnswerRecord) (record : AnswerRecord)
    (request : SaveAnswerRequest) (hn : (answers.map (·.questionId)).Nodup) :
    ((applyAcceptedResult answers record request).map (·.questionId)).Nodup := by
  rw [applyAcceptedResult, List.map_append, List.nodup_append]
  refine ⟨(hn.sublist ((List.filter_sublist).map _)), by simp, ?_⟩
  intro x hx y hy
  obtain ⟨r, hr, rfl⟩ := List.mem_map.mp hx
  have hne : r.questionId ≠ request.questionId := by simpa using (List.mem_filter.mp hr).2
  simp only [List.map_cons, List.map_nil, List.mem_singleton] at hy
  rw [hy]; exact hne

theorem versionOf_mem {answers : List AnswerRecord} (hn : (answers.map (·.questionId)).Nodup)
    {r : AnswerRecord} (hr : r ∈ answers) : versionOf answers r.questionId = r.version := by
  have : findRecord answers r.questionId = some r := Rows.row_of_mem _ hn hr
  simp [versionOf, this]

/-! ## Save commands -/

structure SaveCommand where
  context : MutationContext
  request : SaveAnswerRequest
  canonicalize : Option (QuestionSnapshot → CanonicalizeAnswer)

def SaveCommand.state (c : SaveCommand) (db : Db) (a : ExamAttempt) : AnswerState :=
  { attemptStatus := a.status
    answers := a.answers
    knownReceipt := db.findAnswerReceipt c.context.attemptId c.request.questionId c.request.clientSeq
    deadlineAt := c.context.effectiveDeadline
    now := c.context.checkedAt }

def SaveCommand.write (c : SaveCommand) (db : Db) (a : ExamAttempt) (record : AnswerRecord)
    (receipt : AnswerReceipt) : Db :=
  { db.updateAttempt c.context.attemptId
      (·.recordSave (applyAcceptedResult a.answers record c.request) c.context.checkedAt) with
    answerReceipts := db.answerReceipts ++ [{ attemptId := c.context.attemptId, receipt := receipt }] }

section
variable {c : SaveCommand} {db : Db} {a : ExamAttempt} {record : AnswerRecord} {receipt : AnswerReceipt}

theorem SaveCommand.write_attempt (ha : db.findAttempt c.context.attemptId = some a)
    (attemptId : String) :
    (c.write db a record receipt).findAttempt attemptId =
      if attemptId = c.context.attemptId then
        some (a.recordSave (applyAcceptedResult a.answers record c.request) c.context.checkedAt)
      else db.findAttempt attemptId := by
  refine (Db.findAttempt_updateAttempt (f := (·.recordSave _ _)) db c.context.attemptId
      (fun _ => rfl) attemptId).trans ?_
  rw [ha]; rfl

theorem SaveCommand.write_receiptsOf (b q : String) :
    (c.write db a record receipt).receiptsOf b q =
      db.receiptsOf b q ++ if c.context.attemptId = b ∧ receipt.questionId = q then [receipt] else [] :=
  Db.receiptsOf_append db c.context.attemptId receipt b q

end

section
variable [Host]

def saveStep (c : SaveCommand) (db : Db) : Result (ProcessSaveResult × Db) :=
  saveAnswer db c.context c.request c.canonicalize

/-! ## One save -/

structure Written (c : SaveCommand) (db : Db) (a : ExamAttempt) (question : QuestionSnapshot)
    (record : AnswerRecord) (receipt : AnswerReceipt) : Prop where
  found : db.findAttempt c.context.attemptId = some a
  sameAttempt : c.request.attemptId = c.context.attemptId
  member : findSnapshotQuestion a.questionSnapshot c.request.questionId = some question
  acceptance : Acceptance (c.state db a) c.request (c.canonicalize.map fun f => f question)
    record receipt

/-- A command that does not throw answers with the decision on the attempt it
found. -/
theorem saveStep_decision {c : SaveCommand} {db db' : Db} {res : ProcessSaveResult}
    (h : saveStep c db = .ok (res, db')) :
    ∃ a question, db.findAttempt c.context.attemptId = some a ∧
      c.request.attemptId = c.context.attemptId ∧
      findSnapshotQuestion a.questionSnapshot c.request.questionId = some question ∧
      res = processSaveAnswer (c.state db a) c.request (c.canonicalize.map fun f => f question) ∧
      ∀ v t record receipt, res = .accepted v t (some (record, receipt)) →
      db' = c.write db a record receipt := by
  simp only [saveStep, saveAnswer, bind_eq_ok, require_eq_ok, orThrow_eq_ok,
    Db.findAnswerReceiptByKey_eq_ok, exists_const] at h
  obtain ⟨hid, a, ha, question, hq, _, ⟨-, rfl⟩, h⟩ := h
  refine ⟨a, question, ha, hid, hq, ?_⟩
  split at h
  · rename_i v t record receipt hres
    simp only [bind_eq_ok, require_eq_ok, exists_const] at h
    obtain ⟨-, db₁, h₁, h₂⟩ := h
    obtain ⟨-, -, -, rfl⟩ := Db.appendAnswerReceipt_eq_ok.mp h₁
    rw [pure_eq_ok, Prod.mk.injEq] at h₂
    obtain ⟨rfl, rfl⟩ := h₂
    refine ⟨rfl, fun v' t' record' receipt' e => ?_⟩
    cases hres.symm.trans e
    rfl
  · rename_i hne
    rw [pure_eq_ok, Prod.mk.injEq] at h
    exact ⟨h.1.symm, fun v t record receipt e => absurd (h.1.trans e) (hne v t record receipt)⟩

theorem saveStep_fits {c : SaveCommand} {db db' : Db} {res : ProcessSaveResult}
    (h : saveStep c db = .ok (res, db')) :
    FitsInteger c.request.clientSeq := by
  simp only [saveStep, saveAnswer, bind_eq_ok, Db.findAnswerReceiptByKey_eq_ok] at h
  obtain ⟨-, -, a, -, question, -, _, ⟨hfits, -⟩, -⟩ := h
  exact hfits

theorem saveStep_unwritten {c : SaveCommand} {db db' : Db} {res : ProcessSaveResult}
    (h : saveStep c db = .ok (res, db')) (hres : ∀ v t w, res ≠ .accepted v t (some w)) : db' = db := by
  simp only [saveStep, saveAnswer, bind_eq_ok, require_eq_ok, orThrow_eq_ok, exists_const] at h
  obtain ⟨-, a, -, question, -, _, -, h⟩ := h
  split at h
  · rename_i hdec
    simp only [bind_eq_ok, require_eq_ok, exists_const] at h
    obtain ⟨-, db₁, -, h₂⟩ := h
    rw [pure_eq_ok, Prod.mk.injEq] at h₂
    exact absurd (h₂.1.symm.trans hdec) (hres _ _ _)
  · rw [pure_eq_ok, Prod.mk.injEq] at h
    exact h.2.symm

theorem saveStep_cases {c : SaveCommand} {db db' : Db} {res : ProcessSaveResult}
    (h : saveStep c db = .ok (res, db')) :
    (db' = db ∧ ∀ v t w, res ≠ .accepted v t (some w)) ∨
      ∃ a question record receipt, Written c db a question record receipt ∧
        res = .accepted record.version record.savedAt (some (record, receipt)) ∧
        db' = c.write db a record receipt := by
  by_cases hres : ∃ v t w, res = .accepted v t (some w)
  · obtain ⟨v, t, ⟨record, receipt⟩, rfl⟩ := hres
    obtain ⟨a, question, ha, hid, hq, hdec, hw⟩ := saveStep_decision h
    obtain ⟨hacc, rfl, rfl⟩ := processSaveAnswer_written hdec.symm
    exact .inr ⟨a, question, record, receipt, ⟨ha, hid, hq, hacc⟩, rfl, hw _ _ _ _ rfl⟩
  · have hres : ∀ v t w, res ≠ .accepted v t (some w) := fun v t w e => hres ⟨v, t, w, e⟩
    exact .inl ⟨saveStep_unwritten h hres, hres⟩

/-! ## The invariant -/

/-- The persisted answers and receipts of an attempt after `accepted q` new
saves of each question `q`. -/
structure AnswersSound (db : Db) (attemptId : String) (a : ExamAttempt)
    (accepted : String → Nat) : Prop where
  one_record : (a.answers.map (·.questionId)).Nodup
  in_snapshot : ∀ r ∈ a.answers, ∃ q ∈ a.questionSnapshot, q.originalQuestionId = r.questionId
  record_version : ∀ r ∈ a.answers, r.version = accepted r.questionId
  no_record : ∀ q, (∀ r ∈ a.answers, r.questionId ≠ q) → accepted q = 0
  receipt_versions : ∀ q, (db.receiptsOf attemptId q).map (·.version) = List.range' 1 (accepted q)
  receipt_keys : ∀ q, ((db.receiptsOf attemptId q).map (·.clientSeq)).Nodup
  receipt_of_record : ∀ r ∈ a.answers, ∀ receipt ∈ db.receiptsOf attemptId r.questionId,
    receipt.version = r.version →
      receipt.answerIdentity = canonicalAnswerIdentity r.answer ∧ receipt.savedAt = r.savedAt

theorem AnswersSound.versionOf_eq {db : Db} {attemptId : String} {a : ExamAttempt}
    {accepted : String → Nat} (h : AnswersSound db attemptId a accepted) (q : String) :
    versionOf a.answers q = accepted q := by
  by_cases hq : ∃ r ∈ a.answers, r.questionId = q
  · obtain ⟨r, hr, rfl⟩ := hq
    rw [versionOf_mem h.one_record hr, h.record_version r hr]
  · have hq : ∀ r ∈ a.answers, r.questionId ≠ q := fun r hr e => hq ⟨r, hr, e⟩
    have : findRecord a.answers q = none := (Rows.row_eq_none _).mpr hq
    simp [versionOf, this, h.no_record q hq]

def isAcceptedSave (attemptId q : String) (c : SaveCommand) : Result (ProcessSaveResult × Db) → Bool
  | .ok (.accepted _ _ (some _), _) => c.context.attemptId = attemptId && c.request.questionId = q
  | _ => false

def acceptedSaves (attemptId q : String) : Db → List SaveCommand → Nat
  | _, [] => 0
  | db, c :: cs =>
    (isAcceptedSave attemptId q c (saveStep c db)).toNat + acceptedSaves attemptId q
      (commit (saveStep c db) db) cs

/-! ## The invariant across a write -/

section
variable {c : SaveCommand} {db : Db} {a : ExamAttempt} {question : QuestionSnapshot}
    {record : AnswerRecord} {receipt : AnswerReceipt}

/-- A write adds one to the count of its question and nothing else. -/
theorem AnswersSound.write {accepted : String → Nat} (hw : Written c db a question record receipt)
    (h : AnswersSound db c.context.attemptId a accepted) :
    AnswersSound (c.write db a record receipt) c.context.attemptId
      (a.recordSave (applyAcceptedResult a.answers record c.request) c.context.checkedAt)
      (fun q => accepted q + if q = c.request.questionId then 1 else 0) := by
  have hacc := hw.acceptance
  have hrq : record.questionId = c.request.questionId := hacc.record_question
  have hcq : receipt.questionId = c.request.questionId := by rw [hacc.receipt_eq]
  have hver : record.version = accepted c.request.questionId + 1 := by
    rw [hacc.record_version]; exact congrArg (· + 1) (h.versionOf_eq _)
  have hrv : receipt.version = record.version := by rw [hacc.receipt_eq]
  have hfresh : db.findAnswerReceipt c.context.attemptId c.request.questionId
    c.request.clientSeq = none := hacc.fresh
  have hold : ∀ q, ∀ r ∈ db.receiptsOf c.context.attemptId q, r.version < accepted q + 1 := by
    intro q r hr
    have hm := List.mem_map_of_mem (f := (·.version)) hr
    rw [h.receipt_versions q, List.mem_range'_1] at hm
    omega
  refine ⟨questions_applyAcceptedResult _ _ _ h.one_record, ?_, ?_, ?_, ?_, ?_, ?_⟩
  · intro r hr
    rcases (mem_applyAcceptedResult hrq).mp hr with rfl | ⟨hr, -⟩
    · refine ⟨question, List.mem_of_find?_eq_some hw.member, ?_⟩
      rw [hrq]; simpa using List.find?_some hw.member
    · exact h.in_snapshot r hr
  · intro r hr
    rcases (mem_applyAcceptedResult hrq).mp hr with rfl | ⟨hr, hne⟩
    · simp [hrq, hver]
    · simp [hne, h.record_version r hr]
  · intro q hq
    have hne : q ≠ c.request.questionId := by
      rintro rfl
      exact hq record ((mem_applyAcceptedResult hrq).mpr (.inl rfl)) hrq
    simp only [if_neg hne, Nat.add_zero]
    refine h.no_record q fun r hr e => hq r ?_ e
    exact (mem_applyAcceptedResult hrq).mpr (.inr ⟨hr, e ▸ hne⟩)
  · intro q
    rw [SaveCommand.write_receiptsOf, List.map_append, h.receipt_versions q]
    by_cases hq : q = c.request.questionId
    · subst hq
      simp [hcq, hrv, hver, List.range'_concat, Nat.add_comm]
    · simp [hq, hcq, Ne.symm hq]
  · intro q
    rw [SaveCommand.write_receiptsOf, List.map_append, List.nodup_append]
    refine ⟨h.receipt_keys q, ?_, ?_⟩
    · split <;> simp
    · intro s hs t ht
      obtain ⟨r, hr, rfl⟩ := List.mem_map.mp hs
      split at ht
      · rename_i hq
        have : t = c.request.clientSeq := by rw [hacc.receipt_eq] at ht; simpa using ht
        rw [this]
        exact Db.receiptsOf_known hfresh r (by rw [← hcq, hq.2]; exact hr)
      · simp at ht
  · intro r hr x hx hv
    rw [SaveCommand.write_receiptsOf, List.mem_append] at hx
    rcases (mem_applyAcceptedResult hrq).mp hr with rfl | ⟨hr, hne⟩
    · rcases hx with hx | hx
      · have := hold _ x hx
        rw [hrq] at this; omega
      · have : x = receipt := by split at hx <;> simp_all
        rw [this, hacc.receipt_eq]
        exact ⟨rfl, rfl⟩
    · rcases hx with hx | hx
      · exact h.receipt_of_record r hr x hx hv
      · rw [if_neg (fun e => hne (e.2.symm.trans hcq))] at hx; simp at hx

end

theorem AnswersSound.write_other {c : SaveCommand} {db : Db} {a b : ExamAttempt}
    {record : AnswerRecord} {receipt : AnswerReceipt} {attemptId : String} {accepted : String → Nat}
    (hne : attemptId ≠ c.context.attemptId) (h : AnswersSound db attemptId a accepted) :
    AnswersSound (c.write db b record receipt) attemptId a accepted := by
  have hr : ∀ q, (c.write db b record receipt).receiptsOf attemptId q = db.receiptsOf attemptId q := by
    intro q
    rw [SaveCommand.write_receiptsOf, if_neg (fun e => hne e.1.symm), List.append_nil]
  exact ⟨h.one_record, h.in_snapshot, h.record_version, h.no_record,
    fun q => hr q ▸ h.receipt_versions q,
    fun q => hr q ▸ h.receipt_keys q, fun r hm x hx => h.receipt_of_record r hm x (hr _ ▸ hx)⟩

/-! ## The invariant of a run -/

theorem isAcceptedSave_write {c : SaveCommand} {db : Db} {v : Nat} {t : Int}
    {w : AnswerRecord × AnswerReceipt} {db' : Db}
    (h : saveStep c db = .ok (.accepted v t (some w), db')) (attemptId q : String) :
    isAcceptedSave attemptId q c (saveStep c db) =
      (decide (c.context.attemptId = attemptId) && decide (c.request.questionId = q)) := by
  rw [h]; rfl

theorem isAcceptedSave_unwritten {c : SaveCommand} {db db' : Db} {res : ProcessSaveResult}
    (h : saveStep c db = .ok (res, db')) (hres : ∀ v t w, res ≠ .accepted v t (some w))
    (attemptId q : String) :
    isAcceptedSave attemptId q c (saveStep c db) = false := by
  rw [h]
  match res with
  | .accepted v t (some w) => exact absurd rfl (hres v t w)
  | .accepted _ _ none => rfl
  | .rejected _ _ _ _ => rfl

/-- One command: the attempt keeps its snapshot, and the invariant counts it. -/
theorem answersSound_step {db : Db} {attemptId : String} {a : ExamAttempt} {accepted : String → Nat}
    (ha : db.findAttempt attemptId = some a) (h : AnswersSound db attemptId a accepted)
    (c : SaveCommand) :
    ∃ a', (commit (saveStep c db) db).findAttempt attemptId = some a' ∧
      AnswersSound (commit (saveStep c db) db) attemptId a'
        (fun q => accepted q + (isAcceptedSave attemptId q c (saveStep c db)).toNat) := by
  cases hx : saveStep c db with
  | error e => exact ⟨a, ha, by simpa [isAcceptedSave] using h⟩
  | ok p =>
    obtain ⟨res, db'⟩ := p
    rcases saveStep_cases hx with ⟨rfl, hres⟩ | ⟨b, question, record, receipt, hw, rfl, rfl⟩
    · have hno := isAcceptedSave_unwritten hx hres attemptId
      rw [hx] at hno
      exact ⟨a, ha, by simpa [hno] using h⟩
    · have hyes := isAcceptedSave_write hx attemptId
      rw [hx] at hyes
      simp only [commit_ok, hyes]
      by_cases hid : attemptId = c.context.attemptId
      · subst hid
        obtain rfl : a = b := Option.some.inj (ha.symm.trans hw.found)
        refine ⟨_, (SaveCommand.write_attempt ha _).trans (if_pos rfl), ?_⟩
        have hcount : (fun q => accepted q +
            (decide (c.context.attemptId = c.context.attemptId) && decide
                (c.request.questionId = q)).toNat) =
            fun q => accepted q + if q = c.request.questionId then 1 else 0 := by
          funext q
          by_cases hq : q = c.request.questionId
          · simp [hq]
          · simp [hq, Ne.symm hq]
        rw [hcount]
        exact h.write hw
      · refine ⟨a, ?_, ?_⟩
        · rw [SaveCommand.write_attempt hw.found, if_neg hid]; exact ha
        · have hother : AnswersSound (c.write db b record receipt) attemptId a accepted :=
            h.write_other hid
          simpa [Ne.symm hid] using hother

theorem answersSound_run {attemptId : String} : ∀ (cs : List SaveCommand) {db : Db} {a : ExamAttempt}
    {accepted : String → Nat}, db.findAttempt attemptId = some a →
    AnswersSound db attemptId a accepted →
    ∃ a', (run saveStep db cs).findAttempt attemptId = some a' ∧
      AnswersSound (run saveStep db cs) attemptId a'
        (fun q => accepted q + acceptedSaves attemptId q db cs)
  | [], _, a, _, ha, h => ⟨a, ha, h⟩
  | c :: cs, db, a, accepted, ha, h => by
    obtain ⟨a₁, ha₁, h₁⟩ := answersSound_step ha h c
    obtain ⟨a₂, ha₂, h₂⟩ := answersSound_run cs ha₁ h₁
    refine ⟨a₂, ha₂, ?_⟩
    simpa only [acceptedSaves, Nat.add_assoc, run_cons] using h₂

theorem AnswersSound.fresh {db : Db} {attemptId : String} {a : ExamAttempt} (ha : a.answers = [])
    (hr : ∀ row ∈ db.answerReceipts, row.attemptId ≠ attemptId) :
    AnswersSound db attemptId a fun _ => 0 := by
  have hnone : ∀ q, db.receiptsOf attemptId q = [] := by
    intro q
    refine List.eq_nil_iff_forall_not_mem.mpr fun r hm => ?_
    exact hr _ (Db.mem_receiptsOf.mp hm).1 rfl
  exact
    { one_record := by simp [ha]
      in_snapshot := by simp [ha]
      record_version := by simp [ha]
      no_record := fun _ _ => rfl
      receipt_versions := fun q => by simp [hnone q]
      receipt_keys := fun q => by simp [hnone q]
      receipt_of_record := by simp [ha] }

/-- From an attempt without answers and receipts, every run of saves keeps the
answers and receipts sound, and a save that is rejected or replayed changes
nothing at all. -/
theorem saves_sound (db : Db) (attemptId : String) (a : ExamAttempt)
    (ha : db.findAttempt attemptId = some a) (hanswers : a.answers = [])
    (hreceipts : ∀ row ∈ db.answerReceipts, row.attemptId ≠ attemptId) (cs : List SaveCommand) :
    (∃ a', (run saveStep db cs).findAttempt attemptId = some a' ∧
      AnswersSound (run saveStep db cs) attemptId a' (fun q => acceptedSaves attemptId q db cs)) ∧
    ∀ c, (∀ v t w db', saveStep c (run saveStep db cs) ≠ .ok (.accepted v t (some w), db')) →
      commit (saveStep c (run saveStep db cs)) (run saveStep db cs) = run saveStep db cs := by
  have h₀ : AnswersSound db attemptId a fun _ => 0 := .fresh hanswers hreceipts
  constructor
  · simpa using answersSound_run cs ha h₀
  · intro c hc
    rcases commit_cases (saveStep c (run saveStep db cs)) (run saveStep db cs) with he |
      ⟨res, db', hx, he⟩
    · exact he
    · rcases saveStep_cases hx with ⟨rfl, -⟩ | ⟨_, _, record, receipt, -, rfl, -⟩
      · exact he
      · exact absurd hx (hc _ _ _ _)

end

def sampleSave (answer : String) (clientSeq baseVersion checkedAt : Int) : SaveCommand :=
  { context := { attemptId := "attempt", checkedAt := checkedAt, effectiveDeadline := some 60000 }
    request :=
      { attemptId := "attempt", questionId := "q1", answer := .str (js answer), clientSeq := clientSeq
        baseVersion := baseVersion }
    canonicalize := none }

/-- Two answers of one question, with a replay of the first in between. -/
def sampleSaves : List SaveCommand := [sampleSave "b" 1 0 1000, sampleSave "b" 1 0 1500,
      sampleSave "a" 2 1 2000]

theorem saves_sound_sample :
    ((run (@saveStep sampleHost) sampleDb sampleSaves).receiptsOf "attempt" "q1").map
      (·.version) = [1, 2] := by
  let _ : Host := sampleHost
  obtain ⟨⟨a, -, h⟩, -⟩ := saves_sound sampleDb "attempt" sampleAttempt (by decide) rfl
    (by decide) sampleSaves
  exact (h.receipt_versions "q1").trans (by decide)

/-! ## Replay -/

theorem SaveCommand.write_receipt {c : SaveCommand} {db : Db} {a : ExamAttempt}
    {record : AnswerRecord} {receipt : AnswerReceipt}
    (hf : db.findAnswerReceipt c.context.attemptId receipt.questionId receipt.clientSeq = none)
    (b q : String) (s : Int) :
    (c.write db a record receipt).findAnswerReceipt b q s =
      if (b, q, s) = (c.context.attemptId, receipt.questionId, receipt.clientSeq) then some receipt
      else db.findAnswerReceipt b q s :=
  Db.findAnswerReceipt_append hf b q s

/-- What a run of saves cannot change: the receipts written before it, and the
snapshot of the attempt. -/
structure ReplayReady (attemptId q : String) (s : Int) (receipt : AnswerReceipt)
    (question : QuestionSnapshot) (db : Db) : Prop where
  known : db.findAnswerReceipt attemptId q s = some receipt
  member : ∃ a, db.findAttempt attemptId = some a ∧
    findSnapshotQuestion a.questionSnapshot q = some question

section
variable [Host]

theorem replayReady_step {attemptId q : String} {s : Int} {receipt : AnswerReceipt}
    {question : QuestionSnapshot} (c : SaveCommand) (db : Db) (res : ProcessSaveResult) (db' : Db)
    (h : ReplayReady attemptId q s receipt question db) (hx : saveStep c db = .ok (res, db')) :
    ReplayReady attemptId q s receipt question db' := by
  rcases saveStep_cases hx with ⟨rfl, -⟩ | ⟨b, question', record, receipt', hw, -, rfl⟩
  · exact h
  · have hkey : receipt'.questionId = c.request.questionId ∧
        receipt'.clientSeq = c.request.clientSeq := by
      rw [hw.acceptance.receipt_eq]; exact ⟨rfl, rfl⟩
    have hfresh : db.findAnswerReceipt c.context.attemptId receipt'.questionId
        receipt'.clientSeq = none := by
      rw [hkey.1, hkey.2]; exact hw.acceptance.fresh
    constructor
    · rw [SaveCommand.write_receipt hfresh, if_neg, h.known]
      rintro ⟨-, -⟩
      exact absurd (h.known.symm.trans hfresh) (by simp)
    · obtain ⟨a, ha, hm⟩ := h.member
      by_cases hid : attemptId = c.context.attemptId
      · subst hid
        obtain rfl : a = b := Option.some.inj (ha.symm.trans hw.found)
        exact ⟨_, (SaveCommand.write_attempt ha _).trans (if_pos rfl), hm⟩
      · exact ⟨a, (SaveCommand.write_attempt hw.found _).trans ((if_neg hid).trans ha), hm⟩

/-- An accepted save leaves a receipt of its key with the version and time it
returned and the identity of its canonical answer to the question. -/
theorem replayReady_accepted {c : SaveCommand} {db db' : Db} {v : Nat} {t : Int}
    {w : Option (AnswerRecord × AnswerReceipt)} (h : saveStep c db = .ok (.accepted v t w, db')) :
    ∃ a receipt question, db.findAttempt c.context.attemptId = some a ∧
      findSnapshotQuestion a.questionSnapshot c.request.questionId = some question ∧
      ReplayReady c.context.attemptId c.request.questionId c.request.clientSeq receipt question db' ∧
      receipt.version = v ∧ receipt.savedAt = t ∧
      ∃ answer, applyCanonicalize (c.canonicalize.map fun f => f question) c.request.answer =
        .ok answer ∧ receipt.answerIdentity = canonicalAnswerIdentity answer := by
  cases w with
  | none =>
    obtain ⟨a, question, ha, -, hq, hdec, -⟩ := saveStep_decision h
    obtain ⟨receipt, answer, hk, hv, ht, hc, hid⟩ := processSaveAnswer_replayed hdec.symm
    obtain rfl := saveStep_unwritten h (by simp)
    exact ⟨a, receipt, question, ha, hq, ⟨hk, a, ha, hq⟩, hv, ht, answer, hc, hid⟩
  | some w =>
    rcases saveStep_cases h with ⟨-, hres⟩ | ⟨a, question, record, receipt, hw, he, rfl⟩
    · exact absurd rfl (hres _ _ _)
    · cases he
      have hacc := hw.acceptance
      have hrec := hacc.receipt_eq
      have hfresh : db.findAnswerReceipt c.context.attemptId receipt.questionId
          receipt.clientSeq = none := by
        rw [hrec]; exact hacc.fresh
      refine ⟨a, receipt, question, hw.found, hw.member, ⟨?_, ?_⟩, by rw [hrec], by rw [hrec],
        record.answer, hacc.canonical, by rw [hrec]⟩
      · rw [SaveCommand.write_receipt hfresh, if_pos (by rw [hrec])]
      · exact ⟨_, (SaveCommand.write_attempt hw.found _).trans (if_pos rfl), hw.member⟩

/-- The attempt of a command is mutable and its effective deadline is ahead. -/
def SaveCommand.InTime (c : SaveCommand) (db : Db) : Prop :=
  ∃ a, db.findAttempt c.context.attemptId = some a ∧ (c.state db a).Mutable

/-- Once a save of a key is accepted, every later command on the key of an
attempt still in time answers from the receipt and writes nothing: the same
acknowledgement for the same answer, a conflict for a different one. -/
theorem replay_permanent (db db' : Db) (c : SaveCommand) (v : Nat) (t : Int)
    (w : Option (AnswerRecord × AnswerReceipt)) (h : saveStep c db = .ok (.accepted v t w, db'))
    (cs : List SaveCommand) (c' : SaveCommand)
    (hattempt : c'.context.attemptId = c.context.attemptId)
    (hrequest : c'.request.attemptId = c'.context.attemptId)
    (hq : c'.request.questionId = c.request.questionId)
    (hseq : c'.request.clientSeq = c.request.clientSeq) (hin : c'.InTime (run saveStep db' cs)) :
    ∃ a question answer, db.findAttempt c.context.attemptId = some a ∧
      findSnapshotQuestion a.questionSnapshot c.request.questionId = some question ∧
      applyCanonicalize (c.canonicalize.map fun f => f question) c.request.answer = .ok answer ∧
      ∀ answer', applyCanonicalize (c'.canonicalize.map fun f => f question) c'.request.answer =
        .ok answer' →
        (Host.sha256 (serializeAnswerIdentityValue answer) = Host.sha256
            (serializeAnswerIdentityValue answer') →
          serializeAnswerIdentityValue answer = serializeAnswerIdentityValue answer') →
        saveStep c' (run saveStep db' cs) =
          if serializeAnswerIdentityValue answer = serializeAnswerIdentityValue answer' then
            .ok (.accepted v t none, run saveStep db' cs)
          else .ok (.rejected v c'.context.checkedAt .conflictingPayload none,
            run saveStep db' cs) := by
  have hfits : FitsInteger c'.request.clientSeq := hseq ▸ saveStep_fits h
  obtain ⟨a₀, receipt, question, ha₀, hq₀, hready, rfl, rfl, answer, hc, hid⟩ := replayReady_accepted h
  refine ⟨a₀, question, answer, ha₀, hq₀, hc, fun answer' hc' hcoll => ?_⟩
  have hready := run_invariant saveStep replayReady_step cs db' hready
  obtain ⟨a, ha, hm⟩ := hin
  obtain ⟨a₁, ha₁, hmem⟩ := hready.member
  obtain rfl : a = a₁ := Option.some.inj (ha.symm.trans (hattempt ▸ ha₁))
  have hknown : (c'.state (run saveStep db' cs) a).knownReceipt = some receipt := by
    simp only [SaveCommand.state, hattempt, hq, hseq]; exact hready.known
  have hdec := processSaveAnswer_known hm hknown hc'
  have hsame : receipt.answerIdentity = canonicalAnswerIdentity answer' ↔
      serializeAnswerIdentityValue answer = serializeAnswerIdentityValue answer' := by
    rw [hid]; exact ⟨hcoll, fun e => congrArg Host.sha256 e⟩
  simp only [hsame] at hdec
  rw [← hq] at hmem
  simp only [saveStep, saveAnswer, Db.findAnswerReceiptByKey, require_true hrequest,
    require_true hfits, ha, hmem, orThrow_some, ok_bind, pure, Except.pure]
  simp only [SaveCommand.state] at hdec
  rw [hdec]
  by_cases he : serializeAnswerIdentityValue answer = serializeAnswerIdentityValue answer' <;> simp [he]

end

/-- The first answer is sent again after the second, with another base. -/
theorem replay_permanent_sample :
    let db' := commit (@saveStep sampleHost (sampleSave "b" 1 0 1000) sampleDb) sampleDb
    let db'' := run (@saveStep sampleHost) db' [sampleSave "a" 2 1 2000]
    @saveStep sampleHost (sampleSave "b" 1 9 3000) db'' = .ok (.accepted 1 1000 none, db'') := by
  let _ : Host := sampleHost
  intro db' db''
  obtain ⟨_, question, answer, -, -, hc, h⟩ :=
    replay_permanent sampleDb db' (sampleSave "b" 1 0 1000) 1 1000 _ rfl
    [sampleSave "a" 2 1 2000] (sampleSave "b" 1 9 3000) rfl rfl rfl rfl
    ⟨_, rfl, ⟨by decide, by decide, by decide, by decide⟩⟩
  cases hc
  exact (h _ rfl (fun _ => rfl)).trans (if_pos rfl)

end ExamSystem
