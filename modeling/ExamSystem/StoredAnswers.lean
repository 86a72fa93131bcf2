import ExamSystem.AttemptRows
import ExamSystem.Progress
import ExamSystem.TakeExamPage

/-!
# The stored answers of an attempt

In every reachable store the answers and receipts of every attempt are sound,
and what a served save does to the stored answer of one question.
-/

namespace ExamSystem

open Tx

/-! ## Reachable answers -/

/-- The answers of every attempt are sound, and every receipt is of an attempt. -/
structure StoredSound [Host] (db : Db) : Prop where
  sound : ∀ attemptId a, db.findAttempt attemptId = some a →
    ∃ accepted, AnswersSound db attemptId a accepted
  owned : ∀ row ∈ db.answerReceipts, ∃ a, db.findAttempt row.attemptId = some a

section
variable [Host]

theorem AnswersSound.congr {db db' : Db} {attemptId : String} {a a' : ExamAttempt}
    {accepted : String → Nat} (h : AnswersSound db attemptId a accepted)
    (hr : db'.answerReceipts = db.answerReceipts) (ha : a'.answers = a.answers)
    (hs : a'.questionSnapshot = a.questionSnapshot) :
    AnswersSound db' attemptId a' accepted := by
  have hrow : ∀ q, db'.receiptsOf attemptId q = db.receiptsOf attemptId q := by
    intro q
    rw [Db.receiptsOf, Db.receiptsOf, hr]
  refine ⟨?_, ?_, ?_, ?_, fun q => hrow q ▸ h.receipt_versions q,
    fun q => hrow q ▸ h.receipt_keys q, ?_⟩
  · rw [ha]
    exact h.one_record
  · rw [ha, hs]
    exact h.in_snapshot
  · rw [ha]
    exact h.record_version
  · rw [ha]
    exact h.no_record
  · rw [ha]
    intro r hm x hx
    exact h.receipt_of_record r hm x (hrow _ ▸ hx)

/-- What a change may do to answers: nothing, except for a save, and for an
attempt that appears. -/
inductive AnswerChange (db db' : Db) : Prop
  | same (receipts : db'.answerReceipts = db.answerReceipts)
      (rows : ∀ attemptId a', db'.findAttempt attemptId = some a' →
        (∃ a, db.findAttempt attemptId = some a ∧ a'.answers = a.answers ∧
          a'.questionSnapshot = a.questionSnapshot) ∨
          (db.findAttempt attemptId = none ∧ a'.answers = []))
  | save {c : SaveCommand} {a : ExamAttempt} {question : QuestionSnapshot} {record : AnswerRecord}
      {receipt : AnswerReceipt} (h : Written c db a question record receipt)
      (hdb : db' = c.write db a record receipt)

theorem AnswerChange.update {db db' : Db} {k : String} {f : ExamAttempt → ExamAttempt}
    (hid : ∀ a, (f a).id = a.id)
    (hf : ∀ a, (f a).answers = a.answers ∧ (f a).questionSnapshot = a.questionSnapshot)
    (hdb : ∀ attemptId, db'.findAttempt attemptId = (db.updateAttempt k f).findAttempt attemptId)
    (hr : db'.answerReceipts = db.answerReceipts) : AnswerChange db db' := by
  refine .same hr fun attemptId a' ha' => .inl ?_
  rw [hdb, Db.findAttempt_updateAttempt db k hid] at ha'
  by_cases hk : attemptId = k
  · subst hk
    rw [if_pos rfl] at ha'
    obtain ⟨a, ha, rfl⟩ := Option.map_eq_some_iff.mp ha'
    exact ⟨a, ha, hf a⟩
  · rw [if_neg hk] at ha'
    exact ⟨a', ha', rfl, rfl⟩

theorem Change.answers {now : Int} {db db' : Db} (h : Change now db db') : AnswerChange db db' := by
  have hkeep : ∀ {db' : Db}, db'.attempts = db.attempts → db'.answerReceipts = db.answerReceipts →
      AnswerChange db db' := by
    intro db' hat hr
    refine .same hr fun attemptId a' ha' => .inl ⟨a', ?_, rfl, rfl⟩
    rw [Db.findAttempt, hat] at ha'
    exact ha'
  rcases h with h | _ | _
  case adjust a row _ =>
    exact .update (f := (·.extend row.afterDeadline)) (fun _ => rfl) (fun _ => ⟨rfl, rfl⟩)
      (fun _ => rfl) rfl
  case examWrite => exact hkeep rfl rfl
  cases h with
  | save hw => exact .save hw rfl
  | touch _ _ =>
    exact .update (f := (·.touch now)) (fun _ => rfl) (fun _ => ⟨rfl, rfl⟩) (fun _ => rfl) rfl
  | @detect _ freshId _ _ _ _ _ _ =>
    exact .update (f := (·.markDisrupted freshId now)) (fun _ => rfl) (fun _ => ⟨rfl, rfl⟩)
        (fun _ => rfl) rfl
  | restore _ _ _ _ =>
    exact .update (f := (·.restore now)) (fun _ => rfl) (fun _ => ⟨rfl, rfl⟩) (fun _ => rfl) rfl
  | @freeze a submittedAt reason _ _ =>
    exact .update (f := (·.submittedRow submittedAt reason)) (fun _ => rfl) (fun _ => ⟨rfl, rfl⟩)
      (fun _ => rfl) rfl
  | score _ => exact hkeep rfl rfl
  | @close a aggregated _ =>
    exact .update (f := (·.gradedRow aggregated now)) (fun _ => rfl) (fun _ => ⟨rfl, rfl⟩)
      (fun _ => rfl) rfl
  | @create a input hc =>
    refine .same rfl fun attemptId a' ha' => ?_
    rw [show (db.create a).findAttempt attemptId = _ from Db.findAttempt_append hc.fresh attemptId]
      at ha'
    by_cases hid : attemptId = a.id
    · subst hid
      rw [if_pos rfl] at ha'
      obtain rfl := Option.some.inj ha'
      obtain ⟨_, _, hrow⟩ := hc.row
      exact .inr ⟨hc.fresh, by rw [hrow]; rfl⟩
    · rw [if_neg hid] at ha'
      exact .inl ⟨a', ha', rfl, rfl⟩

theorem storedSound_change (now : Int) (db db' : Db) (h : StoredSound db) (hc : Change now db db') :
    StoredSound db' := by
  cases hc.answers with
  | same hr hrows =>
    constructor
    · intro attemptId a' ha'
      rcases hrows attemptId a' ha' with ⟨a, ha, hans, hsnap⟩ | ⟨hnone, hans⟩
      · obtain ⟨accepted, hs⟩ := h.sound attemptId a ha
        exact ⟨accepted, hs.congr hr hans hsnap⟩
      · refine ⟨_, .fresh hans fun row hrow he => ?_⟩
        rw [hr] at hrow
        obtain ⟨a, ha⟩ := h.owned row hrow
        rw [he, hnone] at ha
        cases ha
    · intro row hrow
      rw [hr] at hrow
      obtain ⟨a, ha⟩ := h.owned row hrow
      obtain ⟨a', ha', -⟩ := hc.row ha
      exact ⟨a', ha'⟩
  | @save c a question record receipt hw hdb =>
    subst hdb
    have hfind (attemptId : String) : (c.write db a record receipt).findAttempt attemptId = _ :=
      SaveCommand.write_attempt hw.found attemptId
    constructor
    · intro attemptId a' ha'
      rw [hfind] at ha'
      by_cases hid : attemptId = c.context.attemptId
      · subst hid
        rw [if_pos rfl] at ha'
        obtain rfl := Option.some.inj ha'
        obtain ⟨accepted, hs⟩ := h.sound _ a hw.found
        exact ⟨_, hs.write hw⟩
      · rw [if_neg hid] at ha'
        obtain ⟨accepted, hs⟩ := h.sound attemptId a' ha'
        exact ⟨accepted, hs.write_other hid⟩
    · intro row hrow
      rw [hfind]
      split
      · exact ⟨_, rfl⟩
      · rename_i hid
        rcases List.mem_append.mp hrow with hrow | hrow
        · exact h.owned row hrow
        · rw [List.mem_singleton.mp hrow] at hid
          exact absurd rfl hid

theorem Reachable.storedSound {db : Db} (h : Reachable db) : StoredSound db := by
  refine h.invariant (fun db hi => ⟨?_, ?_⟩) storedSound_change
  · intro attemptId a ha
    rw [hi.findAttempt] at ha
    cases ha
  · intro row hrow
    rw [hi.answerReceipts] at hrow
    cases hrow

/-! ## One served save -/

/-- The attempt takes saves: it is in flight and its effective deadline is ahead. -/
def TakesSaves (db : Db) (attemptId : String) (now : Int) : Prop :=
  ∃ a ∈ db.findAttempt attemptId, (a.status = .inProgress ∨ a.status = .disrupted) ∧
    isAttemptDeadlineExpired db.exam.closeAt a.deadlineAt now = .ok false

instance (db : Db) (attemptId : String) (now : Int) : Decidable (TakesSaves db attemptId now) :=
  inferInstanceAs (Decidable (∃ a ∈ db.findAttempt attemptId, _))

/-- While the attempt takes saves, the save route answers with the decision on
the stored answers and writes what it accepts. -/
theorem saveAttempt_ok {db db' : Db} {candidateId : String} {request : SaveAnswerRequest} {now : Int}
    {validate : QuestionSnapshot → CanonicalizeAnswer} {res : ProcessSaveResult}
    (ht : TakesSaves db request.attemptId now)
    (h : saveAttemptAnswer db candidateId request now validate = .ok (res, db')) :
    ∃ (c : SaveCommand) (a : ExamAttempt) (question : QuestionSnapshot), c.request = request ∧
      c.context.attemptId = request.attemptId ∧ db.findAttempt request.attemptId = some a ∧
      findSnapshotQuestion a.questionSnapshot request.questionId = some question ∧
      (c.state db a).Mutable ∧
      res = processSaveAnswer (c.state db a) request (some (validate question)) ∧
      ((∀ v t w, res ≠ .accepted v t (some w)) → db' = db) ∧
      ∀ v t record receipt, res = .accepted v t (some (record, receipt)) →
      db' = c.write db a record receipt := by
  obtain ⟨a, ha, hs, hexp⟩ := ht
  rw [Option.mem_def] at ha
  simp only [saveAttemptAnswer, prepareReconciledAttemptMutation, bind_eq_ok, require_eq_ok,
    orThrow_eq_ok, exists_const, pure_eq_ok] at h
  obtain ⟨cap, hlock, x, -, _, ⟨⟨r, db₁⟩, hrec, exam, hexam, d, hd, rfl⟩, -, hsave⟩ := h
  obtain ⟨y, hy, hlocks, -⟩ := lock_eq_ok.mp hlock
  obtain ⟨b, hb, hcase⟩ := reconcile_ok hrec
  have hcap : cap.attemptId = request.attemptId := hlocks.attempt.trans hy
  rw [hcap] at hb
  obtain rfl : a = b := Option.some.inj (ha.symm.trans hb)
  rcases hcase with ⟨rfl, rfl⟩ | ⟨d', events, hdue, -⟩
  · obtain ⟨-, rfl⟩ := Db.findExam_eq_some.mp hexam
    let c : SaveCommand :=
      { context := { attemptId := cap.attemptId, checkedAt := now, effectiveDeadline := d }
        request := request
        canonicalize := some validate }
    obtain ⟨x, question, hx, -, hq, hdec, hw⟩ := saveStep_decision (c := c) hsave
    obtain rfl : r = x := Option.some.inj (ha.symm.trans (hcap ▸ hx))
    have hunexpired : ¬ ∃ t ∈ d, t ≤ now := by
      rintro ⟨t, rfl, hle⟩
      simp [isAttemptDeadlineExpired, hd, hle] at hexp
    have hmut : (c.state db₁ r).Mutable := by
      refine ⟨?_, ?_, ?_, hunexpired⟩
      all_goals
        show r.status ≠ _
        rcases hs with hs | hs <;> simp [hs]
    exact ⟨c, r, question, rfl, hcap, ha, hq, hmut, hdec, saveStep_unwritten (c := c) hsave, hw⟩
  · have htrue := expired_true hdue.deadline hdue.due
    rw [hexp] at htrue
    cases htrue

end

/-! ## The stored answer of one question -/

def Db.storedRecord (db : Db) (attemptId questionId : String) : Option AnswerRecord :=
  (db.findAttempt attemptId).bind fun a => findRecord a.answers questionId

def Db.storedAnswer (db : Db) (attemptId questionId : String) : Option Json :=
  (db.storedRecord attemptId questionId).map (·.answer)

def Db.storedVersion (db : Db) (attemptId questionId : String) : Nat :=
  ((db.storedRecord attemptId questionId).map (·.version)).getD 0

structure Keeps (db db' : Db) (attemptId questionId : String) : Prop where
  stored : db'.storedRecord attemptId questionId = db.storedRecord attemptId questionId
  receipts : ∀ s, db'.findAnswerReceipt attemptId questionId s = db.findAnswerReceipt attemptId
    questionId s

theorem Keeps.refl (db : Db) (attemptId questionId : String) : Keeps db db attemptId questionId :=
  ⟨rfl, fun _ => rfl⟩

theorem Keeps.answer {db db' : Db} {attemptId questionId : String}
    (h : Keeps db db' attemptId questionId) :
    db'.storedAnswer attemptId questionId = db.storedAnswer attemptId questionId := by
  rw [Db.storedAnswer, h.stored]
  rfl

theorem Keeps.version {db db' : Db} {attemptId questionId : String}
    (h : Keeps db db' attemptId questionId) :
    db'.storedVersion attemptId questionId = db.storedVersion attemptId questionId := by
  rw [Db.storedVersion, h.stored]
  rfl

inductive Served (db db' : Db) (request : SaveAnswerRequest) (canonicalize : CanonicalizeAnswer) :
    SaveAnswerResponse → Prop
  | refused {reason : ConflictReason} {v : Nat} {t : Int}
      (h : Keeps db db' request.attemptId request.questionId)
      (hreason : reason ≠ .staleVersion) : Served db db' request canonicalize
        (.rejected reason v t none)
  | stale {t : Int} (h : Keeps db db' request.attemptId request.questionId)
      (hbase : request.baseVersion < db.storedVersion request.attemptId request.questionId) :
      Served db db' request canonicalize
        (.rejected .staleVersion (db.storedVersion request.attemptId request.questionId) t
          (db.storedAnswer request.attemptId request.questionId))
  | accepted {t : Int} {answer : Json}
      (hbase : request.baseVersion = db.storedVersion request.attemptId request.questionId)
      (hcanonical : canonicalize request.answer = .ok answer)
      (hanswer : db'.storedAnswer request.attemptId request.questionId = some answer)
      (hversion : db'.storedVersion request.attemptId request.questionId =
        db.storedVersion request.attemptId request.questionId + 1)
      (hreceipts : ∀ s, s ≠ request.clientSeq →
        db'.findAnswerReceipt request.attemptId request.questionId s =
          db.findAnswerReceipt request.attemptId request.questionId s) :
      Served db db' request canonicalize
        (.accepted (db.storedVersion request.attemptId request.questionId + 1) t)

theorem write_storedRecord {c : SaveCommand} {db : Db} {a : ExamAttempt} {record : AnswerRecord}
    {receipt : AnswerReceipt} (ha : db.findAttempt c.context.attemptId = some a) (q : String) :
    (c.write db a record receipt).storedRecord c.context.attemptId q =
      if q = c.request.questionId then some { record with questionId := c.request.questionId }
      else db.storedRecord c.context.attemptId q := by
  rw [Db.storedRecord, SaveCommand.write_attempt ha, if_pos rfl]
  refine (findRecord_applyAcceptedResult a.answers record c.request q).trans ?_
  rw [Db.storedRecord, ha]
  rfl

theorem storedRecord_of_found {db : Db} {attemptId : String} {a : ExamAttempt}
    (ha : db.findAttempt attemptId = some a) (q : String) :
    db.storedRecord attemptId q = findRecord a.answers q := by
  rw [Db.storedRecord, ha]
  rfl

section
variable [Host]

theorem processSaveAnswer_fresh {state : AnswerState} {request : SaveAnswerRequest}
    {canonicalize : CanonicalizeAnswer} (hm : state.Mutable) (hk : state.knownReceipt = none) :
    (∃ v t, processSaveAnswer state request (some canonicalize) = .rejected v t .invalidAnswer none) ∨
      ∃ answer, canonicalize request.answer = .ok answer ∧
        ((request.baseVersion < versionOf state.answers request.questionId ∧
            processSaveAnswer state request (some canonicalize) =
              .rejected (versionOf state.answers request.questionId) state.now .staleVersion
                ((findRecord state.answers request.questionId).map (·.answer))) ∨
          (∃ v t latest, processSaveAnswer state request (some canonicalize) = .rejected v t
              .futureVersion latest) ∨
          (request.baseVersion = versionOf state.answers request.questionId ∧
            ∃ record receipt, record.answer = answer ∧
              processSaveAnswer state request (some canonicalize) =
                .accepted (versionOf state.answers request.questionId + 1) state.now
                  (some (record, receipt)))) := by
  unfold processSaveAnswer
  rw [if_neg hm.not_voided, if_neg (not_or.mpr ⟨hm.not_submitted, hm.not_graded⟩),
    if_neg hm.not_expired]
  dsimp only [applyCanonicalize]
  cases hc : canonicalize request.answer with
  | error e => exact .inl ⟨_, _, rfl⟩
  | ok answer =>
    refine .inr ⟨answer, rfl, ?_⟩
    simp only [hk]
    by_cases hlo : request.baseVersion < versionOf state.answers request.questionId
    · exact .inl ⟨hlo, if_pos hlo⟩
    · rw [if_neg hlo]
      by_cases hhi : (versionOf state.answers request.questionId : Int) < request.baseVersion
      · exact .inr (.inl ⟨_, _, _, if_pos hhi⟩)
      · rw [if_neg hhi]
        exact .inr (.inr ⟨by omega, _, _, rfl, rfl⟩)

section
variable {db db' : Db} {candidateId : String} {request : SaveAnswerRequest} {now : Int}
  {validate : QuestionSnapshot → CanonicalizeAnswer} {res : ProcessSaveResult}

/-- A served save keeps the attempt's questions, and every other question. -/
theorem serve_keeps (ht : TakesSaves db request.attemptId now)
    (h : saveAttemptAnswer db candidateId request now validate = .ok (res, db')) :
    (∀ q, q ≠ request.questionId → Keeps db db' request.attemptId q) ∧
      ∀ a, db.findAttempt request.attemptId = some a →
        ∃ a', db'.findAttempt request.attemptId = some a' ∧
        a'.questionSnapshot = a.questionSnapshot := by
  obtain ⟨c, a, question, rfl, hid, ha, -, -, hdec, hkeep, hwrite⟩ := saveAttempt_ok ht h
  by_cases hres : ∃ v t w, res = .accepted v t (some w)
  · obtain ⟨v, t, ⟨record, receipt⟩, rfl⟩ := hres
    obtain rfl := hwrite v t record receipt rfl
    have hacc := (processSaveAnswer_written hdec.symm).1
    rw [← hid] at ha ⊢
    have hreceipt : receipt.questionId = c.request.questionId := by rw [hacc.receipt_eq]
    have hfresh : db.findAnswerReceipt c.context.attemptId receipt.questionId
        receipt.clientSeq = none := by
      rw [hacc.receipt_eq]
      exact hacc.fresh
    constructor
    · intro q hq
      refine ⟨by rw [write_storedRecord ha, if_neg hq], fun s => ?_⟩
      rw [SaveCommand.write_receipt hfresh, if_neg]
      rintro heq
      exact hq ((congrArg (·.2.1) heq).trans hreceipt)
    · intro b hb
      obtain rfl : a = b := Option.some.inj (ha.symm.trans hb)
      exact ⟨_, (SaveCommand.write_attempt ha _).trans (if_pos rfl), rfl⟩
  · have hsame := hkeep fun v t w he => hres ⟨v, t, w, he⟩
    subst hsame
    exact ⟨fun _ _ => .refl .., fun b hb => ⟨b, hb, rfl⟩⟩

/-- A served save with an unknown key is refused, stale, or accepted and stored. -/
theorem serve_served (ht : TakesSaves db request.attemptId now)
    (hk : db.findAnswerReceipt request.attemptId request.questionId request.clientSeq = none)
    {b : ExamAttempt} {question : QuestionSnapshot} (hb : db.findAttempt request.attemptId = some b)
    (hq : findSnapshotQuestion b.questionSnapshot request.questionId = some question)
    (h : saveAttemptAnswer db candidateId request now validate = .ok (res, db')) :
    Served db db' request (validate question) res.toResponse := by
  obtain ⟨c, a, question', rfl, hid, ha, hq', hmut, hdec, hkeep, hwrite⟩ := saveAttempt_ok ht h
  obtain rfl : a = b := Option.some.inj (ha.symm.trans hb)
  obtain rfl : question = question' := Option.some.inj (hq.symm.trans hq')
  have hfresh : (c.state db a).knownReceipt = none := by
    rw [← hk, ← hid]
    rfl
  have hversion : db.storedVersion c.request.attemptId c.request.questionId = versionOf a.answers
      c.request.questionId := by
    rw [Db.storedVersion, storedRecord_of_found ha]
    rfl
  have hanswer : db.storedAnswer c.request.attemptId c.request.questionId =
      (findRecord a.answers c.request.questionId).map (·.answer) := by
    rw [Db.storedAnswer, storedRecord_of_found ha]
  have hsame : (∀ v t w, res ≠ .accepted v t (some w)) →
      Keeps db db' c.request.attemptId c.request.questionId := by
    intro hne
    rw [hkeep hne]
    exact .refl ..
  rcases processSaveAnswer_fresh hmut hfresh with ⟨v, t, hres⟩ | ⟨answer, hcanonical, hcase⟩
  · rw [hres] at hdec
    subst hdec
    exact .refused (hsame (by simp)) (by simp)
  · rcases hcase with ⟨hbase, hres⟩ | ⟨v, t, latest, hres⟩ | ⟨hbase, record, receipt, hrec, hres⟩
    · rw [hres] at hdec
      subst hdec
      change Served db db' c.request _
        (.rejected .staleVersion (versionOf a.answers c.request.questionId) _
        ((findRecord a.answers c.request.questionId).map (·.answer)))
      rw [← hversion, ← hanswer]
      exact .stale (hsame (by simp)) (by rw [hversion]; exact hbase)
    · rw [hres] at hdec
      subst hdec
      exact .refused (hsame (by simp)) (by simp)
    · rw [hres] at hdec
      subst hdec
      obtain rfl := hwrite _ _ record receipt rfl
      have hacc := (processSaveAnswer_written hres).1
      have hstored : (c.write db a record receipt).storedRecord c.context.attemptId
          c.request.questionId = _ :=
        write_storedRecord (hid.symm ▸ ha) c.request.questionId
      rw [if_pos rfl, hid] at hstored
      change Served db _ c.request _ (.accepted (versionOf a.answers c.request.questionId + 1) _)
      rw [← hversion]
      refine .accepted (by rw [hversion]; exact hbase) hcanonical ?_ ?_ ?_
      · rw [Db.storedAnswer, hstored, ← hrec]
        rfl
      · rw [Db.storedVersion, hstored, hversion]
        exact hacc.record_version
      · intro s hs
        have hunknown : db.findAnswerReceipt c.context.attemptId receipt.questionId
            receipt.clientSeq = none := by
          rw [hacc.receipt_eq]
          exact hacc.fresh
        rw [← hid, SaveCommand.write_receipt hunknown, if_neg]
        rw [hacc.receipt_eq]
        intro heq
        exact hs (congrArg (·.2.2) heq)

end

end

end ExamSystem
