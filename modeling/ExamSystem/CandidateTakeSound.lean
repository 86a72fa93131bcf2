import ExamSystem.CandidateTake
import ExamSystem.LegacyRecovery
import ExamSystem.BirthSound

/-!
# What a taken snapshot says

In flight and after the freeze alike, a question is shown with the answer of
its last accepted save. Between two snapshots only an accepted save of the
question changes it, a grader is given what was shown, and a save from the
counters shown is accepted and shown by the next snapshot.
-/

namespace ExamSystem.Take

open Tx

section
variable [Host]

/-! ## Rows of a run -/

/-- A row in flight or frozen, whose frozen answers are those of its records. -/
structure RowKept (a : ExamAttempt) : Prop where
  status : a.status = .inProgress ∨ a.status = .disrupted ∨ a.Frozen
  frozen : a.Frozen →
    a.submittedAnswers = some (buildSubmittedAnswersSnapshot a.answers a.questionSnapshot)

def RowsKept (db : Db) : Prop := ∀ attemptId a, db.findAttempt attemptId = some a → RowKept a

omit [Host] in
theorem RowKept.open {a : ExamAttempt} (h : a.status = .inProgress ∨ a.status = .disrupted) :
    RowKept a := by
  refine ⟨h.imp_right .inl, fun hf => ?_⟩
  rcases hf with hf | hf <;> rcases h with h | h <;> rw [h] at hf <;> cases hf

theorem rowsKept_change (now : Int) (db db' : Db) (h : RowsKept db) (hc : Change now db db') :
    RowsKept db' := by
  intro attemptId a' ha'
  rcases hc.row_cases ha' with ⟨input, hcr, -⟩ | ⟨a, ha, hstep⟩
  · exact .open (.inl hcr.status)
  · have hkept := h attemptId a ha
    cases hstep with
    | same => exact hkept
    | save answers checkedAt hs hg hv =>
      rcases hkept.status with hs' | hs' | hf
      · exact .open (.inl hs')
      · exact .open (.inr hs')
      · exact absurd hf (not_or.mpr ⟨hs, hg⟩)
    | touch hs => exact .open (.inl hs)
    | detect _ hs => exact .open (.inr rfl)
    | restore hs => exact .open (.inl rfl)
    | extend hadj _ => exact .open hadj.active
    | freeze _ _ _ _ => exact ⟨.inr (.inr (.inl rfl)), fun _ => rfl⟩
    | close hcl _ => exact ⟨.inr (.inr (.inr rfl)), fun _ => hkept.frozen (.inl hcl.submitted)⟩

theorem rowsKept {db : Db} (h : Reachable db) : RowsKept db :=
  h.invariant (fun db hi attemptId a ha => by rw [hi.findAttempt] at ha; cases ha) rowsKept_change

def RecordsWritten (db : Db) : Prop := ∀ attemptId a, db.findAttempt attemptId = some a →
    ∀ r ∈ a.answers, 0 < r.version

theorem recordsWritten_change (now : Int) (db db' : Db) (h : RecordsWritten db)
    (hc : Change now db db') : RecordsWritten db' := by
  intro attemptId a' ha' r hr
  cases hc.answers with
  | same _ hrows =>
    rcases hrows attemptId a' ha' with ⟨a, ha, hans, -⟩ | ⟨-, hans⟩
    · exact h attemptId a ha r (hans ▸ hr)
    · rw [hans] at hr
      cases hr
  | @save c a question record receipt hw hdb =>
    subst hdb
    rw [SaveCommand.write_attempt hw.found] at ha'
    by_cases hid : attemptId = c.context.attemptId
    · rw [if_pos hid] at ha'
      obtain rfl := Option.some.inj ha'
      rcases (mem_applyAcceptedResult hw.acceptance.record_question).mp hr with rfl | ⟨hr, -⟩
      · rw [hw.acceptance.record_version]
        exact Nat.succ_pos _
      · exact h _ a hw.found r hr
    · rw [if_neg hid] at ha'
      exact h attemptId a' ha' r hr

theorem recordsWritten {db : Db} (h : Reachable db) : RecordsWritten db :=
  h.invariant (fun db hi attemptId a ha => by rw [hi.findAttempt] at ha; cases ha) recordsWritten_change

/-! ## The routed answer -/

def storedValue (a : ExamAttempt) (questionId : String) : Json :=
  orNull ((findRecord a.answers questionId).map (·.answer))

section
variable {db : Db} {a : ExamAttempt} {accepted : String → Nat} {questionId : String}
    {clientSeqByQuestion : String → Option Int}

omit [Host] in
theorem frozenAnswer_build (answers : List AnswerRecord) (questions : List QuestionSnapshot)
    (hq : questionId ∈ questions.map (·.originalQuestionId)) :
    frozenAnswer (buildSubmittedAnswersSnapshot answers questions) questionId = some (orNull
        (lastAnswer answers questionId)) := by
  unfold frozenAnswer buildSubmittedAnswersSnapshot
  dsimp only
  cases hfind : List.find? _ _ with
  | none =>
    -- the sort keeps the questions
    obtain ⟨q, hmem, hid⟩ := List.mem_map.mp hq
    have hsorted := (List.mem_insertionSort (fun a b : QuestionSnapshot => a.order ≤ b.order)).mpr hmem
    have hnone := List.find?_eq_none.mp hfind _ (List.mem_reverse.mpr (List.mem_map_of_mem hsorted))
    simp [hid] at hnone
  | some x =>
    have hkey : x.questionId = questionId := by simpa using List.find?_some hfind
    obtain ⟨q, -, rfl⟩ := List.mem_map.mp (List.mem_reverse.mp (List.mem_of_find?_eq_some hfind))
    dsimp only at hkey
    rw [Option.map_some, hkey]

theorem lastAnswer_stored (h : AnswersSound db a.id a accepted) (questionId : String) :
    orNull (lastAnswer a.answers questionId) = storedValue a questionId := by
  rw [storedValue, ← lastRecord_eq h questionId]
  rfl

theorem routeAnswer_frozen (clientSeqByQuestion : String → Option Int)
    (h : AnswersSound db a.id a accepted) (hkept : RowKept a) (hf : a.Frozen)
    (hq : questionId ∈ a.questionSnapshot.map (·.originalQuestionId)) :
    routeAnswer a clientSeqByQuestion questionId =
      { unanswered with value := storedValue a questionId, source := .submitted } := by
  have hvalue : (a.submittedAnswers.bind fun s => frozenAnswer s questionId) = some (storedValue a
      questionId) := by
    rw [hkept.frozen hf, ← lastAnswer_stored h]
    exact frozenAnswer_build a.answers a.questionSnapshot hq
  unfold routeAnswer
  rcases hf with hf | hf <;> simp only [hf, hvalue]

theorem routeAnswer_open (clientSeqByQuestion : String → Option Int) (questionId : String)
    (h : AnswersSound db a.id a accepted) (hs : a.status = .inProgress ∨ a.status = .disrupted) :
    routeAnswer a clientSeqByQuestion questionId =
      match findRecord a.answers questionId with
      | some r =>
        { value := r.answer, source := .draft, clientSeq := clientSeqByQuestion questionId,
          version := some r.version }
      | none => unanswered := by
  unfold routeAnswer
  rw [lastRecord_eq h]
  cases findRecord a.answers questionId with
  | none => rcases hs with hs | hs <;> rw [hs]
  | some r => rcases hs with hs | hs <;> rw [hs]

theorem routeAnswer_value (h : AnswersSound db a.id a accepted) (hkept : RowKept a)
    (hq : questionId ∈ a.questionSnapshot.map (·.originalQuestionId)) :
    (routeAnswer a clientSeqByQuestion questionId).value = storedValue a questionId := by
  have hopen : a.status = .inProgress ∨ a.status = .disrupted → _ := fun hs => by
    show (routeAnswer a clientSeqByQuestion questionId).value = storedValue a questionId
    rw [routeAnswer_open _ _ h hs, storedValue]
    cases findRecord a.answers questionId <;> rfl
  rcases hkept.status with hs | hs | hf
  · exact hopen (.inl hs)
  · exact hopen (.inr hs)
  · rw [routeAnswer_frozen _ h hkept hf hq]

end

/-! ## Records and receipts -/

section
variable {db : Db} {a : ExamAttempt} {accepted : String → Nat} {questionId : String}

theorem receipts_length (h : AnswersSound db a.id a accepted) (q : String) :
    (db.receiptsOf a.id q).length = accepted q := by
  have hlen := congrArg List.length (h.receipt_versions q)
  simpa using hlen

theorem record_of_receipts (questionId : String) (h : AnswersSound db a.id a accepted)
    (hwritten : ∀ r ∈ a.answers, 0 < r.version) :
    findRecord a.answers questionId = none ↔ db.receiptsOf a.id questionId = [] := by
  rw [← List.length_eq_zero_iff, receipts_length h]
  constructor
  · intro hnone
    exact h.no_record questionId ((Rows.row_eq_none _).mp hnone)
  · intro hzero
    refine (Rows.row_eq_none _).mpr fun r hr hq => ?_
    have hpos := hwritten r hr
    rw [h.record_version r hr, hq, hzero] at hpos
    exact Nat.lt_irrefl 0 hpos

theorem record_of_last (h : AnswersSound db a.id a accepted) {r : AnswerRecord}
    (hr : findRecord a.answers questionId = some r) :
    r.version = (db.receiptsOf a.id questionId).length ∧
      ∀ receipt ∈ (db.receiptsOf a.id questionId).getLast?,
      receipt.answerIdentity = canonicalAnswerIdentity r.answer := by
  have hmem : r ∈ a.answers := Rows.mem_of_row _ hr
  have hq : r.questionId = questionId := Rows.key_of_row _ hr
  have hversion : r.version = accepted questionId := hq ▸ h.record_version r hmem
  refine ⟨hversion.trans (receipts_length h questionId).symm, fun receipt hlast => ?_⟩
  have hreceipt : receipt ∈ db.receiptsOf a.id r.questionId := hq.symm ▸ List.mem_of_getLast? hlast
  refine (h.receipt_of_record r hmem receipt hreceipt ?_).1
  -- the versions of the receipts are the numbers from one
  have hmap : ((db.receiptsOf a.id questionId).map (·.version)).getLast? = some receipt.version := by
    rw [List.getLast?_map, hlast]
    rfl
  rw [h.receipt_versions, List.getLast?_range'] at hmap
  split at hmap
  · cases hmap
  · have := Option.some.inj hmap
    omega

end

/-! ## What a run keeps of an answer -/

/-- The receipts of a question only grow, and its record changes only with them. -/
structure Grows (attemptId questionId : String) (db db' : Db) : Prop where
  receipts : db.receiptsOf attemptId questionId <+: db'.receiptsOf attemptId questionId
  row : ∀ a, db.findAttempt attemptId = some a → ∃ a', db'.findAttempt attemptId = some a' ∧
    a'.questionSnapshot = a.questionSnapshot ∧
    (db'.receiptsOf attemptId questionId = db.receiptsOf attemptId questionId →
      findRecord a'.answers questionId = findRecord a.answers questionId)

section
variable {attemptId questionId : String} {db db₁ db' : Db}

omit [Host] in
theorem Grows.refl (db : Db) : Grows attemptId questionId db db :=
  ⟨List.prefix_rfl, fun a ha => ⟨a, ha, rfl, fun _ => rfl⟩⟩

omit [Host] in
theorem Grows.trans (h : Grows attemptId questionId db db₁) (h' : Grows attemptId questionId db₁ db') :
    Grows attemptId questionId db db' := by
  refine ⟨h.receipts.trans h'.receipts, fun a ha => ?_⟩
  obtain ⟨a₁, ha₁, hq₁, hr₁⟩ := h.row a ha
  obtain ⟨a', ha', hq', hr'⟩ := h'.row a₁ ha₁
  refine ⟨a', ha', hq'.trans hq₁, fun hsame => ?_⟩
  -- the receipts in between are squeezed
  have hmid : db₁.receiptsOf attemptId questionId = db.receiptsOf attemptId questionId := by
    refine (h.receipts.eq_of_length_le ?_).symm
    exact hsame ▸ h'.receipts.length_le
  exact (hr' (hsame.trans hmid.symm)).trans (hr₁ hmid)

theorem Grows.change {now : Int} (hc : Change now db db') : Grows attemptId questionId db db' := by
  cases hc.answers with
  | same hr hrows =>
    have hreceipts : db'.receiptsOf attemptId questionId = db.receiptsOf attemptId questionId := by
      rw [Db.receiptsOf, Db.receiptsOf, hr]
    refine ⟨hreceipts ▸ List.prefix_rfl, fun a ha => ?_⟩
    obtain ⟨a', ha', -⟩ := hc.row ha
    rcases hrows attemptId a' ha' with ⟨b, hb, hans, hsnap⟩ | ⟨hnone, -⟩
    · obtain rfl : a = b := Option.some.inj (ha.symm.trans hb)
      exact ⟨a', ha', hsnap, fun _ => by rw [hans]⟩
    · rw [ha] at hnone
      cases hnone
  | @save c b question record receipt hw hdb =>
    subst hdb
    have hreceipt : receipt.questionId = c.request.questionId := by rw [hw.acceptance.receipt_eq]
    have hgrown : (c.write db b record receipt).receiptsOf attemptId questionId = db.receiptsOf
        attemptId questionId ++
          if c.context.attemptId = attemptId ∧ receipt.questionId = questionId then [receipt] else [] :=
      SaveCommand.write_receiptsOf attemptId questionId
    refine ⟨hgrown ▸ List.prefix_append _ _, fun a ha => ?_⟩
    rw [SaveCommand.write_attempt hw.found]
    by_cases hid : attemptId = c.context.attemptId
    · obtain rfl : a = b := Option.some.inj (ha.symm.trans (hid ▸ hw.found))
      refine ⟨_, if_pos hid, rfl, fun hsame => ?_⟩
      -- the receipts of the question that was saved have grown
      have hne : questionId ≠ c.request.questionId := by
        intro hq
        rw [hgrown, if_pos ⟨hid.symm, hreceipt.trans hq.symm⟩] at hsame
        have hlen := congrArg List.length hsame
        simp at hlen
      exact (findRecord_applyAcceptedResult a.answers record c.request questionId).trans (if_neg hne)
    · exact ⟨a, (if_neg hid).trans ha, rfl, fun _ => rfl⟩

theorem Grows.changes (h : Relation.ReflTransGen SomeChange db db') :
    Grows attemptId questionId db db' := by
  induction h with
  | refl => exact .refl db
  | tail _ hc ih => exact hc.elim fun _ hc => ih.trans (.change hc)

theorem grows_run (attemptId questionId : String) (db : Db) (cs : List Command) :
    Grows attemptId questionId db (run Command.step db cs) :=
  .changes (run_changes cs db)

end

/-! ## The view -/

section
variable {db : Db} {a : ExamAttempt} {now : Int} {s : CandidateTakeSnapshot}

omit [Host] in
theorem takeView_ok (h : takeView db a now = .ok s) :
    a.examId = db.exam.id ∧ ∃ d, computeEffectiveDeadline db.exam.closeAt a.deadlineAt = .ok d ∧
      buildCandidateTakeSnapshot a db.exam now (findMaxClientSeq db a.id) = .ok s ∧
      s.canSave = (a.status == .inProgress && !(d.any fun t => t ≤ now)) ∧
      s.questions = a.questionSnapshot.map (buildQuestion a (findMaxClientSeq db a.id)) := by
  simp only [takeView, bind_eq_ok, orThrow_eq_ok] at h
  obtain ⟨exam, hexam, h⟩ := h
  obtain ⟨hid, rfl⟩ := Db.findExam_eq_some.mp hexam
  have hbuild := h
  simp only [buildCandidateTakeSnapshot, bind_eq_ok, pure_eq_ok] at h
  obtain ⟨d, hd, rfl⟩ := h
  exact ⟨hid.symm, d, hd, hbuild, rfl, rfl⟩

omit [Host] in
theorem takeView_ids (h : takeView db a now = .ok s) :
    s.questions.map (·.id) = a.questionSnapshot.map (·.originalQuestionId) := by
  obtain ⟨-, _, -, -, -, hquestions⟩ := takeView_ok h
  rw [hquestions, List.map_map]
  rfl

theorem takeAttempt_ok {attemptId candidateId : String} {db₁ : Db} (hreach : Reachable db)
    (h : takeAttempt db attemptId candidateId now = .ok (a, db₁)) :
    Reachable db₁ ∧ db₁.findAttempt attemptId = some a ∧ a.id = attemptId ∧
    a.candidateId = candidateId := by
  have hstep : (Command.take attemptId candidateId now).step db = .ok ((), db₁) := by
    simp only [Command.step, h, ok_bind]
    rfl
  obtain ⟨db₀, hi, hrun⟩ := hreach
  refine ⟨⟨db₀, hi, hrun.trans (step_changes _ _ _ _ hstep)⟩, ?_⟩
  simp only [takeAttempt, bind_eq_ok, orThrow_eq_ok, require_eq_ok, exists_const, pure_eq_ok,
    Prod.mk.injEq] at h
  obtain ⟨cap, hlock, x, -, ⟨r, db₂⟩, hrec, hcand, rfl, rfl⟩ := h
  have hfound := reconcile_found hrec
  rw [lock_attemptId hlock] at hfound
  exact ⟨hfound, Db.findAttempt_id hfound, hcand⟩

end

/-! ## What is shown -/

/-- A question as it is shown, given its receipts when the attempt was read and
when the receipts were read. -/
structure Shown (a : ExamAttempt) (receipts later : List AnswerReceipt)
    (q : CandidateTakeQuestion) : Prop where
  nothing : receipts = [] → q.answerValue = .null
  last : ∀ r ∈ receipts.getLast?, r.answerIdentity = canonicalAnswerIdentity q.answerValue
  frozen : a.Frozen → q.answerSource = .submitted ∧ q.currentVersion = none ∧ q.currentClientSeq = none
  fresh : ¬ a.Frozen → receipts = [] → q.answerSource = .none ∧ q.currentVersion = none ∧
    q.currentClientSeq = none
  draft : ¬ a.Frozen → receipts ≠ [] → q.answerSource = .draft ∧
    q.currentVersion = some receipts.length ∧
    ∃ n, q.currentClientSeq = some n ∧ (∃ r ∈ later, r.clientSeq = n) ∧ ∀ r ∈ later, r.clientSeq ≤ n

omit [Host] in
theorem findMaxClientSeq_spec {db : Db} {attemptId q : String} (h : db.receiptsOf attemptId q ≠ []) :
    ∃ n, findMaxClientSeq db attemptId q = some n ∧ (∃ r ∈ db.receiptsOf attemptId q, r.clientSeq = n) ∧
      ∀ r ∈ db.receiptsOf attemptId q, r.clientSeq ≤ n := by
  obtain ⟨x, hx⟩ := List.exists_mem_of_ne_nil _ h
  obtain ⟨n, hn⟩ :=
    Option.isSome_iff_exists.mp
      (List.isSome_max?_of_mem (List.mem_map_of_mem (f := (·.clientSeq)) hx))
  obtain ⟨hmem, hmax⟩ := List.max?_eq_some_iff.mp hn
  obtain ⟨r, hr, hrn⟩ := List.mem_map.mp hmem
  exact ⟨n, hn, ⟨r, hr, hrn⟩, fun r hr => hmax _ (List.mem_map_of_mem hr)⟩

theorem buildQuestion_shown {db db' : Db} {a : ExamAttempt} {accepted : String → Nat}
    {q : QuestionSnapshot} (h : AnswersSound db a.id a accepted) (hkept : RowKept a)
    (hwritten : ∀ r ∈ a.answers, 0 < r.version) (hq : q ∈ a.questionSnapshot)
    (hgrows : Grows a.id q.originalQuestionId db db') :
    Shown a (db.receiptsOf a.id q.originalQuestionId) (db'.receiptsOf a.id q.originalQuestionId)
      (buildQuestion a (findMaxClientSeq db' a.id) q) := by
  have hmem : q.originalQuestionId ∈ a.questionSnapshot.map (·.originalQuestionId) :=
    List.mem_map_of_mem hq
  have hvalue : (buildQuestion a (findMaxClientSeq db' a.id) q).answerValue = storedValue a
      q.originalQuestionId :=
    routeAnswer_value h hkept hmem
  have hrecord := record_of_receipts q.originalQuestionId h hwritten
  have hopen : ¬ a.Frozen → a.status = .inProgress ∨ a.status = .disrupted := by
    intro hf
    rcases hkept.status with hs | hs | hs
    · exact .inl hs
    · exact .inr hs
    · exact absurd hs hf
  constructor
  · intro hnil
    rw [hvalue, storedValue, hrecord.mpr hnil]
    rfl
  · intro r hr
    rw [hvalue, storedValue]
    cases hfind : findRecord a.answers q.originalQuestionId with
    | none =>
      rw [hrecord.mp hfind] at hr
      cases hr
    | some record => exact (record_of_last h hfind).2 r hr
  · intro hf
    have hroute := routeAnswer_frozen (findMaxClientSeq db' a.id) h hkept hf hmem
    simp only [buildQuestion, hroute]
    exact ⟨trivial, rfl, rfl⟩
  · intro hf hnil
    have hroute := routeAnswer_open (findMaxClientSeq db' a.id) q.originalQuestionId h (hopen hf)
    rw [hrecord.mpr hnil] at hroute
    simp only [buildQuestion, hroute]
    exact ⟨rfl, rfl, rfl⟩
  · intro hf hne
    cases hfind : findRecord a.answers q.originalQuestionId with
    | none => exact absurd (hrecord.mp hfind) hne
    | some record =>
      have hroute := routeAnswer_open (findMaxClientSeq db' a.id) q.originalQuestionId h (hopen hf)
      rw [hfind] at hroute
      simp only [buildQuestion, hroute]
      refine ⟨trivial, congrArg some (record_of_last h hfind).1,
        findMaxClientSeq_spec fun hnil => hne ?_⟩
      exact List.prefix_nil.mp (hnil ▸ hgrows.receipts)

/-- Whatever commands run between the transaction of a take and its reads, every
question is shown once, in order, with the answer of its last accepted save as
of the transaction; a draft with the number of those saves and a key that no
receipt exceeds. -/
theorem take_shows_last_saves (db : Db) (hreach : Reachable db) (attemptId candidateId : String)
    (now : Int) (a : ExamAttempt) (db₁ : Db)
    (htake : takeAttempt db attemptId candidateId now = .ok (a, db₁)) (between : List Command)
    (readAt : Int) (s : CandidateTakeSnapshot)
    (hview : takeView (run Command.step db₁ between) a readAt = .ok s) :
    s.questions.map (·.id) = a.questionSnapshot.map (·.originalQuestionId) ∧
      ∀ q ∈ s.questions,
        Shown a (db₁.receiptsOf attemptId q.id)
          ((run Command.step db₁ between).receiptsOf attemptId q.id) q := by
  obtain ⟨hreach₁, ha, rfl, -⟩ := takeAttempt_ok hreach htake
  refine ⟨takeView_ids hview, fun q hq => ?_⟩
  obtain ⟨accepted, hsound⟩ := hreach₁.storedSound.sound a.id a ha
  obtain ⟨-, _, -, -, -, hquestions⟩ := takeView_ok hview
  rw [hquestions] at hq
  obtain ⟨question, hmem, rfl⟩ := List.mem_map.mp hq
  exact buildQuestion_shown hsound (rowsKept hreach₁ a.id a ha)
    (recordsWritten hreach₁ a.id a ha) hmem (grows_run _ _ db₁ between)

/-! ## Between two snapshots -/

section
variable {db : Db} {a : ExamAttempt} {now : Int} {s : CandidateTakeSnapshot}

theorem takeView_values (hreach : Reachable db) (ha : db.findAttempt a.id = some a)
    (h : takeView db a now = .ok s) :
    ∀ q ∈ s.questions, q.id ∈ a.questionSnapshot.map (·.originalQuestionId) ∧
    q.answerValue = storedValue a q.id := by
  intro q hq
  obtain ⟨accepted, hsound⟩ := hreach.storedSound.sound a.id a ha
  obtain ⟨-, _, -, -, -, hquestions⟩ := takeView_ok h
  rw [hquestions] at hq
  obtain ⟨question, hmem, rfl⟩ := List.mem_map.mp hq
  have hid : question.originalQuestionId ∈ a.questionSnapshot.map (·.originalQuestionId) :=
    List.mem_map_of_mem hmem
  exact ⟨hid, routeAnswer_value hsound (rowsKept hreach a.id a ha) hid⟩

omit [Host] in
theorem Progresses.candidateAnswer {row e : AttemptGradingEntry} (h : Progresses row e) :
    e.candidateAnswer = row.candidateAnswer := by
  cases h <;> rfl

theorem entry_value (hreach : Reachable db) (ha : db.findAttempt a.id = some a) (hf : a.Frozen) :
    ∀ e ∈ db.entriesOf a.id, e.candidateAnswer = storedValue a e.questionId := by
  intro e he
  obtain ⟨accepted, hsound⟩ := hreach.storedSound.sound a.id a ha
  obtain ⟨submitted, f, hp⟩ := hreach.worksetsProgress a.id a ha hf
  have hsubmitted : submitted = buildSubmittedAnswersSnapshot a.answers a.questionSnapshot :=
    Option.some.inj (hp.frozen.symm.trans ((rowsKept hreach a.id a ha).frozen hf))
  rw [hp.entries] at he
  obtain ⟨row, hrow, rfl⟩ := List.mem_map.mp he
  have hprog := hp.rows row hrow
  obtain ⟨q, hq, rfl⟩ := List.mem_map.mp hrow
  have hkey : (f ((expectedEntry submitted q).toRow a.id)).questionId = q.originalQuestionId :=
    (congrArg Prod.snd hprog.key).trans (expectedEntry_questionId submitted q)
  have hanswer : ((expectedEntry submitted q).toRow a.id).candidateAnswer = orNull
      (frozenAnswer submitted q.originalQuestionId) := by
    unfold expectedEntry
    by_cases hm : isManualGradedQuestion q = true
    · simp only [hm, if_true]
      rfl
    · simp only [hm]
      rfl
  rw [Progresses.candidateAnswer hprog, hanswer, hkey, hsubmitted,
    frozenAnswer_build _ _ (List.mem_map_of_mem hq),
    lastAnswer_stored hsound]
  rfl

end

/-- Over any run, a question whose receipts did not grow is shown as before, and
once the attempt is frozen its entries hold what is shown. -/
theorem shown_until_saved (db : Db) (hreach : Reachable db) (a : ExamAttempt)
    (ha : db.findAttempt a.id = some a) (cs : List Command) :
    ∃ a', (run Command.step db cs).findAttempt a.id = some a' ∧
      ∀ now now' s s', takeView db a now = .ok s → takeView (run Command.step db cs) a' now' = .ok s' →
        s'.questions.map (·.id) = s.questions.map (·.id) ∧
        (∀ q ∈ s.questions, ∀ q' ∈ s'.questions, q'.id = q.id →
          (run Command.step db cs).receiptsOf a.id q.id = db.receiptsOf a.id q.id →
          q'.answerValue = q.answerValue) ∧
        (a'.Frozen →
          (s'.isEditable = false ∧ s'.canStart = false ∧ s'.canResume = false ∧ s'.canSave = false ∧
            s'.canSubmit = false) ∧
          ∀ e ∈ (run Command.step db cs).entriesOf a.id, ∀ q' ∈ s'.questions, q'.id = e.questionId →
            e.candidateAnswer = q'.answerValue) := by
  obtain ⟨a', ha', hsnap, -⟩ := (grows_run a.id "" db cs).row a ha
  have hid : a'.id = a.id := Db.findAttempt_id ha'
  have hreach' : Reachable (run Command.step db cs) := reachable_run hreach cs
  refine ⟨a', ha', fun now now' s s' hview hview' => ⟨?_, fun q hq q' hq' hqid hsame => ?_,
      fun hf => ⟨?_, ?_⟩⟩⟩
  · rw [takeView_ids hview', takeView_ids hview, hsnap]
  · obtain ⟨-, hvalue⟩ := takeView_values hreach ha hview q hq
    obtain ⟨-, hvalue'⟩ := takeView_values hreach' (hid.symm ▸ ha') hview' q' hq'
    obtain ⟨b, hb, -, hrecord⟩ := (grows_run a.id q.id db cs).row a ha
    obtain rfl : a' = b := Option.some.inj (ha'.symm.trans hb)
    rw [hvalue', hvalue, hqid, storedValue, storedValue, hrecord hsame]
  · obtain ⟨-, d, -, hbuild, -, -⟩ := takeView_ok hview'
    simp only [buildCandidateTakeSnapshot, bind_eq_ok, pure_eq_ok] at hbuild
    obtain ⟨_, -, rfl⟩ := hbuild
    rcases hf with hf | hf <;> simp [hf]
  · intro e he q' hq' hqid
    obtain ⟨-, hvalue'⟩ := takeView_values hreach' (hid.symm ▸ ha') hview' q' hq'
    rw [hvalue', hqid]
    rw [← hid] at he
    exact entry_value hreach' (hid.symm ▸ ha') hf e he

/-! ## Saving from a snapshot -/

structure Editable (db : Db) (a : ExamAttempt) (now : Int) (d : Option Int) : Prop where
  found : db.findAttempt a.id = some a
  status : a.status = .inProgress
  exam : db.exam.id = a.examId
  deadline : computeEffectiveDeadline db.exam.closeAt a.deadlineAt = .ok d
  ahead : ∀ t ∈ d, now < t

namespace Editable

variable {db : Db} {a : ExamAttempt} {now : Int} {d : Option Int} {s : CandidateTakeSnapshot}

theorem take (h : Editable db a now d) (hreach : Reachable db) :
    takeAttempt db a.id a.candidateId now = .ok (a, db) := by
  have hrunning := reconcile_running { enrollmentId := db.enrollment.id, attemptId := a.id }
    (buildResolution a "deadline_terminalization") h.found h.exam h.deadline h.ahead
  simp only [takeAttempt, (hreach.locks h.found).2, ok_bind, h.found, orThrow_some, hrunning,
    require_true]
  rfl

omit [Host] in
theorem view (h : Editable db a now d) : ∃ s, takeView db a now = .ok s ∧ s.canSave = true ∧
    s.questions = a.questionSnapshot.map (buildQuestion a (findMaxClientSeq db a.id)) := by
  have hexam : db.findExam a.examId = some db.exam := Db.findExam_eq_some.mpr ⟨h.exam, rfl⟩
  have hlate : (d.any fun t => decide (t ≤ now)) = false := by
    rw [Option.any_eq_false]
    exact fun t ht => decide_eq_false (not_le.mpr (h.ahead t ht))
  simp only [takeView, hexam, orThrow_some, ok_bind, buildCandidateTakeSnapshot, h.deadline,
    hlate, h.status]
  exact ⟨_, rfl, rfl, rfl⟩

variable {q : String} {question : QuestionSnapshot} {answer canonical : Json} {n : Int}
  {validate : QuestionSnapshot → CanonicalizeAnswer}

def request (a : ExamAttempt) (q : String) (answer : Json) (n : Int) : SaveAnswerRequest :=
  { attemptId := a.id, questionId := q, answer := answer, clientSeq := n,
    baseVersion := versionOf a.answers q }

def record (a : ExamAttempt) (q : String) (canonical : Json) (now : Int) : AnswerRecord :=
  { questionId := q, answer := canonical, version := versionOf a.answers q + 1, savedAt := now }

def receipt (a : ExamAttempt) (q : String) (canonical : Json) (n now : Int) : AnswerReceipt :=
  { questionId := q, clientSeq := n, answerIdentity := canonicalAnswerIdentity canonical,
      version := versionOf a.answers q + 1
    savedAt := now }

def command (a : ExamAttempt) (q : String) (answer : Json) (n now : Int) (d : Option Int)
    (validate : QuestionSnapshot → CanonicalizeAnswer) : SaveCommand :=
  { context := { attemptId := a.id, checkedAt := now, effectiveDeadline := d }
    request := request a q answer n
    canonicalize := some validate }

theorem decision (h : Editable db a now d) (hfresh : db.findAnswerReceipt a.id q n = none)
    (hvalid : validate question answer = .ok canonical) :
    processSaveAnswer ((command a q answer n now d validate).state db a) (request a q answer n)
      (some (validate question)) =
      .accepted (versionOf a.answers q + 1) now (some (record a q canonical now,
          receipt a q canonical n now)) := by
  have hm : ((command a q answer n now d validate).state db a).Mutable := by
    refine ⟨?_, ?_, ?_, fun ⟨t, ht, hle⟩ => absurd (h.ahead t ht) (not_lt.mpr hle)⟩
    all_goals
      show a.status ≠ _
      simp [h.status]
  have hknown : ((command a q answer n now d validate).state db a).knownReceipt = none := hfresh
  unfold processSaveAnswer
  rw [if_neg hm.not_voided, if_neg (not_or.mpr ⟨hm.not_submitted, hm.not_graded⟩),
    if_neg hm.not_expired]
  have hanswer : validate question (request a q answer n).answer = .ok canonical := hvalid
  have hbase : ¬ (request a q answer n).baseVersion < versionOf a.answers
    (request a q answer n).questionId := lt_irrefl _
  have hbase' : ¬ (versionOf a.answers (request a q answer n).questionId : Int) <
      (request a q answer n).baseVersion := lt_irrefl _
  simp only [applyCanonicalize, hanswer, hknown]
  exact (if_neg hbase).trans (if_neg hbase')

theorem written (h : Editable db a now d)
    (hq : findSnapshotQuestion a.questionSnapshot q = some question)
    (hfresh : db.findAnswerReceipt a.id q n = none)
    (hvalid : validate question answer = .ok canonical) :
    Written (command a q answer n now d validate) db a question (record a q canonical now)
      (receipt a q canonical n now) :=
  ⟨h.found, rfl, hq, (processSaveAnswer_written (h.decision hfresh hvalid)).1⟩

theorem save (h : Editable db a now d) (hreach : Reachable db)
    (hq : findSnapshotQuestion a.questionSnapshot q = some question)
    (hfresh : db.findAnswerReceipt a.id q n = none) (hn : 0 ≤ n) (hfits : FitsInteger n)
    (hvalid : validate question answer = .ok canonical) (hnul : canonical.hasNul = false) :
    saveAttemptAnswer db a.candidateId (request a q answer n) now validate =
      .ok (.accepted (versionOf a.answers q + 1) now (some (record a q canonical now,
            receipt a q canonical n now)),
        (command a q answer n now d validate).write db a (record a q canonical now)
          (receipt a q canonical n now)) := by
  have hrunning := reconcile_running { enrollmentId := db.enrollment.id, attemptId := a.id }
    (buildResolution a "deadline_terminalization") h.found h.exam h.deadline h.ahead
  have hexam : db.findExam a.examId = some db.exam := Db.findExam_eq_some.mpr ⟨h.exam, rfl⟩
  have happend : (db.updateAttempt a.id
      (·.recordSave (applyAcceptedResult a.answers (record a q canonical now)
      (request a q answer n)) now)).appendAnswerReceipt a.id (receipt a q canonical n now) = .ok _ :=
    Db.appendAnswerReceipt_eq_ok.mpr ⟨hfits, hn, hfresh, rfl⟩
  have hdecision := h.decision hfresh hvalid
  simp only [SaveCommand.state, command, request] at hdecision
  simp only [saveAttemptAnswer, prepareReconciledAttemptMutation, saveAnswer, request,
    (hreach.locks h.found).2, ok_bind, h.found,
    orThrow_some, hrunning, hexam, h.deadline, require_true, hq, Option.map_some,
    Db.findAnswerReceiptByKey, hfits, hdecision, pure, Except.pure]
  rw [request] at happend
  rw [require_true (show (record a q canonical now).answer.hasNul = false from hnul)]
  simp only [happend, ok_bind]
  rfl

/-- The attempt stays editable. -/
theorem write (h : Editable db a now d) (q : String) (answer canonical : Json) (n : Int)
    (validate : QuestionSnapshot → CanonicalizeAnswer) :
    Editable ((command a q answer n now d validate).write db a (record a q canonical now)
        (receipt a q canonical n now))
      (a.recordSave (applyAcceptedResult a.answers (record a q canonical now)
            (request a q answer n)) now) now d :=
  ⟨(SaveCommand.write_attempt h.found a.id).trans (if_pos rfl), h.status, h.exam, h.deadline, h.ahead⟩

end Editable

end

/-! ## A sample attempt -/

def sampleRequest (answer : String) (clientSeq baseVersion : Int) : SaveAnswerRequest :=
  { attemptId := "attempt", questionId := "q1", answer := .str (js answer), clientSeq := clientSeq,
    baseVersion := baseVersion }

def sampleAnswered : Db :=
  run (@Command.step sampleHost) sampleDb
    [.save "candidate" (sampleRequest "b" 7 0) 1000 fun _ => .ok]

theorem sampleAnswered_reachable : @Reachable sampleHost sampleAnswered :=
  @reachable_run sampleHost sampleDb sampleDb_reachable _

theorem take_shows_last_saves_sample :
    ∃ a db₁ s, @takeAttempt sampleHost sampleAnswered "attempt" "candidate" 2000 = .ok (a, db₁) ∧
      takeView db₁ a 2000 = .ok s ∧ s.questions.map (·.currentVersion) = [some 1, none] ∧
      ∀ q ∈ s.questions, @Shown sampleHost a (db₁.receiptsOf "attempt" q.id)
        (db₁.receiptsOf "attempt" q.id) q := by
  let _ : Host := sampleHost
  obtain ⟨⟨a, db₁⟩, htake, hview⟩ : ∃ p, takeAttempt sampleAnswered "attempt" "candidate" 2000 = .ok p ∧
      succeeds (takeView p.2 p.1 2000)
        (fun s => decide (s.questions.map (·.currentVersion) = [some 1, none])) = true :=
    succeeds_iff.mp (by decide +kernel)
  obtain ⟨s, hs, hversions⟩ := succeeds_iff.mp hview
  obtain ⟨-, hshown⟩ :=
    take_shows_last_saves sampleAnswered sampleAnswered_reachable "attempt" "candidate" 2000 a db₁
      htake [] 2000 s hs
  exact ⟨a, db₁, s, htake, hs, of_decide_eq_true hversions, hshown⟩

def sampleAnsweredRow : ExamAttempt := (sampleAnswered.findAttempt "attempt").getD sampleAttempt

theorem sampleAnsweredRow_found :
    sampleAnswered.findAttempt sampleAnsweredRow.id = some sampleAnsweredRow := by decide +kernel

/-- The attempt is handed in, and the grader is given the answer that was shown. -/
theorem shown_until_saved_sample :
    let db' := run (@Command.step sampleHost) sampleAnswered [.submit "attempt" "candidate" 3000]
    ∃ a' s s', db'.findAttempt sampleAnsweredRow.id = some a' ∧
      takeView sampleAnswered sampleAnsweredRow 2000 = .ok s ∧
      takeView db' a' 4000 = .ok s' ∧ s'.canSave = false ∧
      s'.questions.map (·.answerValue) = [.str (js "b"), .null] ∧
      ∀ e ∈ db'.entriesOf sampleAnsweredRow.id, ∀ q' ∈ s'.questions, q'.id = e.questionId →
      e.candidateAnswer = q'.answerValue := by
  let _ : Host := sampleHost
  intro db'
  obtain ⟨a', ha', hshown⟩ :=
    shown_until_saved sampleAnswered sampleAnswered_reachable sampleAnsweredRow
      sampleAnsweredRow_found
    [.submit "attempt" "candidate" 3000]
  obtain ⟨s, hs, -⟩ :=
    succeeds_iff.mp (show succeeds (takeView sampleAnswered sampleAnsweredRow 2000)
        (fun _ => true) = true by decide +kernel)
  have hafter : ((db'.findAttempt sampleAnsweredRow.id).any fun a => decide (a.status = .submitted) &&
      succeeds (takeView db' a 4000) fun s =>
        decide (s.questions.map (·.answerValue) = [.str (js "b"), .null])) = true := by
    decide +kernel
  rw [show db'.findAttempt sampleAnsweredRow.id = some a' from ha', Option.any_some,
    Bool.and_eq_true] at hafter
  obtain ⟨s', hs', hvalues⟩ := succeeds_iff.mp hafter.2
  obtain ⟨-, -, hfrozen⟩ := hshown 2000 4000 s s' hs hs'
  obtain ⟨⟨-, -, -, hsave, -⟩, hentries⟩ := hfrozen (.inl (of_decide_eq_true hafter.1))
  exact ⟨a', s, s', ha', hs, hs', hsave, of_decide_eq_true hvalues, hentries⟩

end ExamSystem.Take
