import Mathlib.Data.List.DropRight
import ExamSystem.AttemptReceipts

/-!
# Attempt commands under interleaving

A receipt is appended with the mutation and the audit record of its operation,
and one operation has one receipt. What finds the receipt of its operation
answers from it and writes nothing.
-/

namespace ExamSystem.AttemptCommands

open Tx Interleaving Payloads

/-! ## Payloads -/

theorem trim_trim (s : JsString) : trim (trim s) = trim s := by
  have hkeep : ∀ {l l' : JsString}, l' <+: l → l.dropWhile isWhitespace = l →
      l'.dropWhile isWhitespace = l' := by
    intro l l' hpre hl
    rw [List.dropWhile_eq_self_iff] at hl ⊢
    intro hpos
    rw [hpre.getElem]
    exact hl (Nat.lt_of_lt_of_le hpos hpre.length_le)
  have htrim : ∀ s : JsString, trim s = (s.dropWhile isWhitespace).rdropWhile isWhitespace :=
    fun _ => rfl
  rw [htrim (trim s), htrim s, hkeep (List.rdropWhile_prefix _ _) (List.dropWhile_idempotent _ _),
    List.rdropWhile_idempotent]

theorem canonical_trimmed {command : AttemptCommand} {p : RequestPayload}
    (h : command.canonicalPayload = .ok p) :
    ∀ q, p.parse = some q → q = p := by
  intro q hq
  cases command with
  | forceSubmit reason =>
    simp only [AttemptCommand.canonicalPayload, canonicalizeForceSubmitPayload, bind_eq_ok,
      pure_eq_ok] at h
    obtain ⟨_, _, rfl⟩ := h
    simp only [RequestPayload.parse, trim_trim, Option.ite_none_right_eq_some, Option.some.injEq] at hq
    exact hq.2.symm
  | misconductMark severity notes =>
    simp only [AttemptCommand.canonicalPayload, canonicalizeMisconductPayload, bind_eq_ok,
      pure_eq_ok] at h
    obtain ⟨_, _, rfl⟩ := h
    simp only [RequestPayload.parse, trim_trim, Option.ite_none_right_eq_some, Option.some.injEq] at hq
    exact hq.2.symm

theorem severity_text_injective {a b : MisconductSeverity} (h : js a.text = js b.text) : a = b := by
  cases a <;> cases b <;> first | rfl | exact absurd h (by decide)

def RequestPayload.compared : RequestPayload → JsString
  | .forceSubmit reason =>
    js "\x7b" ++ (stringifyString (js "reason") ++ js ":" ++ stringifyString reason) ++ js "\x7d"
  | .misconductMark severity notes =>
    js "\x7b" ++ (stringifyString (js "notes") ++ js ":" ++ stringifyString notes ++ js "," ++
      (stringifyString (js "severity") ++ js ":" ++ stringifyString (js severity.text))) ++ js "\x7d"

theorem compared_injective {p q : RequestPayload} (h : p.compared = q.compared) : p = q := by
  cases p with
  | forceSubmit reason =>
    cases q with
    | forceSubmit reason' =>
      simp only [RequestPayload.compared, List.append_assoc, List.append_cancel_left_eq] at h
      rw [(stringifyString_decode h).1]
    | misconductMark severity notes =>
      simp only [RequestPayload.compared, List.append_assoc, List.append_cancel_left_eq] at h
      exact absurd (stringifyString_decode h).1 (by decide)
  | misconductMark severity notes =>
    cases q with
    | forceSubmit reason =>
      simp only [RequestPayload.compared, List.append_assoc, List.append_cancel_left_eq] at h
      exact absurd (stringifyString_decode h).1 (by decide)
    | misconductMark severity' notes' =>
      simp only [RequestPayload.compared, List.append_assoc, List.append_cancel_left_eq] at h
      obtain ⟨rfl, hseverity⟩ := stringifyString_decode h
      simp only [List.append_cancel_left_eq] at hseverity
      rw [severity_text_injective (stringifyString_decode hseverity).1]

section
variable [Host]

theorem json_text (p : RequestPayload) : stringify (sortKeys p.json) = p.compared := by
  cases p <;> rfl

theorem payloadsEqual_iff (p q : RequestPayload) :
    attemptCommandPayloadsEqual p.json q.json = true ↔ p = q := by
  simp only [attemptCommandPayloadsEqual, json_text, beq_iff_eq]
  exact ⟨compared_injective, congrArg _⟩

end

/-! ## The committed states -/

def receiptKey (r : AttemptCommandReceipt) : String × String := (r.organizationId, r.operationId)

def auditKey (a : AuditRecord) : String × String := (a.organizationId, uuidText a.operationId)

def Call.operation (c : Call) : String × String := (c.ctx.organizationId, uuidText c.input.operationId)

/-- What holds of every committed state: the constraints, receipts that can be
read, and one audit record at most for an operation, of an applied receipt. -/
structure Sound (db : Db) : Prop where
  intact : db.intact = true
  records : ∀ r ∈ db.receipts, receiptRowToRecord r = .ok r
  audits : (db.audits.map auditKey).Nodup
  audited : ∀ a ∈ db.audits, ∃ r ∈ db.receipts, receiptKey r = auditKey a ∧ r.outcome = .applied

section
variable {db : Db}

theorem intact_operations (h : db.intact = true) : (db.receipts.map receiptKey).Nodup := by
  simp only [Db.intact, decide_eq_true_eq] at h
  exact h.2.1

theorem intact_receipt (h : db.intact = true) {r r' : AttemptCommandReceipt} (hr : r ∈ db.receipts)
    (hr' : r' ∈ db.receipts) (hkey : receiptKey r' = receiptKey r) :
    r' = r := List.inj_on_of_nodup_map (intact_operations h) hr' hr hkey

theorem findByOperationId_some {organizationId operationId : String} {r : AttemptCommandReceipt}
    (h : db.findByOperationId organizationId operationId = some r) :
    r ∈ db.receipts ∧ receiptKey r = (organizationId, uuidText operationId) := by
  have hkey : r.organizationId = organizationId ∧ r.operationId = uuidText operationId := by
    simpa [Db.findByOperationId] using List.find?_some h
  exact ⟨List.mem_of_find?_eq_some h, by rw [receiptKey, hkey.1, hkey.2]⟩

theorem findByOperationId_of_mem (h : db.intact = true) {organizationId operationId : String}
    {r : AttemptCommandReceipt} (hr : r ∈ db.receipts)
    (hkey : receiptKey r = (organizationId, uuidText operationId)) :
    db.findByOperationId organizationId operationId = some r := by
  cases hf : db.findByOperationId organizationId operationId with
  | none =>
    obtain ⟨ho, hop⟩ := Prod.mk.inj hkey
    exact absurd (List.find?_eq_none.mp hf r hr) (by simp [ho, hop])
  | some r' =>
    obtain ⟨hr', hkey'⟩ := findByOperationId_some hf
    rw [intact_receipt h hr hr' (hkey'.trans hkey.symm)]

end

def Extends (db db' : Db) : Prop := ∀ r ∈ db.receipts, r ∈ db'.receipts

theorem Extends.refl (db : Db) : Extends db db := fun _ h => h

theorem Extends.trans {db db' db'' : Db} (h : Extends db db') (h' : Extends db' db'') :
    Extends db db'' := fun r hr => h' r (h r hr)

theorem extends_apply (db : Db) (w : Write) : Extends db (Journal.apply db w) := by
  cases w with
  | insertReceipt r => exact fun _ h => List.mem_append_left _ h
  | _ => exact fun _ h => h

theorem extends_applyAll (db : Db) (log : List Write) : Extends db (applyAll db log) :=
  applyAll_invariant (P := Extends db) (fun w _ s hs => hs.trans (extends_apply s w)) (.refl db)

/-! ## Answers from a receipt -/

structure ReceiptOf (call : Call) (r : AttemptCommandReceipt) : Prop where
  key : receiptKey r = call.operation
  command : r.commandType = call.input.command.commandType
  attempt : r.attemptId = call.input.attemptId
  payload : call.input.command.canonicalPayload = .ok r.requestPayload

/-- What is answered over the receipt `r` of the operation: the stored result of
the same command, and a conflict to any other. -/
structure Answers (call : Call) (r : AttemptCommandReceipt) (reply : Reply) : Prop where
  replay : ReceiptOf call r → reply = .ok (some (receiptRowToWireResponse r .idempotentReplay))
  conflict : ¬ ReceiptOf call r → ∃ e, reply = .error e ∧
    ((∃ message, e = .idempotencyConflict message) ∨ call.input.command.canonicalPayload = .error e)

def Call.LooksUp (call : Call) : Prop := call.phase = .preRead ∨ call.phase = .recovery

section
variable [Host] {call : Call} {r : AttemptCommandReceipt} {p : RequestPayload}

theorem classify_replay_iff {commandType : AttemptCommandType} {attemptId : String} :
    classifyAttemptCommandReplay r commandType attemptId p = .replay ↔
      r.commandType = commandType ∧ r.attemptId = attemptId ∧ r.requestPayload = p := by
  simp only [classifyAttemptCommandReplay, payloadsEqual_iff]
  by_cases hc : r.commandType = commandType
  · by_cases ha : r.attemptId = attemptId
    · by_cases hp : r.requestPayload = p <;> simp [hc, ha, hp]
    · simp [hc, ha]
  · simp [hc]

theorem classified (hrecord : receiptRowToRecord r = .ok r) (hkey : receiptKey r = call.operation)
    (hp : call.input.command.canonicalPayload = .ok p) :
    Answers call r ((classifyStoredReceipt call.input r p).map some) := by
  unfold classifyStoredReceipt
  rw [hrecord, ok_bind]
  cases hd : classifyAttemptCommandReplay r call.input.command.commandType call.input.attemptId p with
  | replay =>
    obtain ⟨hc, ha, rfl⟩ := classify_replay_iff.mp hd
    exact ⟨fun _ => rfl, fun h => absurd ⟨hkey, hc, ha, hp⟩ h⟩
  | conflict reason =>
    refine ⟨fun h => ?_, fun _ => ⟨_, rfl, .inl ⟨_, rfl⟩⟩⟩
    have hreplay := classify_replay_iff.mpr ⟨h.command, h.attempt,
      Except.ok.inj (h.payload.symm.trans hp)⟩
    rw [hreplay] at hd
    cases hd

omit [Host] in
theorem answers_invalid {e : EngineError} (hp : call.input.command.canonicalPayload = .error e) :
    Answers call r (.error e) := by
  refine ⟨fun h => ?_, fun _ => ⟨e, rfl, .inr hp⟩⟩
  have hpayload := h.payload
  rw [hp] at hpayload
  cases hpayload

omit [Host] in
theorem Answers.decided {reply : Reply} (h : Answers call r reply) : reply ≠ .ok none := by
  intro hreply
  by_cases hof : ReceiptOf call r
  · rw [h.replay hof] at hreply
    cases hreply
  · obtain ⟨e, he, -⟩ := h.conflict hof
    rw [he] at hreply
    cases hreply

omit [Host] in
theorem Answers.replayed {o : Option AttemptCommandReceiptResponse} (h : Answers call r (.ok o)) :
    ReceiptOf call r ∧ o = some (receiptRowToWireResponse r .idempotentReplay) := by
  by_cases hof : ReceiptOf call r
  · exact ⟨hof, Except.ok.inj (h.replay hof)⟩
  · obtain ⟨e, he, -⟩ := h.conflict hof
    cases he

def answerFrom (input : OperationInput) (absent : Action (Option AttemptCommandReceiptResponse))
    (p : RequestPayload) (found : Option AttemptCommandReceipt) :
    Action (Option AttemptCommandReceiptResponse) :=
  match found with
  | none => absent
  | some stored => Prog.ofExcept (classifyStoredReceipt input stored p) >>= fun response =>
    .done (some response)

/-- The lookups differ only where there is no receipt. -/
theorem lookup_action (h : call.LooksUp) : ∃ absent : Action (Option AttemptCommandReceiptResponse),
    call.action = (Prog.ofExcept call.input.command.canonicalPayload >>= fun p => Prog.snapshot >>=
        fun snap =>
      answerFrom call.input absent p
        (snap.findByOperationId call.ctx.organizationId call.input.operationId)) ∧
      (call.phase = .preRead ∧ absent = .done none ∨ ∃ message, absent = .fail (.error message)) := by
  unfold Call.action
  rcases h with h | h
  · rw [h]
    exact ⟨.done none, rfl, .inl ⟨rfl, rfl⟩⟩
  · rw [h]
    exact ⟨.fail _, rfl, .inr ⟨_, rfl⟩⟩

end

/-! ## What the engine throws -/

/-- The errors that do not send an execution back to the receipt of its operation. -/
def Passed : EngineError → Prop
  | .uniqueViolation index => index ≠ ATTEMPT_COMMAND_RECEIPT_OPERATION_UNIQUE_CONSTRAINT
  | _ => True

theorem passed_unique {index : String}
    (h : index ≠ ATTEMPT_COMMAND_RECEIPT_OPERATION_UNIQUE_CONSTRAINT) :
    Passed (.uniqueViolation index) := h

section
variable {db : ExamSystem.Db} {attemptId : String} {now : Int}

theorem lock_passed : Raises Passed (lockEnrollmentAndAttempt db attemptId) :=
  raises_bind (raises_orThrow trivial) fun _ _ => raises_bind (raises_orThrow trivial) fun _ _ =>
    raises_bind (raises_require trivial) fun _ _ => raises_pure _

theorem plan_passed (locked : ExamAttempt) : Raises Passed (planForceSubmitExecution locked now) := by
  unfold planForceSubmitExecution
  cases locked.status with
  | inProgress | disrupted | submitted | graded => exact raises_pure _
  | _ => exact raises_error trivial

theorem insertInterruptionEvent_passed (event : AttemptInterruptionEvent) :
    Raises Passed (db.insertInterruptionEvent event) := by
  unfold ExamSystem.Db.insertInterruptionEvent
  refine raises_bind (raises_require (passed_unique (by decide))) fun _ _ => ?_
  refine raises_bind (raises_require (passed_unique (by decide))) fun _ _ => ?_
  repeat refine raises_bind (raises_require trivial) fun _ _ => ?_
  exact raises_pure _

theorem openInterruption_passed (a : ExamAttempt) (interruptionId : String) (interruptedAt : Int) :
    Raises Passed (openInterruption db a interruptionId interruptedAt) := by
  unfold openInterruption
  refine raises_bind (raises_orThrow trivial) fun _ _ => raises_bind (raises_require trivial)
    fun _ _ => ?_
  refine raises_bind (raises_orThrow trivial) fun _ _ => ?_
  repeat refine raises_bind (raises_require trivial) fun _ _ => ?_
  exact raises_pure _

theorem resolveInterruption_passed (locked : ExamAttempt) (resolution : SubmitInterruptionResolution) :
    Raises Passed (resolveActiveInterruptionOnTerminalization db locked resolution now) := by
  unfold resolveActiveInterruptionOnTerminalization
  cases resolution with
  | none => exact raises_bind (raises_require trivial) fun _ _ => raises_pure _
  | activeInterruption hint =>
    refine raises_bind (raises_require trivial) fun _ _ => ?_
    refine raises_bind (raises_orThrow trivial) fun interruptionId _ =>
      raises_bind (raises_orThrow trivial) fun interruptedAt _ => ?_
    exact raises_bind (openInterruption_passed locked interruptionId interruptedAt) fun _ _ =>
      insertInterruptionEvent_passed _

theorem bulkCreate_passed :
    ∀ (entries : List AttemptGradingEntry) (db : ExamSystem.Db),
    Raises Passed (db.bulkCreateEntries entries)
  | [], _ => raises_pure _
  | e :: entries, db => by
    refine raises_bind ?_ fun db' _ => bulkCreate_passed entries db'
    refine raises_bind ?_ fun _ _ => raises_bind (raises_require (passed_unique (by decide)))
      fun _ _ => raises_pure _
    exact raises_bind (raises_require trivial) fun _ _ => raises_bind (raises_require trivial)
      fun _ _ => raises_require trivial

theorem checkDuplicates_passed (attemptId : String) :
    ∀ (entries : List AttemptGradingEntry) (seen : List String),
    Raises Passed (checkDuplicates attemptId seen entries)
  | [], _ => raises_pure _
  | e :: entries, seen => raises_bind (raises_require trivial) fun _ _ =>
    checkDuplicates_passed attemptId entries (e.questionId :: seen)

theorem aggregate_passed [Host] (a : ExamAttempt) (entries : List AttemptGradingEntry)
    (passingScore : ℚ) :
    Raises Passed (aggregateGradingEntries a entries passingScore) := by
  unfold aggregateGradingEntries
  refine raises_bind (raises_require trivial) fun _ _ => raises_bind
    (checkDuplicates_passed a.id entries []) fun _ _ => ?_
  refine raises_bind (raises_forEach fun question _ => ?_) fun _ _ => raises_pure _
  unfold validateTerminalEntry
  refine raises_bind (raises_orThrow trivial) fun entry _ => ?_
  repeat refine raises_bind (raises_require trivial) fun _ _ => ?_
  exact raises_bind (raises_orThrow trivial) fun _ _ => raises_require trivial

theorem finalizeTerminal_passed [Host] (cap : LockedEnrollmentAttemptIdentity) (exam : Exam) :
    Raises Passed (finalizeTerminalGrading db cap exam now) := by
  unfold finalizeTerminalGrading
  refine raises_bind (raises_orThrow trivial) fun a _ => ?_
  split
  · exact raises_pure _
  · refine raises_bind (raises_require trivial) fun _ _ => raises_bind (aggregate_passed a _ _)
      fun aggregated _ => ?_
    refine raises_bind (raises_orThrow trivial) fun enrollment _ => raises_bind
      (raises_require trivial) fun _ _ => ?_
    dsimp only
    split
    · exact raises_bind (raises_require trivial) fun _ _ => raises_pure _
    · exact raises_pure _

section
variable [Host]

theorem submit_passed {locked : ExamAttempt} (opts : SubmitOptions)
    (ha : db.findAttempt attemptId = some locked)
    (hs : locked.status = .inProgress ∨ locked.status = .disrupted) :
    Raises Passed (submitAttempt db attemptId now opts) := by
  have hopen : ¬ (locked.status = .submitted ∨ locked.status = .graded) := by
    rcases hs with hs | hs <;> simp [hs]
  unfold submitAttempt
  rw [ha, orThrow_some, ok_bind]
  refine raises_bind (resolveInterruption_passed locked opts.resolution) fun db _ => ?_
  dsimp only
  rw [if_neg hopen]
  refine raises_bind (raises_require trivial) fun _ _ => raises_bind ?_ fun _ _ => ?_
  · unfold minSubmitGuard
    split
    · exact raises_require trivial
    · exact raises_pure _
  · refine raises_bind (raises_require trivial) fun _ _ => raises_bind ?_ fun _ _ => raises_pure _
    exact raises_bind (raises_bind (raises_orThrow trivial) fun _ _ => raises_pure _) fun _ _ =>
      bulkCreate_passed _ _

theorem grade_passed (cap : LockedEnrollmentAttemptIdentity) :
    Raises Passed (gradeAttemptIdempotent db cap now) := by
  have hread : Raises Passed (readGradingSnapshot db cap.attemptId) := by
    unfold readGradingSnapshot
    split
    · exact raises_pure _
    · exact raises_bind (raises_orThrow trivial) fun _ _ => raises_bind (raises_orThrow trivial)
        fun _ _ => raises_pure _
  unfold gradeAttemptIdempotent
  refine raises_bind hread fun _ _ => raises_bind (raises_orThrow trivial) fun snapshot _ => ?_
  split
  · exact raises_pure _
  · split
    · exact raises_pure _
    · refine raises_bind ?_ fun _ _ => raises_bind (raises_orThrow trivial) fun _ _ => raises_pure _
      unfold finalizeGrading
      refine raises_bind (raises_orThrow trivial) fun a _ => ?_
      split
      · exact raises_pure _
      · exact raises_bind (raises_require trivial) fun _ _ => finalizeTerminal_passed cap snapshot.exam

theorem submitThenGrade_passed {locked : ExamAttempt} {cap : LockedEnrollmentAttemptIdentity}
    (ha : db.findAttempt cap.attemptId = some locked)
    (hs : locked.status = .inProgress ∨ locked.status = .disrupted) :
    Raises Passed (submitThenGrade db cap locked now) :=
  raises_bind (submit_passed _ ha hs) fun _ _ => raises_bind (grade_passed cap) fun _ _ => raises_pure _

end

theorem plan_needsSubmit {locked : ExamAttempt} {plan : ForceSubmitExecutionPlan}
    (h : planForceSubmitExecution locked now = .ok plan) (hneeds : plan.needsSubmit = true) :
    locked.status = .inProgress ∨ locked.status = .disrupted := by
  unfold planForceSubmitExecution at h
  cases hs : locked.status with
  | inProgress => exact .inl rfl
  | disrupted => exact .inr rfl
  | submitted | graded =>
    rw [hs] at h
    cases h
    cases hneeds
  | _ =>
    rw [hs] at h
    cases h

end

/-! ## What an execution knows at its commit -/

def Write.Mutates (call : Call) : Write → Prop
  | updateRows organizationId attemptIds _ => organizationId = call.ctx.organizationId ∧
      attemptIds = [call.input.attemptId]
  | updateMisconduct organizationId attemptId _ => organizationId = call.ctx.organizationId ∧
      attemptId = call.input.attemptId
  | _ => False

/-- The answer of a call and its writes: nothing, a receipt alone, or a receipt
with one mutation and one audit record. -/
inductive Done (call : Call) : Option AttemptCommandReceiptResponse → List Write → Db → Prop
  | absent {s : Db} (hphase : call.phase = .preRead) : Done call none [] s
  | replay {r : AttemptCommandReceipt} {s : Db} (hr : r ∈ s.receipts) (hof : ReceiptOf call r) :
    Done call (some (receiptRowToWireResponse r .idempotentReplay)) [] s
  | unchanged {r : AttemptCommandReceipt} {s : Db} (hof : ReceiptOf call r)
      (hrecord : receiptRowToRecord r = .ok r)
    (houtcome : r.outcome = .noChange) : Done call (some (receiptRowToWireResponse r .noChange))
      [.insertReceipt r] s
  | applied {r : AttemptCommandReceipt} {w : Write} {a : AuditRecord} {s : Db} (hof : ReceiptOf call r)
    (hrecord : receiptRowToRecord r = .ok r) (houtcome : r.outcome = .applied) (hw : w.Mutates call)
      (ha : auditKey a = call.operation) :
    Done call (some (receiptRowToWireResponse r .applied)) [.insertReceipt r, w, .insertAudit a] s

/-- The violation of the unique index is one of a committed receipt of the operation. -/
def Failed (call : Call) (e : EngineError) (s : Db) : Prop :=
  ¬ Passed e → ∃ r ∈ s.receipts, receiptKey r = call.operation

theorem failed_passed {call : Call} {e : EngineError} {s : Db} (h : Passed e) : Failed call e s :=
  fun h' => absurd h h'

section
variable {call : Call} {held : List LockKey} {log : List Write} {s : Db}

abbrev Grows (_ : List LockKey) (s s' : Db) : Prop := Extends s s'

abbrev Action.knows (call : Call) (p : Action (Option AttemptCommandReceiptResponse))
    (held : List LockKey) (log : List Write) (s : Db) : Prop :=
  p.wpe Grows Sound (fun reply _ log s => Done call reply log s) (Failed call) held log s

theorem knows_ofExcept {β : Type} {x : Result β}
    {f : β → Action (Option AttemptCommandReceiptResponse)} (hx : Raises Passed x)
    (hok : ∀ b, x = .ok b → Action.knows call (f b) held log s) :
    Action.knows call (Prog.ofExcept x >>= f) held log s :=
  wpe_ofExcept hok fun e he _ _ => failed_passed (hx e he)

theorem canonical_passed (command : AttemptCommand) : Raises Passed command.canonicalPayload := by
  cases command with
  | forceSubmit reason => exact raises_bind (raises_require trivial) fun _ _ => raises_pure _
  | misconductMark severity notes => exact raises_bind (raises_require trivial) fun _ _ => raises_pure _

theorem record_passed (r : AttemptCommandReceipt) : Raises Passed (receiptRowToRecord r) :=
  raises_bind (raises_orThrow trivial) fun _ _ => raises_bind (raises_require trivial) fun _ _ =>
    raises_pure _

theorem record_canonical {command : AttemptCommand} {r r' : AttemptCommandReceipt}
    (hp : command.canonicalPayload = .ok r.requestPayload) (h : receiptRowToRecord r = .ok r') :
    r' = r := by
  simp only [receiptRowToRecord, bind_eq_ok, orThrow_eq_ok, pure_eq_ok] at h
  obtain ⟨q, hq, _, _, rfl⟩ := h
  rw [canonical_trimmed hp q hq]

theorem operation_canonical {r : AttemptCommandReceipt} (h : receiptKey r = call.operation) :
    (r.organizationId, uuidText r.operationId) = call.operation := by
  obtain ⟨ho, hop⟩ := Prod.mk.inj h
  rw [hop, uuidText_uuidText, ho]
  rfl

theorem knows_insertReceipt {r : AttemptCommandReceipt}
    {f : Unit → Action (Option AttemptCommandReceiptResponse)}
    (hkey : receiptKey r = call.operation)
    (hf : ∀ held s, Action.knows call (f ()) held [.insertReceipt r] s) :
    Action.knows call (insertReceipt r >>= f) held [] s := by
  unfold insertReceipt
  rw [Prog.bind_assoc]
  have hassert : Raises Passed (assertPayloadMatchesCommandType r) :=
    raises_bind (raises_require trivial) fun _ _ => raises_require trivial
  refine knows_ofExcept hassert fun _ _ => ?_
  refine wpe_insert_checked (fun s' _ _ _ => hf _ s') fun e s' _ s'' he hs'' _ => ?_
  rw [applyAll_nil] at he
  split at he
  · cases he
    exact failed_passed (passed_unique (by decide))
  · split at he
    case isTrue hfound =>
      obtain ⟨r', hr'⟩ := Option.isSome_iff_exists.mp hfound
      obtain ⟨hmem, hkey'⟩ := findByOperationId_some hr'
      exact fun _ => ⟨r', hs'' r' hmem, hkey'.trans (operation_canonical hkey)⟩
    case isFalse => cases he

/-- The answer of a first execution, of a receipt that is read back as it was written. -/
theorem knows_first {row : AttemptCommandReceipt} {outcome : AttemptCommandOutcome}
    (hof : ReceiptOf call row) (houtcome : row.outcome = outcome)
    (hdone : receiptRowToRecord row = .ok row →
      ∀ s, Done call (some (receiptRowToWireResponse row outcome.disposition)) log s) :
    Action.knows call (.ofExcept (firstResponse row)) held log s := by
  unfold firstResponse
  subst houtcome
  cases hr : receiptRowToRecord row with
  | error e => exact wpe_fail fun _ _ => failed_passed (record_passed row e hr)
  | ok row' =>
    obtain rfl := record_canonical hof.payload hr
    exact wpe_done fun s' _ _ => hdone hr s'

theorem receiptOf_receipt {p : RequestPayload} (hp : call.input.command.canonicalPayload = .ok p)
    (freshId : String) (result : ResultPayload) (outcome : AttemptCommandOutcome) :
    ReceiptOf call (receiptOf call.ctx call.input freshId p result outcome) :=
  ⟨rfl, rfl, rfl, hp⟩

variable [Host]

theorem classify_passed (input : OperationInput) (r : AttemptCommandReceipt) (p : RequestPayload) :
    Raises Passed (classifyStoredReceipt input r p) := by
  refine raises_bind (record_passed r) fun r' _ => ?_
  split
  · exact raises_pure _
  · exact raises_error trivial

theorem lookup_knows (h : call.LooksUp) : Action.knows call call.action [] [] s := by
  obtain ⟨absent, haction, habsent⟩ := lookup_action h
  rw [haction]
  refine knows_ofExcept (canonical_passed _) fun p hp => ?_
  refine wpe_snapshot fun snap _ hsnap => ?_
  rw [applyAll_nil]
  cases hf : snap.findByOperationId call.ctx.organizationId call.input.operationId with
  | none =>
    rcases habsent with ⟨hphase, rfl⟩ | ⟨message, rfl⟩
    · exact wpe_done fun _ _ _ => .absent hphase
    · exact wpe_fail fun _ _ => failed_passed trivial
  | some r =>
    obtain ⟨hr, hkey⟩ := findByOperationId_some hf
    refine knows_ofExcept (classify_passed _ _ _) fun response hresponse => ?_
    have hanswers := classified (hsnap.records r hr) hkey hp
    rw [hresponse] at hanswers
    obtain ⟨hof, hreplay⟩ := hanswers.replayed
    rw [hreplay]
    exact wpe_done fun s' hs' _ => .replay (hs' r hr) hof

theorem forceSubmit_knows (freshId : String) :
    Action.knows call (runForceSubmitTransaction call.ctx call.input freshId) [] [] s := by
  unfold runForceSubmitTransaction
  refine knows_ofExcept (canonical_passed _) fun p hp => ?_
  refine wpe_snapshot fun snap _ _ => ?_
  refine knows_ofExcept (raises_orThrow trivial) fun enrollment _ => ?_
  refine knows_ofExcept lock_passed fun cap hcap => ?_
  unfold lockRows
  rw [Prog.bind_assoc]
  refine wpe_hold (fun _ _ _ _ => ?_) fun _ _ => failed_passed trivial
  refine wpe_hold (fun _ _ _ _ => ?_) fun _ _ => failed_passed trivial
  refine knows_ofExcept (raises_orThrow trivial) fun locked hlocked => ?_
  refine knows_ofExcept (plan_passed locked) fun plan hplan => ?_
  have hof := receiptOf_receipt hp freshId (planResultPayload call.input locked plan) (planOutcome plan)
  refine knows_insertReceipt hof.key fun held s => ?_
  split
  case isTrue hneeds =>
    have houtcome : planOutcome plan = .applied := if_pos hneeds
    have hlocked : enrollment.rows.findAttempt cap.attemptId = some locked := by
      rw [lock_attemptId hcap]
      exact (orThrow_eq_ok _ _ _).mp hlocked
    refine knows_ofExcept (submitThenGrade_passed hlocked (plan_needsSubmit hplan hneeds))
      fun rows _ => ?_
    refine wpe_write fun _ _ _ => ?_
    refine knows_ofExcept (raises_orThrow trivial) fun final _ => ?_
    refine knows_ofExcept (raises_require trivial) fun _ _ => ?_
    exact wpe_write fun _ _ _ => knows_first hof houtcome fun hrecord s =>
      .applied hof hrecord houtcome ⟨rfl, rfl⟩ rfl
  case isFalse hneeds =>
    have houtcome : planOutcome plan = .noChange := if_neg hneeds
    exact knows_ofExcept (raises_require trivial) fun _ _ =>
      knows_first hof houtcome fun hrecord s => .unchanged hof hrecord houtcome

omit [Host] in
theorem misconduct_knows {severity : MisconductSeverity} {notes : JsString} (freshId : String)
    (hcommand : call.input.command = .misconductMark severity notes) :
    Action.knows call (runMisconductMarkTransaction call.ctx call.input freshId severity notes)
      [] [] s := by
  have hcanonical : canonicalizeMisconductPayload severity notes =
    call.input.command.canonicalPayload := by rw [hcommand]; rfl
  unfold runMisconductMarkTransaction
  rw [hcanonical]
  refine knows_ofExcept (canonical_passed _) fun p hp => ?_
  refine wpe_snapshot fun snap _ _ => ?_
  refine wpe_hold (fun _ _ _ _ => ?_) fun _ _ => failed_passed trivial
  refine knows_ofExcept (raises_require trivial) fun _ _ => ?_
  have hof := receiptOf_receipt hp freshId
    (.misconductMark (some (buildAppliedResultPayload call.ctx call.input severity (trim notes)))
        call.input.now) .applied
  refine knows_insertReceipt hof.key fun held s => ?_
  refine wpe_write fun _ _ _ => ?_
  refine knows_ofExcept (raises_orThrow trivial) fun final _ => ?_
  refine knows_ofExcept (raises_require trivial) fun _ _ => ?_
  exact wpe_write fun _ _ _ => knows_first hof rfl fun hrecord s => .applied hof hrecord rfl
    ⟨rfl, rfl⟩ rfl

theorem call_knows (call : Call) : Action.knows call call.action [] [] s := by
  cases hphase : call.phase with
  | preRead => exact lookup_knows (.inl hphase)
  | recovery => exact lookup_knows (.inr hphase)
  | primary freshId =>
    unfold Call.action
    rw [hphase]
    cases hcommand : call.input.command with
    | forceSubmit reason => exact forceSubmit_knows freshId
    | misconductMark severity notes => exact misconduct_knows freshId hcommand

end

/-! ## An operation with a receipt -/

section
variable [Host] {call : Call} {r : AttemptCommandReceipt} {db s : Db} {held : List LockKey}

/-- Where the receipt of the operation is found, a lookup is the answer from it. -/
theorem answerFrom_found (hs : Sound db) (hr : r ∈ db.receipts)
    (hkey : receiptKey r = call.operation) {p : RequestPayload}
    (hp : call.input.command.canonicalPayload = .ok p)
    (absent : Action (Option AttemptCommandReceiptResponse)) :
    ∃ reply, Answers call r reply ∧
      answerFrom call.input absent p
        (db.findByOperationId call.ctx.organizationId call.input.operationId) = .ofExcept reply := by
  refine ⟨_, classified (hs.records r hr) hkey hp, ?_⟩
  rw [findByOperationId_of_mem hs.intact hr hkey]
  show (Prog.ofExcept (classifyStoredReceipt call.input r p) >>= fun response => .done
      (some response)) = _
  cases classifyStoredReceipt call.input r p <;> rfl

theorem lookup_committed (h : call.LooksUp) (hkey : receiptKey r = call.operation) :
    call.action.wpe Grows (fun s => Sound s ∧ r ∈ s.receipts) (fun reply _ log _ => log = [] ∧
      Answers call r (.ok reply))
      (fun e _ => Answers call r (.error e)) [] [] s := by
  obtain ⟨absent, haction, -⟩ := lookup_action h
  rw [haction]
  refine wpe_ofExcept (fun p hp => ?_) fun e hp _ _ => answers_invalid hp
  refine wpe_snapshot fun snap _ hsnap => ?_
  obtain ⟨reply, hanswers, hfound⟩ := answerFrom_found hsnap.1 hsnap.2 hkey hp absent
  rw [applyAll_nil, hfound]
  cases reply with
  | ok response => exact wpe_done fun _ _ _ => ⟨rfl, hanswers⟩
  | error e => exact wpe_fail fun _ _ => hanswers

theorem lookup_quiet (h : call.LooksUp) (hs : Sound db) (hr : r ∈ db.receipts)
    (hkey : receiptKey r = call.operation) :
    ∃ reply, call.action.Quiet reply db := by
  obtain ⟨absent, haction, -⟩ := lookup_action h
  rw [haction]
  cases hp : call.input.command.canonicalPayload with
  | error e => exact ⟨.error e, rfl⟩
  | ok p =>
    obtain ⟨reply, -, hfound⟩ := answerFrom_found hs hr hkey hp absent
    refine ⟨reply, rfl, rfl, ?_⟩
    show Prog.Quiet reply db
      (answerFrom call.input absent p
        (db.findByOperationId call.ctx.organizationId call.input.operationId))
    rw [hfound]
    cases reply <;> rfl

/-- A program that fails whatever the others do, when the receipt is committed. -/
abbrev Action.Barred (r : AttemptCommandReceipt) (p : Action (Option AttemptCommandReceiptResponse))
    (held : List LockKey) (s : Db) : Prop :=
  p.wpe Grows (fun s => Sound s ∧ r ∈ s.receipts) (fun _ _ _ _ => False) (fun _ _ => True) held [] s

omit [Host] in
theorem barred_ofExcept {β : Type} {x : Result β}
    {f : β → Action (Option AttemptCommandReceiptResponse)}
    (hok : ∀ b, Action.Barred r (f b) held s) : Action.Barred r (Prog.ofExcept x >>= f) held s :=
  wpe_ofExcept (fun b _ => hok b) fun _ _ _ _ => trivial

omit [Host] in
/-- The insert of a second receipt of the operation. -/
theorem barred_insertReceipt {row : AttemptCommandReceipt}
    {f : Unit → Action (Option AttemptCommandReceiptResponse)}
    (hrow : receiptKey row = call.operation) (hkey : receiptKey r = call.operation) :
    Action.Barred r (insertReceipt row >>= f) held s := by
  unfold insertReceipt
  rw [Prog.bind_assoc]
  refine barred_ofExcept fun _ => wpe_insert (fun s' _ hs' hnone => ?_) fun _ _ _ _ _ => trivial
  have hfound :=
    findByOperationId_of_mem hs'.1.intact hs'.2 (hkey.trans (operation_canonical hrow).symm)
  rw [applyAll_nil, hfound] at hnone
  split at hnone <;> cases hnone

theorem primary_barred {freshId : String} (hphase : call.phase = .primary freshId)
    (hkey : receiptKey r = call.operation) :
    Action.Barred r call.action [] s := by
  unfold Call.action
  rw [hphase]
  cases hcommand : call.input.command with
  | forceSubmit reason =>
    unfold runForceSubmitTransaction
    refine barred_ofExcept fun p => wpe_snapshot fun snap _ _ => barred_ofExcept fun enrollment =>
      barred_ofExcept fun cap => ?_
    unfold lockRows
    rw [Prog.bind_assoc]
    refine wpe_hold (fun _ _ _ _ => wpe_hold (fun _ _ _ _ => ?_) fun _ _ => trivial) fun _ _ => trivial
    exact barred_ofExcept fun locked => barred_ofExcept fun plan => barred_insertReceipt rfl hkey
  | misconductMark severity notes =>
    unfold runMisconductMarkTransaction
    refine barred_ofExcept fun p => wpe_snapshot fun snap _ _ =>
      wpe_hold (fun _ _ _ _ => ?_) fun _ _ => trivial
    exact barred_ofExcept fun _ => barred_insertReceipt rfl hkey

end

/-! ## Every run -/

def Knows (r : Request) (reply : Reply) (log : List Write) (s : Db) : Prop :=
  match reply, r with
  | .ok reply, .call call => Done call reply log s
  | .ok _, .outside o => log = [o.write]
  | .error e, .call call => log = [] ∧ Failed call e s
  | .error _, .outside _ => log = []

theorem outside_receipts (db : Db) (o : Outside) :
    (Write.apply db o.write).receipts = db.receipts := by cases o <;> rfl

theorem outside_audits (db : Db) (o : Outside) : (Write.apply db o.write).audits = db.audits := by
  cases o <;> rfl

theorem mutation_receipts {call : Call} {w : Write} (h : w.Mutates call) (db : Db) :
    (Write.apply db w).receipts = db.receipts := by
  cases w with
  | updateRows _ _ _ | updateMisconduct _ _ _ => rfl
  | _ => exact absurd h id

theorem mutation_audits {call : Call} {w : Write} (h : w.Mutates call) (db : Db) :
    (Write.apply db w).audits = db.audits := by
  cases w with
  | updateRows _ _ _ | updateMisconduct _ _ _ => rfl
  | _ => exact absurd h id

section
variable {call : Call} {reply : Option AttemptCommandReceiptResponse} {log : List Write} {s : Db}

theorem Done.added (h : Done call reply log s) : log = [] ∨
    ∃ r, ReceiptOf call r ∧ receiptRowToRecord r = .ok r ∧
      (applyAll s log).receipts = s.receipts ++ [r] ∧
      ((applyAll s log).audits = s.audits ∨
        r.outcome = .applied ∧ ∃ a, auditKey a = call.operation ∧
        (applyAll s log).audits = s.audits ++ [a]) := by
  cases h with
  | absent | replay => exact .inl rfl
  | unchanged hof hrecord _ => exact .inr ⟨_, hof, hrecord, rfl, .inl rfl⟩
  | applied hof hrecord houtcome hw ha =>
    refine .inr ⟨_, hof, hrecord, ?_, .inr ⟨houtcome, _, ha, ?_⟩⟩
    · exact mutation_receipts hw _
    · exact congrArg (· ++ [_]) (mutation_audits hw _)

theorem sound_same {db db' : Db} (h : Sound db) (hr : db'.receipts = db.receipts)
    (ha : db'.audits = db.audits) (hi : db'.intact = true) :
    Sound db' := by
  refine ⟨hi, ?_, ?_, ?_⟩
  · rw [hr]
    exact h.records
  · rw [ha]
    exact h.audits
  · rw [hr, ha]
    exact h.audited

theorem Done.sound (h : Done call reply log s) (hs : Sound s) (hi : (applyAll s log).intact = true) :
    Sound (applyAll s log) := by
  rcases h.added with rfl | ⟨r, hof, hrecord, hreceipts, haudits⟩
  · exact hs
  · have hrecords : ∀ r' ∈ (applyAll s log).receipts, receiptRowToRecord r' = .ok r' := by
      intro r' hr'
      rw [hreceipts] at hr'
      rcases List.mem_append.mp hr' with hr' | hr'
      · exact hs.records r' hr'
      · rw [List.mem_singleton.mp hr', hrecord]
    have hkept : ∀ a ∈ s.audits, ∃ r' ∈ s.receipts ++ [r], receiptKey r' = auditKey a ∧
        r'.outcome = .applied := by
      intro a ha
      obtain ⟨r', hr', h'⟩ := hs.audited a ha
      exact ⟨r', List.mem_append_left _ hr', h'⟩
    rcases haudits with haudits | ⟨houtcome, a, ha, haudits⟩
    · refine ⟨hi, hrecords, ?_, ?_⟩
      · rw [haudits]
        exact hs.audits
      · rw [haudits, hreceipts]
        exact hkept
    · refine ⟨hi, hrecords, ?_, ?_⟩
      · -- a record of the operation would come with a receipt, and there would be two
        have hnew : auditKey a ∉ s.audits.map auditKey := by
          intro hmem
          obtain ⟨a', ha', hkey'⟩ := List.mem_map.mp hmem
          obtain ⟨r', hr', hkey, -⟩ := hs.audited a' ha'
          have hnodup := intact_operations hi
          rw [hreceipts, List.map_append, List.nodup_append] at hnodup
          refine hnodup.2.2 _ (List.mem_map.mpr ⟨r', hr', rfl⟩) _ (List.mem_singleton.mpr rfl) ?_
          rw [hkey, hkey', ha, hof.key]
        rw [haudits, List.map_append, List.nodup_append]
        refine ⟨hs.audits, List.nodup_singleton _, ?_⟩
        intro k hk k' hk' he
        rw [List.mem_singleton.mp hk'] at he
        exact hnew (he ▸ hk)
      · rw [haudits, hreceipts]
        intro b hb
        rcases List.mem_append.mp hb with hb | hb
        · exact hkept b hb
        · rw [List.mem_singleton.mp hb]
          exact ⟨r, List.mem_append_right _ List.mem_cons_self, hof.key.trans ha.symm, houtcome⟩

end

theorem Knows.sound {r : Request} {reply : Reply} {log : List Write} {s : Db}
    (h : Knows r reply log s) (hs : Sound s) (hi : (applyAll s log).intact = true) :
    Sound (applyAll s log) := by
  cases reply with
  | ok reply =>
    cases r with
    | call call => exact Done.sound h hs hi
    | outside o =>
      obtain rfl : log = [o.write] := h
      exact sound_same hs (outside_receipts s o) (outside_audits s o) hi
  | error e =>
    have hlog : log = [] := by
      cases r with
      | call call => exact h.1
      | outside o => exact h
    rw [hlog]
    exact hs

section
variable [Host]

theorem transaction_knows (r : Request) (s : Db) :
    (transaction r).wp Grows Sound (fun reply _ log s => Knows r reply log s) [] [] s := by
  have haction : r.action.wpe Grows Sound (fun reply _ log s => Knows r (.ok reply) log s)
      (fun e s => Knows r (.error e) [] s) [] [] s := by
    cases r with
    | call call => exact wpe_mono (fun _ _ _ _ _ h => h) (fun _ _ _ h => ⟨rfl, h⟩) (call_knows call)
    | outside o => exact wpe_write fun _ _ _ => wpe_done fun _ _ _ => rfl
  refine wp_mono ?_ (wp_settle (fun _ _ _ _ => .trans) (fun _ _ _ _ _ h => h)
      (fun _ _ _ _ _ _ h => h) haction)
  intro reply held log s _ h
  cases reply with
  | ok reply => exact h
  | error e =>
    obtain ⟨rfl, he⟩ := h
    exact he

def outline : Outline transaction fun _ => True where
  Inv := Sound
  Rely := Grows
  Post r reply _ log s := Knows r reply log s
  refl _ := .refl
  trans _ _ _ _ := .trans
  start r s _ := transaction_knows r s
  commit c held log hs hpost hafter _ _ hintact _ := by
    refine ⟨?_, fun _ _ => ?_⟩
    · rw [hafter] at hintact ⊢
      exact hpost.sound hs hintact
    · rw [hafter]
      exact extends_applyAll c.before log

variable {m : Machine Db Write LockKey EngineError Request Reply}

/-- The call, if it is of the operation of `r`, writes nothing, and a lookup answers from `r`. -/
def Retries (r : AttemptCommandReceipt) (request : Request) (reply : Reply) (log : List Write) : Prop :=
  ∀ call, request = .call call → receiptKey r = call.operation → log = [] ∧
    (call.LooksUp → Answers call r reply)

theorem transaction_committed (r : AttemptCommandReceipt) (request : Request) (s : Db) :
    (transaction request).wp Grows (fun s => Sound s ∧ r ∈ s.receipts)
      (fun reply _ log _ => Retries r request reply log) [] [] s := by
  by_cases hmatch : ∃ call, request = .call call ∧ receiptKey r = call.operation
  · obtain ⟨call, rfl, hkey⟩ := hmatch
    by_cases hlooks : call.LooksUp
    · refine wp_mono ?_ (wp_settle (fun _ _ _ _ => .trans) (fun _ _ _ _ _ h => h)
          (fun _ _ _ _ _ _ h => h)
        (lookup_committed hlooks hkey))
      intro reply _ log _ _ h call' hcall _
      cases hcall
      cases reply with
      | ok reply => exact ⟨h.1, fun _ => h.2⟩
      | error e => exact ⟨h.1, fun _ => h.2⟩
    · have hphase : ∃ freshId, call.phase = .primary freshId := by
        cases hp : call.phase with
        | preRead => exact absurd (.inl hp) hlooks
        | recovery => exact absurd (.inr hp) hlooks
        | primary freshId => exact ⟨freshId, rfl⟩
      obtain ⟨freshId, hphase⟩ := hphase
      refine wp_mono ?_ (wp_settle (fun _ _ _ _ => .trans) (fun _ _ _ _ _ h => h)
          (fun _ _ _ _ _ _ h => h)
        (primary_barred hphase hkey))
      intro reply _ log _ _ h call' hcall _
      cases hcall
      cases reply with
      | ok reply => exact absurd h id
      | error e => exact ⟨h.1, fun hl => absurd hl hlooks⟩
  · exact wp_mono (fun _ _ _ _ _ _ call hcall hkey => absurd ⟨call, hcall, hkey⟩ hmatch) (wp_true _)

/-- The transactions of an operation that start when it has a receipt. -/
theorem later_committed (h : outline.Holds m) {r : AttemptCommandReceipt}
    (hr : r ∈ m.committed.receipts) (es : List (Event Request)) :
    ∃ cs, (Machine.run transaction m es).history = m.history ++ cs ∧
      ∀ c ∈ cs, m.NotInFlight c.request → ∀ call, c.request = .call call →
        receiptKey r = call.operation →
        c.after = c.before ∧ (call.LooksUp → Answers call r c.reply) := by
  obtain ⟨cs, hh, hcs⟩ :=
    outline.later h (P := fun s => r ∈ s.receipts)
      (Q := fun request reply log _ => Retries r request reply log) hr
    (fun s w hs => extends_apply s w r hs)
      (fun request s _ _ _ => transaction_committed r request s) es fun _ _ => trivial
  refine ⟨cs, hh, ?_⟩
  intro c hc hnew call hcall hkey
  obtain ⟨_, log, hq, hafter⟩ := hcs c hc hnew
  obtain ⟨rfl, hanswers⟩ := hq call hcall hkey
  exact ⟨hafter, hanswers⟩

theorem committed_answers (h : outline.Holds m) {r : AttemptCommandReceipt}
    (hr : r ∈ m.committed.receipts) {call : Call} (hlooks : call.LooksUp)
    (hkey : receiptKey r = call.operation) :
    ∃ n c, (Machine.run transaction m (.start (.call call) :: List.replicate n
          (.advance m.slots.length))).history = m.history ++ [c] ∧
      c.request = .call call := by
  obtain ⟨reply, hq⟩ := lookup_quiet hlooks h.inv hr hkey
  have hquiet : (transaction (.call call)).Quiet (.ok reply) m.committed := quiet_settle hq
  have hi : Sound m.committed := h.inv
  obtain ⟨n, c, hc, hrequest, _⟩ := run_quiet hquiet hi.intact
  exact ⟨n, c, hc, hrequest⟩

omit [Host] in
theorem empty_sound : Sound empty := by
  refine ⟨by decide, ?_, by decide, ?_⟩ <;> exact fun _ h => absurd h List.not_mem_nil

/-! ### The commits of a run -/

def Changes (operation : String × String) (c : Commit Db LockKey Request Reply) : Prop :=
  (∃ call, c.request = .call call ∧ call.operation = operation) ∧ c.after ≠ c.before

section
variable {c : Commit Db LockKey Request Reply} {call : Call}

theorem change_added (h : outline.Sound c) {operation : String × String} (hc : Changes operation c) :
    ∃ r, receiptKey r = operation ∧ c.after.receipts = c.before.receipts ++ [r] := by
  obtain ⟨⟨call, hcall, rfl⟩, hne⟩ := hc
  obtain ⟨held, log, hpost, hafter⟩ := h.post
  have hknows : Knows (.call call) c.reply log c.before := hcall ▸ hpost
  have hlog : log ≠ [] := by
    rintro rfl
    exact hne hafter
  cases hreply : c.reply with
  | error e =>
    rw [hreply] at hknows
    exact absurd hknows.1 hlog
  | ok reply =>
    rw [hreply] at hknows
    obtain ⟨r, hof, -, hreceipts, -⟩ := (Done.added hknows).resolve_left hlog
    exact ⟨r, hof.key, hafter ▸ hreceipts⟩

theorem success_receipt (h : outline.Sound c) (hcall : c.request = .call call)
    {response : AttemptCommandReceiptResponse} (hreply : c.reply = .ok (some response)) :
    ∃ r ∈ c.after.receipts, ReceiptOf call r ∧
    ∃ disposition, response = receiptRowToWireResponse r disposition := by
  obtain ⟨held, log, hpost, hafter⟩ := h.post
  have hdone : Done call (some response) log c.before := by
    have hknows : Knows c.request c.reply log c.before := hpost
    rw [hcall, hreply] at hknows
    exact hknows
  rw [hafter]
  cases hdone with
  | replay hr hof => exact ⟨_, hr, hof, _, rfl⟩
  | unchanged hof _ _ => exact ⟨_, List.mem_append_right _ List.mem_cons_self, hof, _, rfl⟩
  | @applied r w a _ hof _ _ hw _ =>
    have hreceipts : (applyAll c.before [.insertReceipt r, w, .insertAudit a]).receipts =
      c.before.receipts ++ [r] := mutation_receipts hw _
    exact ⟨r, hreceipts ▸ List.mem_append_right _ List.mem_cons_self, hof, _, rfl⟩

/-- A call that lost the race lost it to a receipt. -/
theorem violation_receipt (h : outline.Sound c) (hcall : c.request = .call call)
    (hreply : c.reply = .error (.uniqueViolation ATTEMPT_COMMAND_RECEIPT_OPERATION_UNIQUE_CONSTRAINT)) :
    ∃ r ∈ c.after.receipts, receiptKey r = call.operation := by
  obtain ⟨held, log, hpost, hafter⟩ := h.post
  have hknows : Knows c.request c.reply log c.before := hpost
  rw [hcall, hreply] at hknows
  obtain ⟨rfl, hfailed⟩ := hknows
  rw [hafter]
  exact hfailed fun hp => hp rfl

end

/-- Of the transactions of one operation one at most changes something. -/
theorem one_change (es : List (Event Request)) :
    (Machine.run transaction (.idle empty) es).history.Pairwise fun c d => ∀ operation,
      Changes operation c → ¬ Changes operation d := by
  have hsound := (outline.sound empty_sound es fun _ _ => trivial).2.1
  have hextends := run_pairwise transaction Extends.refl (fun _ _ _ => .trans) extends_apply es
    (.idle empty)
    (fun c hc => absurd hc List.not_mem_nil) List.Pairwise.nil
  refine hextends.imp_of_mem ?_
  intro c d hc hd hcd operation hchanges hchanges'
  obtain ⟨r, hkey, hreceipts⟩ := change_added (hsound c hc) hchanges
  obtain ⟨r', hkey', hreceipts'⟩ := change_added (hsound d hd) hchanges'
  have hr : r ∈ d.before.receipts :=
    hcd r (by rw [hreceipts]; exact List.mem_append_right _ List.mem_cons_self)
  have hnodup := intact_operations (hsound d hd).intact
  rw [hreceipts', List.map_append, List.nodup_append] at hnodup
  exact hnodup.2.2 _ (List.mem_map.mpr ⟨r, hr, rfl⟩) _ (List.mem_singleton.mpr rfl)
    (hkey.trans hkey'.symm)

omit [Host] in
theorem answered_first {call : Call} {r : AttemptCommandReceipt} {reply : Reply}
    (h : Answers call r reply) (primary recovery : Reply) :
    Answers call r (runWithRaceRecovery reply primary recovery) := by
  cases reply with
  | error e => exact h
  | ok o =>
    cases o with
    | none => exact absurd rfl h.decided
    | some response => exact h

theorem attempt_commands_once (es : List (Event Request)) :
    let m := Machine.run transaction (.idle empty) es
    (m.committed.receipts.map receiptKey).Nodup ∧ (m.committed.audits.map auditKey).Nodup ∧
    (m.history.Pairwise fun c d => ∀ operation, Changes operation c → ¬ Changes operation d) ∧
    (∀ c ∈ m.history, ∀ call response, c.request = .call call → c.reply = .ok (some response) →
      ∃ r ∈ m.committed.receipts, ReceiptOf call r ∧
      ∃ disposition, response = receiptRowToWireResponse r disposition) ∧
    (∀ c ∈ m.history, ∀ call, c.request = .call call →
      c.reply = .error (.uniqueViolation ATTEMPT_COMMAND_RECEIPT_OPERATION_UNIQUE_CONSTRAINT) →
      ∃ r ∈ m.committed.receipts, receiptKey r = call.operation) ∧
    ∀ r ∈ m.committed.receipts, ∀ retry : Call, receiptKey r = retry.operation →
      (∀ es', ∃ cs, (Machine.run transaction m es').history = m.history ++ cs ∧
        ∀ c ∈ cs, m.NotInFlight c.request → c.request = .call retry → c.after = c.before ∧
          (retry.phase = .preRead → ∀ primary recovery, Answers retry r
              (runWithRaceRecovery c.reply primary recovery)) ∧
          (retry.phase = .recovery → Answers retry r (runWithRaceRecovery (.ok none)
            (.error (.uniqueViolation ATTEMPT_COMMAND_RECEIPT_OPERATION_UNIQUE_CONSTRAINT)) c.reply))) ∧
      (retry.LooksUp →
        ∃ n c, (Machine.run transaction m (.start (.call retry) :: List.replicate n
              (.advance m.slots.length))).history =
        m.history ++ [c] ∧ c.request = .call retry) := by
  intro m
  have hholds : outline.Holds m :=
    outline.holds_run es (outline.holds_idle empty_sound) fun _ _ => trivial
  have hsound : Sound m.committed := hholds.inv
  have hkept : ∀ c ∈ m.history, Extends c.after m.committed :=
    run_keeps_after transaction .refl (fun _ _ _ => .trans) extends_apply es
      (.idle empty) fun c hc => absurd hc List.not_mem_nil
  refine ⟨intact_operations hsound.intact, hsound.audits, one_change es, ?_, ?_, ?_⟩
  · intro c hc call response hcall hreply
    obtain ⟨r, hr, h⟩ := success_receipt (hholds.commits c hc) hcall hreply
    exact ⟨r, hkept c hc r hr, h⟩
  · intro c hc call hcall hreply
    obtain ⟨r, hr, hkey⟩ := violation_receipt (hholds.commits c hc) hcall hreply
    exact ⟨r, hkept c hc r hr, hkey⟩
  · intro r hr retry hkey
    refine ⟨fun es' => ?_, fun hlooks => committed_answers hholds hr hlooks hkey⟩
    obtain ⟨cs, hh, hcs⟩ := later_committed hholds hr es'
    refine ⟨cs, hh, fun c hc hnew hcall => ?_⟩
    obtain ⟨hafter, hanswers⟩ := hcs c hc hnew retry hcall hkey
    refine ⟨hafter, fun hphase => answered_first (hanswers (.inl hphase)), fun hphase => ?_⟩
    exact hanswers (.inr hphase)

end

end ExamSystem.AttemptCommands
