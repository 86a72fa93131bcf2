import ExamSystem.ProctorAssignments

/-!
# Proctor assignments under interleaving

Receipts are only appended and one operation has one of them, so a command that
finds a receipt of its operation is a replay or a conflict. The constraints of
the tables hold of every committed state.
-/

namespace ExamSystem.Proctors

open Tx Interleaving

/-! ## The committed states -/

def UniqueActive (db : Db) : Prop :=
  ∀ a ∈ db.assignments, ∀ b ∈ db.assignments, a.status = .active → b.status = .active →
    a.organizationId = b.organizationId → a.examId = b.examId → a.proctorUserId = b.proctorUserId →
    a = b

section
variable {db : Db}

theorem intact_uniqueActive (h : db.intact = true) : UniqueActive db := by
  simp only [Db.intact, decide_eq_true_eq] at h
  intro a ha b hb hactive hactive' ho he hp
  have hmem : ∀ {x : ExamProctorAssignment}, x ∈ db.assignments → x.status = .active →
      x ∈ db.assignments.filter fun a => decide (a.status = .active) := by
    intro x hx hs
    simp [hx, hs]
  exact List.inj_on_of_nodup_map h.2.1 (hmem ha hactive) (hmem hb hactive') (by rw [ho, he, hp])

theorem intact_receipt (h : db.intact = true) {e e' : ExamProctorAssignmentEvent}
    (he : e ∈ db.events) (he' : e' ∈ db.events) (ho : e'.organizationId = e.organizationId)
    (hop : e'.operationId = e.operationId) : e' = e := by
  simp only [Db.intact, decide_eq_true_eq] at h
  exact List.inj_on_of_nodup_map h.2.2.1 he' he (by rw [ho, hop])

theorem findEvent_of_mem (h : db.intact = true) {e : ExamProctorAssignmentEvent} (he : e ∈ db.events) :
    db.findEventByOperationId e.organizationId e.operationId = some e := by
  unfold Db.findEventByOperationId
  cases hf : db.events.find? fun x => decide (x.organizationId = e.organizationId ∧
    x.operationId = e.operationId) with
  | none =>
    rw [List.find?_eq_none] at hf
    exact absurd (hf e he) (by simp)
  | some x =>
    have hkey : x.organizationId = e.organizationId ∧ x.operationId = e.operationId := by
      simpa using List.find?_some hf
    rw [intact_receipt h he (List.mem_of_find?_eq_some hf) hkey.1 hkey.2]

theorem intact_episode (h : db.intact = true) {e : ExamProctorAssignmentEvent} (he : e ∈ db.events) :
    ∃ a, db.findById e.organizationId e.assignmentId = some a ∧ a.id = e.assignmentId := by
  simp only [Db.intact, decide_eq_true_eq] at h
  obtain ⟨a, ha⟩ := Option.isSome_iff_exists.mp (h.2.2.2 e he)
  have hkey : a.organizationId = e.organizationId ∧ a.id = e.assignmentId := by
    simpa [Db.findById] using List.find?_some ha
  exact ⟨a, ha, hkey.2⟩

end

structure Extends (db db' : Db) : Prop where
  events : ∀ e ∈ db.events, e ∈ db'.events
  episodes : ∀ a ∈ db.assignments, ∃ a' ∈ db'.assignments, a'.id = a.id ∧
    (a.status = .revoked → a'.status = .revoked)

theorem Extends.refl (db : Db) : Extends db db := ⟨fun _ h => h, fun a h => ⟨a, h, rfl, fun h => h⟩⟩

theorem Extends.trans {db db' db'' : Db} (h : Extends db db') (h' : Extends db' db'') :
    Extends db db'' := by
  refine ⟨fun e he => h'.events e (h.events e he), ?_⟩
  intro a ha
  obtain ⟨a', ha', hid, hs⟩ := h.episodes a ha
  obtain ⟨a'', ha'', hid', hs'⟩ := h'.episodes a' ha'
  exact ⟨a'', ha'', hid'.trans hid, fun hr => hs' (hs hr)⟩

theorem extends_apply (db : Db) (w : Write) : Extends db (Journal.apply db w) := by
  cases w with
  | insertAssignment a => exact ⟨fun _ h => h, fun b hb => ⟨b, List.mem_append_left _ hb, rfl,
        fun h => h⟩⟩
  | revokeAssignment organizationId assignmentId revokedBy revokedAt =>
    refine ⟨fun _ h => h, ?_⟩
    intro a ha
    refine ⟨_, List.mem_map.mpr ⟨a, ha, rfl⟩, ?_, ?_⟩
    · split <;> rfl
    · intro hr
      split
      · rfl
      · exact hr
  | appendEvent e => exact ⟨fun _ h => List.mem_append_left _ h, fun b hb => ⟨b, hb, rfl, fun h => h⟩⟩
  | audit r => exact ⟨fun _ h => h, fun b hb => ⟨b, hb, rfl, fun h => h⟩⟩
  | createExam e => exact ⟨fun _ h => h, fun b hb => ⟨b, hb, rfl, fun h => h⟩⟩
  | changeUser u => exact ⟨fun _ h => h, fun b hb => ⟨b, hb, rfl, fun h => h⟩⟩

theorem extends_applyAll (db : Db) (log : List Write) : Extends db (applyAll db log) :=
  applyAll_invariant (P := Extends db) (fun w _ s hs => hs.trans (extends_apply s w)) (.refl db)

/-! ## Receipts -/

def Command.commandType : Command → CommandType
  | .assign _ => .assign
  | .revoke => .revoke
  | .loserReceipt commandType => commandType
  | .committedOperation commandType => commandType

structure ReceiptOf (call : Call) (e : ExamProctorAssignmentEvent) : Prop where
  organization : e.organizationId = call.ctx.organizationId
  operation : e.operationId = uuidText call.input.operationId
  command : e.commandType = call.command.commandType
  payload : canonicalAssignmentPayload call.input = .ok e.canonicalPayload

def Receipted (call : Call) (reply : Option CommandResult) (db : Db) : Prop :=
  ∀ result, reply = some result → ∃ e ∈ db.events, ReceiptOf call e ∧
    e.assignmentId = result.assignment.id

theorem receipted_extends {call : Call} {reply : Option CommandResult} {db db' : Db}
    (h : Receipted call reply db) (hx : Extends db db') :
    Receipted call reply db' := by
  intro result hr
  obtain ⟨e, he, hof⟩ := h result hr
  exact ⟨e, hx.events e he, hof⟩

theorem replayOf_some {ctx : CommandContext} {input : ProctorInput} {db : Db}
    {commandType : CommandType} {payload : CanonicalPayload} {missing : EngineError}
    {result : CommandResult}
    (h : replayOf ctx input db commandType payload missing = .ok (some result)) :
    ∃ e ∈ db.events, e.organizationId = ctx.organizationId ∧
      e.operationId = uuidText input.operationId ∧
      e.commandType = commandType ∧ e.canonicalPayload = payload ∧
      e.assignmentId = result.assignment.id := by
  unfold replayOf at h
  cases hf : db.findEventByOperationId ctx.organizationId (uuidText input.operationId) with
  | none => rw [hf] at h; cases h
  | some e =>
    rw [hf] at h
    have hkey : e.organizationId = ctx.organizationId ∧ e.operationId = uuidText input.operationId := by
      simpa [Db.findEventByOperationId] using List.find?_some hf
    by_cases hsame : e.commandType = commandType ∧ e.canonicalPayload = payload
    · simp only [hsame, and_self, if_true, bind_eq_ok, orThrow_eq_ok, pure_eq_ok,
        Option.some.injEq] at h
      obtain ⟨a, ha, rfl⟩ := h
      have hid : a.organizationId = ctx.organizationId ∧ a.id = e.assignmentId := by
        simpa [Db.findById] using List.find?_some ha
      exact ⟨e, List.mem_of_find?_eq_some hf, hkey.1, hkey.2, hsame.1, hsame.2, hid.2.symm⟩
    · simp only [hsame, if_false] at h
      cases h

/-! ## What a command knows at its commit -/

section
variable {call : Call} {held : List LockKey} {log : List Write} {s : Db}

abbrev Grows (_ : List LockKey) (s s' : Db) : Prop := Extends s s'

abbrev Knows (call : Call) (reply : Option CommandResult) (_ : List LockKey)
    (log : List Write) (s : Db) : Prop :=
  Receipted call reply (applyAll s log)

abbrev Action.knows (call : Call) (p : Action (Option CommandResult)) (held : List LockKey)
    (log : List Write) (s : Db) : Prop :=
  p.wpe Grows (fun s => s.intact = true) (Knows call) (fun _ _ => True) held log s

theorem knows_done {e : ExamProctorAssignmentEvent} {result : CommandResult}
    (he : Write.appendEvent e ∈ log) (hof : ReceiptOf call e)
    (hid : e.assignmentId = result.assignment.id) :
    Action.knows call (.done (some result)) held log s := by
  intro s' _ _ r hr
  cases hr
  refine ⟨e, ?_, hof, hid⟩
  obtain ⟨before, after, rfl⟩ := List.append_of_mem he
  rw [applyAll_append, applyAll_cons]
  exact (extends_applyAll _ after).events e (List.mem_append_right _ List.mem_cons_self)

theorem receiptOf_receipt {payload : CanonicalPayload} {assignmentId : String} {outcome : EventOutcome}
    (hp : canonicalAssignmentPayload call.input = .ok payload) :
    ReceiptOf call (receipt call.ctx call.input call.command.commandType payload assignmentId
        outcome) := ⟨rfl, rfl, rfl, hp⟩

theorem replay_knows {snap : Db} {payload : CanonicalPayload} {missing : EngineError}
    {result : CommandResult} (hp : canonicalAssignmentPayload call.input = .ok payload)
    (h : replayOf call.ctx call.input snap call.command.commandType payload missing = .ok
        (some result)) (hs : Extends snap s) :
    Action.knows call (.done (some result)) held [] s := by
  intro s' hs' _ r hr
  cases hr
  obtain ⟨e, he, ho, hop, ht, hpayload, hid⟩ := replayOf_some h
  exact ⟨e, hs'.events e (hs.events e he), ⟨ho, hop, ht, by rw [hp, hpayload]⟩, hid⟩

/-- The common start of the commands: a receipt of the operation is replayed. -/
theorem wpe_receipted {missing : EngineError}
    {f : CanonicalPayload → Db → Option CommandResult → Action (Option CommandResult)}
    (hreplay : ∀ payload snap result, f payload snap (some result) = .done (some result))
    (hfresh : ∀ payload snap s, canonicalAssignmentPayload call.input = .ok payload →
      Action.knows call (f payload snap none) [] [] s) :
    Action.knows call (Prog.ofExcept (canonicalAssignmentPayload call.input) >>= fun payload =>
        Prog.snapshot >>= fun snap =>
      Prog.ofExcept (replayOf call.ctx call.input snap call.command.commandType payload missing) >>=
        f payload snap) [] [] s := by
  refine wpe_ofExcept ?_ fun _ _ _ _ => trivial
  intro payload hp
  refine wpe_snapshot ?_
  intro snap _ _
  refine wpe_ofExcept ?_ fun _ _ _ _ => trivial
  intro o ho
  cases o with
  | none => exact hfresh payload snap snap hp
  | some result =>
    rw [hreplay]
    exact replay_knows hp ho (.refl snap)

theorem wpe_append_done {e : ExamProctorAssignmentEvent} {result : CommandResult}
    (hof : ReceiptOf call e) (hid : e.assignmentId = result.assignment.id) :
    Action.knows call (appendEvent e >>= fun _ => .done (some result)) held log s :=
  wpe_insert (fun _ _ _ _ => knows_done (List.mem_append_right _ List.mem_cons_self) hof hid)
    fun _ _ _ _ _ => trivial

theorem wpe_append_audit {e : ExamProctorAssignmentEvent} {r : AuditRecord} {result : CommandResult}
    (hof : ReceiptOf call e) (hid : e.assignmentId = result.assignment.id) :
    Action.knows call (appendEvent e >>= fun _ => Prog.write (.audit r) >>= fun _ => .done
        (some result)) held log s := by
  refine wpe_insert (fun s' _ _ _ => ?_) fun _ _ _ _ _ => trivial
  refine wpe_write fun s'' _ _ => knows_done ?_ hof hid
  exact List.mem_append_left _ (List.mem_append_right _ List.mem_cons_self)

theorem assign_knows {freshId : String} (ht : CommandType.assign = call.command.commandType) :
    Action.knows call (assignProctorToExam call.ctx call.input freshId) [] [] s := by
  unfold assignProctorToExam preReadOperationId
  rw [ht]
  refine wpe_receipted (fun _ _ _ => rfl) ?_
  intro payload snap s hp
  refine wpe_ofExcept (fun _ _ => ?_) fun _ _ _ _ => trivial
  cases snap.findActiveByExamAndProctor call.ctx.organizationId call.input.examId
      call.input.proctorUserId with
  | some existing => exact wpe_append_done (receiptOf_receipt hp) rfl
  | none =>
    exact wpe_insert (fun _ _ _ _ => wpe_append_audit (receiptOf_receipt hp) rfl) fun _ _ _ _ _ =>
      trivial

theorem revoke_knows (ht : CommandType.revoke = call.command.commandType) :
    Action.knows call (revokeProctorFromExam call.ctx call.input) [] [] s := by
  unfold revokeProctorFromExam preReadOperationId
  rw [ht]
  refine wpe_receipted (fun _ _ _ => rfl) ?_
  intro payload snap s hp
  dsimp only
  cases snap.findActiveByExamAndProctor call.ctx.organizationId call.input.examId
    call.input.proctorUserId with
  | some target =>
    refine wpe_hold (fun _ _ _ _ => ?_) fun _ _ => trivial
    exact wpe_write fun _ _ _ => wpe_append_audit (receiptOf_receipt hp) rfl
  | none =>
    cases snap.findMostRecentRevoked call.ctx.organizationId call.input.examId
        call.input.proctorUserId with
    | none => exact wpe_fail fun _ _ => trivial
    | some target =>
      exact wpe_hold (fun _ _ _ _ => wpe_append_done (receiptOf_receipt hp) rfl) fun _ _ => trivial

theorem loser_knows {commandType : CommandType} (ht : commandType = call.command.commandType) :
    Action.knows call (formLoserReceipt call.ctx call.input commandType) [] [] s := by
  unfold formLoserReceipt preReadOperationId
  rw [ht]
  refine wpe_receipted (fun _ _ _ => rfl) ?_
  intro payload snap s hp
  dsimp only
  split
  · exact wpe_fail fun _ _ => trivial
  · exact wpe_append_done (receiptOf_receipt hp) rfl

/-- The lookup is a command with nothing after its start. -/
theorem resolve_eq (ctx : CommandContext) (input : ProctorInput) (commandType : CommandType) :
    resolveCommittedOperation ctx input commandType = (Prog.ofExcept
        (canonicalAssignmentPayload input) >>= fun payload =>
      Prog.snapshot >>= fun snap => Prog.ofExcept (replayOf ctx input snap commandType payload
        (.idempotencyConflict
            s!"Operation {input.operationId} committed but its assignment is missing")) >>= fun o =>
          .done o) := by
  have hdone : ∀ x : Result (Option CommandResult),
      (Prog.ofExcept x : Action _) = Prog.ofExcept x >>= fun o => .done o := by
    intro x
    cases x <;> rfl
  unfold resolveCommittedOperation
  congr 1
  funext payload
  congr 1
  funext snap
  exact hdone _

theorem resolve_knows {commandType : CommandType} (ht : commandType = call.command.commandType) :
    Action.knows call (resolveCommittedOperation call.ctx call.input commandType) [] [] s := by
  rw [resolve_eq, ht]
  refine wpe_receipted (f := fun _ _ => .done) (fun _ _ _ => rfl) ?_
  intro payload snap s _ s' _ _ result hr
  cases hr

theorem call_knows (call : Call) : Action.knows call call.action [] [] s := by
  unfold Call.action
  cases h : call.command with
  | assign freshId => exact assign_knows (by rw [h]; rfl)
  | revoke => exact revoke_knows (by rw [h]; rfl)
  | loserReceipt commandType => exact loser_knows (by rw [h]; rfl)
  | committedOperation commandType => exact resolve_knows (by rw [h]; rfl)

end

/-! ## An operation with a receipt -/

/-- The commands differ after their start only when there is no receipt. -/
theorem call_action (call : Call) :
    ∃ missing, ∃ f : CanonicalPayload → Db → Option CommandResult → Action (Option CommandResult),
    (call.action = Prog.ofExcept (canonicalAssignmentPayload call.input) >>= fun payload =>
        Prog.snapshot >>= fun snap =>
      Prog.ofExcept (replayOf call.ctx call.input snap call.command.commandType payload missing) >>=
        f payload snap) ∧
      ∀ payload snap result, f payload snap (some result) = .done (some result) := by
  unfold Call.action
  cases h : call.command with
  | assign freshId => exact ⟨_, _, rfl, fun _ _ _ => rfl⟩
  | revoke => exact ⟨_, _, rfl, fun _ _ _ => rfl⟩
  | loserReceipt commandType => exact ⟨_, _, rfl, fun _ _ _ => rfl⟩
  | committedOperation commandType => exact ⟨_, fun _ _ => .done, resolve_eq _ _ _, fun _ _ _ => rfl⟩

/-- What a call answers whose operation has the receipt `e`. -/
structure Answers (call : Call) (e : ExamProctorAssignmentEvent) (reply : Reply) : Prop where
  replay : ReceiptOf call e → ∃ result, reply = .ok (some result) ∧
    result.outcome = .idempotentReplayed ∧ result.assignment.id = e.assignmentId
  conflict : ¬ ReceiptOf call e → ∃ err, reply = .error err ∧
    ((∃ message, err = .idempotencyConflict message) ∨
      canonicalAssignmentPayload call.input = .error err)

section
variable {call : Call} {e : ExamProctorAssignmentEvent} {db : Db}

theorem replayOf_receipt (hi : db.intact = true) (he : e ∈ db.events)
    (ho : e.organizationId = call.ctx.organizationId)
    (hop : e.operationId = uuidText call.input.operationId) {payload : CanonicalPayload}
    (hp : canonicalAssignmentPayload call.input = .ok payload) (missing : EngineError) :
    ∃ reply, replayOf call.ctx call.input db call.command.commandType payload missing = reply ∧
    Answers call e reply ∧ reply ≠ .ok none := by
  have hfind : db.findEventByOperationId call.ctx.organizationId
      (uuidText call.input.operationId) = some e := by
    rw [← ho, ← hop]
    exact findEvent_of_mem hi he
  obtain ⟨a, ha, hid⟩ := intact_episode hi he
  refine ⟨_, rfl, ?_⟩
  unfold replayOf
  rw [hfind]
  dsimp only
  by_cases hsame : e.commandType = call.command.commandType ∧ e.canonicalPayload = payload
  · have hof : ReceiptOf call e := ⟨ho, hop, hsame.1, by rw [hp, hsame.2]⟩
    rw [if_pos hsame, ← ho, ha]
    exact ⟨⟨fun _ => ⟨_, rfl, rfl, hid⟩, fun h => absurd hof h⟩, nofun⟩
  · have hof : ¬ ReceiptOf call e := by
      intro h
      have hpayload := h.payload
      rw [hp] at hpayload
      exact hsame ⟨h.command, (Except.ok.inj hpayload).symm⟩
    rw [if_neg hsame]
    exact ⟨⟨fun h => absurd h hof, fun _ => ⟨_, rfl, .inl ⟨_, rfl⟩⟩⟩, nofun⟩

theorem answers_invalid {err : EngineError} (hp : canonicalAssignmentPayload call.input = .error err) :
    Answers call e (.error err) := by
  refine ⟨fun h => ?_, fun _ => ⟨err, rfl, .inr hp⟩⟩
  have hpayload := h.payload
  rw [hp] at hpayload
  cases hpayload

theorem call_committed (ho : e.organizationId = call.ctx.organizationId)
    (hop : e.operationId = uuidText call.input.operationId) (s : Db) :
    call.action.wpe Grows (fun s => s.intact = true ∧ e ∈ s.events) (fun reply _ log _ => log = [] ∧
      Answers call e (.ok reply))
      (fun err _ => Answers call e (.error err)) [] [] s := by
  obtain ⟨missing, f, haction, hf⟩ := call_action call
  rw [haction]
  refine wpe_ofExcept ?_ fun err hp _ _ => answers_invalid hp
  intro payload hp
  refine wpe_snapshot ?_
  intro snap _ hsnap
  obtain ⟨reply, hreply, hanswers, hsome⟩ := replayOf_receipt hsnap.1 hsnap.2 ho hop hp missing
  rw [applyAll_nil, hreply]
  refine wpe_ofExcept ?_ fun err herr _ _ => herr ▸ hanswers
  intro o ho
  cases o with
  | none => exact absurd ho hsome
  | some result =>
    rw [hf]
    exact wpe_done fun _ _ _ => ⟨rfl, ho ▸ hanswers⟩

theorem call_quiet (hi : db.intact = true) (he : e ∈ db.events)
    (ho : e.organizationId = call.ctx.organizationId)
    (hop : e.operationId = uuidText call.input.operationId) :
    ∃ reply, call.action.Quiet reply db := by
  obtain ⟨missing, f, haction, hf⟩ := call_action call
  rw [haction]
  cases hp : canonicalAssignmentPayload call.input with
  | error err => exact ⟨.error err, rfl⟩
  | ok payload =>
    obtain ⟨reply, hreply, _, hsome⟩ := replayOf_receipt hi he ho hop hp missing
    refine ⟨reply, rfl, rfl, ?_⟩
    show Prog.Quiet reply db
      (Prog.ofExcept (replayOf call.ctx call.input db call.command.commandType payload missing) >>=
        f payload db)
    rw [hreply]
    cases reply with
    | error err => rfl
    | ok o =>
      cases o with
      | none => exact absurd rfl hsome
      | some result =>
        rw [show (Prog.ofExcept (.ok (some result)) >>= f payload db) = f payload db (some result)
            from rfl, hf]
        rfl

end

/-! ## Every run -/

theorem transaction_knows (r : Request) (s : Db) (_ : s.intact = true) :
    (transaction r).wp Grows (fun s => s.intact = true) (fun reply _ log s =>
      match reply with
      | .ok reply => ∀ call, r = .call call → Receipted call reply (applyAll s log)
      | .error _ => log = []) [] [] s := by
  have haction : r.action.wpe Grows (fun s => s.intact = true)
      (fun reply _ log s => ∀ call, r = .call call → Receipted call reply (applyAll s log))
        (fun _ _ => True) [] [] s := by
    cases r with
    | call call =>
      refine wpe_mono (fun _ _ _ _ _ h call' hcall => ?_) (fun _ _ _ h => h) (call_knows call)
      cases hcall
      exact h
    | createExam e => exact wpe_write fun _ _ _ => wpe_done fun _ _ _ => nofun
    | changeUser u => exact wpe_write fun _ _ _ => wpe_done fun _ _ _ => nofun
  refine wp_mono ?_ (wp_settle (fun _ _ _ _ => .trans) (fun _ _ _ _ _ h => h)
      (fun _ _ _ _ _ _ h => h) haction)
  intro reply held log s _ h
  cases reply with
  | ok reply => exact h
  | error e => exact h.1

def outline : Outline transaction fun _ => True where
  Inv s := s.intact = true
  Rely := Grows
  Post r reply _ log s :=
    match reply with
    | .ok reply => ∀ call, r = .call call → Receipted call reply (applyAll s log)
    | .error _ => log = []
  refl _ := .refl
  trans _ _ _ _ := .trans
  start := transaction_knows
  commit c held log _ _ hafter _ _ hintact _ := by
    refine ⟨hintact, fun _ _ => ?_⟩
    rw [hafter]
    exact extends_applyAll c.before log

section
variable {m : Machine Db Write LockKey EngineError Request Reply}

/-- The call, if it is of the operation of `e`, writes nothing and gets the answer of `e`. -/
def Retries (e : ExamProctorAssignmentEvent) (r : Request) (reply : Reply) (log : List Write) : Prop :=
  ∀ call, r = .call call → call.ctx.organizationId = e.organizationId →
    uuidText call.input.operationId = e.operationId →
    log = [] ∧ Answers call e reply

theorem transaction_committed (e : ExamProctorAssignmentEvent) (r : Request) (s : Db) :
    (transaction r).wp Grows (fun s => s.intact = true ∧ e ∈ s.events)
      (fun reply _ log _ => Retries e r reply log) [] [] s := by
  by_cases hmatch : ∃ call, r = .call call ∧ call.ctx.organizationId = e.organizationId ∧
    uuidText call.input.operationId = e.operationId
  · obtain ⟨call, rfl, ho, hop⟩ := hmatch
    refine wp_mono ?_ (wp_settle (fun _ _ _ _ => .trans) (fun _ _ _ _ _ h => h) (fun _ _ _ _ _ _ h => h)
      (call_committed ho.symm hop.symm s))
    intro reply _ log _ _ h call' hcall _ _
    cases hcall
    cases reply with
    | ok reply => exact h
    | error err => exact h
  · exact wp_mono (fun _ _ _ _ _ _ call hcall ho hop => absurd ⟨call, hcall, ho, hop⟩ hmatch)
      (wp_true _)

/-- The transactions of an operation that start when it has a receipt. -/
theorem later_committed (h : outline.Holds m) {e : ExamProctorAssignmentEvent}
    (he : e ∈ m.committed.events) (es : List (Event Request)) :
    ∃ cs, (Machine.run transaction m es).history = m.history ++ cs ∧
      ∀ c ∈ cs, m.NotInFlight c.request → ∀ call, c.request = .call call →
        call.ctx.organizationId = e.organizationId →
        uuidText call.input.operationId = e.operationId → c.after = c.before ∧
        Answers call e c.reply := by
  obtain ⟨cs, hh, hcs⟩ :=
    outline.later h (P := fun s => e ∈ s.events) (Q := fun r reply log _ => Retries e r reply log) he
    (fun s w hs => (extends_apply s w).events e hs) (fun r s _ _ _ => transaction_committed e r s)
      es fun _ _ => trivial
  refine ⟨cs, hh, ?_⟩
  intro c hc hnew call hcall ho hop
  obtain ⟨_, log, hq, hafter⟩ := hcs c hc hnew
  obtain ⟨rfl, hanswers⟩ := hq call hcall ho hop
  exact ⟨hafter, hanswers⟩

theorem committed_answers (h : outline.Holds m) {e : ExamProctorAssignmentEvent}
    (he : e ∈ m.committed.events) {call : Call} (ho : call.ctx.organizationId = e.organizationId)
    (hop : uuidText call.input.operationId = e.operationId) :
    ∃ n c, (Machine.run transaction m (.start (.call call) :: List.replicate n
          (.advance m.slots.length))).history = m.history ++ [c] ∧
      c.request = .call call := by
  obtain ⟨reply, hq⟩ := call_quiet h.inv he ho.symm hop.symm
  have hquiet : (transaction (.call call)).Quiet (.ok reply) m.committed := quiet_settle hq
  obtain ⟨n, c, hc, hr, _⟩ := run_quiet hquiet h.inv
  exact ⟨n, c, hc, hr⟩

end

theorem run_revoked {m : Machine Db Write LockKey EngineError Request Reply} (h : outline.Holds m)
    (es : List (Event Request)) {a : ExamProctorAssignment} (ha : a ∈ m.committed.assignments)
    (hs : a.status = .revoked) :
    ∀ b ∈ (Machine.run transaction m es).committed.assignments, b.id = a.id → b.status = .revoked := by
  intro b hb hid
  have hrun : Extends m.committed (Machine.run transaction m es).committed :=
    run_keeps transaction .refl (fun _ _ _ => .trans) extends_apply es m
  obtain ⟨a', ha', hid', hs'⟩ := hrun.episodes a ha
  have hi : (Machine.run transaction m es).committed.intact = true :=
    (outline.holds_run es h fun _ _ => trivial).inv
  simp only [Db.intact, decide_eq_true_eq] at hi
  rw [List.inj_on_of_nodup_map hi.1 hb ha' (hid.trans hid'.symm)]
  exact hs' hs

theorem empty_intact : empty.intact = true := by decide

/-- A successful call of a run has its receipt in the committed state. -/
theorem success_receipt (es : List (Event Request)) {c : Commit Db LockKey Request Reply}
    (hc : c ∈ (Machine.run transaction (.idle empty) es).history) {call : Call}
    {result : CommandResult} (hcall : c.request = .call call) (hreply : c.reply = .ok (some result)) :
    ∃ e ∈ (Machine.run transaction (.idle empty) es).committed.events, ReceiptOf call e ∧
    e.assignmentId = result.assignment.id := by
  obtain ⟨held, log, hpost, hafter⟩ :=
    ((outline.sound empty_intact es fun _ _ => trivial).2.1 c hc).post
  have hreceipted : Receipted call (some result) c.after := by
    have hpost : match c.reply with
        | .ok reply => ∀ call, c.request = .call call → Receipted call reply (applyAll c.before log)
        | .error _ => log = [] := hpost
    rw [hreply] at hpost
    exact hafter ▸ hpost call hcall
  have hextends : Extends c.after (Machine.run transaction (.idle empty) es).committed :=
    run_keeps_after transaction .refl (fun _ _ _ => .trans) extends_apply es (.idle empty)
      (fun c hc => nomatch hc) c hc
  exact receipted_extends hreceipted hextends result rfl

theorem proctor_assignment_safety (es : List (Event Request)) :
    let m := Machine.run transaction (.idle empty) es
    UniqueActive m.committed ∧
    (∀ es', ∀ a ∈ m.committed.assignments, a.status = .revoked →
      ∀ b ∈ (Machine.run transaction m es').committed.assignments, b.id = a.id → b.status = .revoked) ∧
    ∀ c ∈ m.history, ∀ call result, c.request = .call call → c.reply = .ok (some result) →
      ∃ e ∈ m.committed.events, ReceiptOf call e ∧ e.assignmentId = result.assignment.id ∧
        (∀ e' ∈ m.committed.events, e'.organizationId = call.ctx.organizationId →
          e'.operationId = uuidText call.input.operationId → e' = e) ∧
        ∀ retry : Call, retry.ctx.organizationId = call.ctx.organizationId →
          uuidText retry.input.operationId = uuidText call.input.operationId →
          (∀ es', ∃ cs, (Machine.run transaction m es').history = m.history ++ cs ∧
            ∀ c' ∈ cs, m.NotInFlight c'.request → c'.request = .call retry → c'.after = c'.before ∧
            Answers retry e c'.reply) ∧
          ∃ n c', (Machine.run transaction m (.start (.call retry) :: List.replicate n
                (.advance m.slots.length))).history =
            m.history ++ [c'] ∧ c'.request = .call retry := by
  intro m
  have hholds : outline.Holds m :=
    outline.holds_run es (outline.holds_idle empty_intact) fun _ _ => trivial
  refine ⟨intact_uniqueActive hholds.inv, fun es' a ha hs => run_revoked hholds es' ha hs, ?_⟩
  intro c hc call result hcall hreply
  obtain ⟨e, he, hof, hid⟩ := success_receipt es hc hcall hreply
  refine ⟨e, he, hof, hid, ?_, ?_⟩
  · intro e' he' ho hop
    exact intact_receipt hholds.inv he he' (ho.trans hof.organization.symm)
      (hop.trans hof.operation.symm)
  · intro retry ho hop
    have ho : retry.ctx.organizationId = e.organizationId := ho.trans hof.organization.symm
    have hop : uuidText retry.input.operationId = e.operationId := hop.trans hof.operation.symm
    refine ⟨fun es' => ?_, committed_answers hholds he ho hop⟩
    obtain ⟨cs, hh, hcs⟩ := later_committed hholds he es'
    exact ⟨cs, hh, fun c' hc' hnew hcall' => hcs c' hc' hnew retry hcall' ho hop⟩

end ExamSystem.Proctors
