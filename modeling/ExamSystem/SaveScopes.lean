import ExamSystem.OrderedMaps
import ExamSystem.SubmitFlush
import ExamSystem.Transactions

/-!
# The save queue and its scopes

The hook of the exam page that debounces saves: its scopes with their maps, the
timers of the browser, the promises of the saves in flight, and the flushes
that wait for them. A callback of a promise is an event of its own, so it may
run at any moment after the promise it waits for has settled.
-/

namespace ExamSystem.SaveScopes

variable {α : Type}

def FLUSH_TIMEOUT_MS : Int := 10000

structure FlushResult where
  pendingCount : Nat
  failedQuestionIds : List String
  timedOut : Bool
  deriving DecidableEq, Repr

structure PendingEntry (α : Type) where
  timer : Nat
  save : α
  questionGeneration : Nat
  deriving DecidableEq, Repr

/-- A scope; `inflight` holds the numbers of promises. -/
structure SaveScopeState (α : Type) where
  key : Option String
  generation : Nat
  pending : OrderedMap String (PendingEntry α)
  inflight : OrderedMap String Nat
  statuses : OrderedMap String SaveStatus
  questionGenerations : OrderedMap String Nat

def createScopeState (key : Option String) (generation : Nat) : SaveScopeState α :=
  { key := key, generation := generation, pending := .empty, inflight := .empty, statuses := .empty
    questionGenerations := .empty }

structure Timer (α : Type) where
  id : Nat
  scope : Nat
  questionId : String
  save : α
  questionGeneration : Nat
  deriving DecidableEq, Repr

/-- How far a promise of `runSave` is: it waits for the previous one, its save
runs, its status is written, its last callback has run. -/
inductive Phase
  | waiting | running
  | settled (ok : Bool)
  | resolved (ok : Bool)
  deriving DecidableEq, Repr

def Phase.isResolved : Phase → Bool
  | .resolved _ => true
  | _ => false

/-- A promise of `runSave` with what its callbacks close over. -/
structure Operation (α : Type) where
  scope : Nat
  questionId : String
  save : α
  questionGeneration : Nat
  previous : Option Nat
  phase : Phase
  deriving DecidableEq, Repr

structure FlushFrame where
  scope : Nat
  start : Int
  awaiting : List Nat
  deriving DecidableEq, Repr

structure Scheduled (α : Type) where
  scope : Nat
  questionId : String
  save : α
  questionGeneration : Nat
  deriving DecidableEq, Repr

inductive Happened (α : Type)
  | scheduled (s : Scheduled α)
  | started (s : Scheduled α)
  | succeeded (s : Scheduled α)
  | failed (s : Scheduled α)
  deriving DecidableEq, Repr

def Operation.scheduled (o : Operation α) : Scheduled α :=
  { scope := o.scope, questionId := o.questionId, save := o.save,
    questionGeneration := o.questionGeneration }

/-- The state of the hook. A scope object is known by its generation, a promise
by its place among the promises. Nothing reads the journal. -/
structure Hook (α : Type) where
  scopes : Nat → SaveScopeState α
  active : Nat
  mounted : Bool
  failedQuestionIds : List String
  timers : List (Timer α)
  nextTimer : Nat
  operations : List (Operation α)
  flushes : List FlushFrame
  journal : List (Happened α)

namespace Hook

def start (scopeKey : Option String) : Hook α :=
  { scopes := fun _ => createScopeState scopeKey 0
    active := 0
    mounted := true
    failedQuestionIds := []
    timers := []
    nextTimer := 0
    operations := []
    flushes := []
    journal := [] }

def inScope (w : Hook α) (scope : Nat) (f : SaveScopeState α → SaveScopeState α) : Hook α :=
  { w with scopes := Function.update w.scopes scope (f (w.scopes scope)) }

def record (w : Hook α) (h : Happened α) : Hook α := { w with journal := w.journal ++ [h] }

def clearTimeout (w : Hook α) (timer : Nat) : Hook α :=
  { w with timers := w.timers.filter fun t => t.id ≠ timer }

def setStatus (w : Hook α) (scope : Nat) (questionId : String) (status : SaveStatus) : Hook α :=
  let w := w.inScope scope fun s => { s with statuses := OrderedMap.set s.statuses questionId status }
  if w.mounted = false ∨ w.active ≠ scope then w
  else if status = .failed then
    { w with
      failedQuestionIds :=
        if questionId ∈ w.failedQuestionIds then w.failedQuestionIds
        else w.failedQuestionIds ++ [questionId] }
  else { w with failedQuestionIds := w.failedQuestionIds.filter fun id => id ≠ questionId }

/-- A status is written for the save of the question's current generation only. -/
def setStatusIfCurrent (w : Hook α) (o : Operation α) (status : SaveStatus) : Hook α :=
  if OrderedMap.lookup (w.scopes o.scope).questionGenerations
    o.questionId = some o.questionGeneration then
    w.setStatus o.scope o.questionId status
  else w

def setPhase (w : Hook α) (promise : Nat) (o : Operation α) (phase : Phase) : Hook α :=
  { w with operations := w.operations.set promise { o with phase := phase } }

/-- `execute` of a promise: the save starts. -/
def execute (w : Hook α) (promise : Nat) (o : Operation α) : Hook α :=
  ((w.setStatusIfCurrent o .inflight).setPhase promise o .running).record (.started o.scheduled)

def settle (w : Hook α) (promise : Nat) (o : Operation α) (ok : Bool) : Hook α :=
  ((w.setStatusIfCurrent o (if ok then .saved else .failed)).setPhase promise o (.settled ok)).record
    (if ok then .succeeded o.scheduled else .failed o.scheduled)

/-- The last callback of a promise takes it out of the map, when it is still there. -/
def resolve (w : Hook α) (promise : Nat) (o : Operation α) (ok : Bool) : Hook α :=
  (w.setPhase promise o (.resolved ok)).inScope o.scope fun s =>
    if OrderedMap.lookup s.inflight o.questionId = some promise then
      { s with inflight := OrderedMap.delete s.inflight o.questionId }
    else s

def runSave (w : Hook α) (scope : Nat) (questionId : String) (save : α) (questionGeneration : Nat) :
    Hook α :=
  let promise := w.operations.length
  let o : Operation α :=
    { scope := scope
      questionId := questionId
      save := save
      questionGeneration := questionGeneration
      previous := OrderedMap.lookup (w.scopes scope).inflight questionId
      phase := .waiting }
  let w := { w with operations := w.operations ++ [o] }
  let w := if o.previous = none then w.execute promise o else w
  w.inScope scope fun s => { s with inflight := OrderedMap.set s.inflight questionId promise }

def launch (w : Hook α) (scope : Nat) (questionId : String) (save : α) (questionGeneration : Nat) :
    Hook α :=
  (w.inScope scope fun s => { s with pending := OrderedMap.delete s.pending questionId }).runSave
    scope questionId save
    questionGeneration

def drainPending (w : Hook α) (scope : Nat) : Hook α :=
  (w.scopes scope).pending.rows.foldl
    (fun w e => (w.clearTimeout e.2.timer).launch scope e.1 e.2.save e.2.questionGeneration) w

def scheduleSave (w : Hook α) (questionId : String) (save : α) : Hook α :=
  let scope := w.active
  let w := match OrderedMap.lookup (w.scopes scope).pending questionId with
    | some existing => w.clearTimeout existing.timer
    | none => w
  let questionGeneration :=
    (OrderedMap.lookup (w.scopes scope).questionGenerations questionId).getD 0 + 1
  let w := w.inScope scope fun s =>
    { s with questionGenerations := OrderedMap.set s.questionGenerations questionId questionGeneration }
  let w := w.setStatus scope questionId .pending
  let timer : Timer α :=
    { id := w.nextTimer, scope := scope, questionId := questionId, save := save,
      questionGeneration := questionGeneration }
  let w := { w with nextTimer := w.nextTimer + 1, timers := w.timers ++ [timer] }
  let entry : PendingEntry α :=
    { timer := timer.id, save := save, questionGeneration := questionGeneration }
  let w := w.inScope scope fun s => { s with pending := OrderedMap.set s.pending questionId entry }
  w.record (.scheduled
    { scope := scope, questionId := questionId, save := save,
      questionGeneration := questionGeneration })

def fire (w : Hook α) (t : Timer α) : Hook α :=
  let w := w.clearTimeout t.id
  if w.mounted then w.launch t.scope t.questionId t.save t.questionGeneration else w

def flushResult (w : Hook α) (scope : Nat) (timedOut : Bool) : FlushResult :=
  let s := w.scopes scope
  let allTouchedIds :=
    (OrderedMap.keys s.statuses ++ OrderedMap.keys s.inflight ++ OrderedMap.keys s.pending).eraseDups
  { pendingCount := (allTouchedIds.filter fun id =>
      OrderedMap.lookup s.statuses id = some .inflight ∨
      OrderedMap.lookup s.statuses id = some .pending).length
    failedQuestionIds := allTouchedIds.filter fun id => OrderedMap.lookup s.statuses id = some .failed
    timedOut := timedOut }

/-- One turn of the loop of `flush`: it ends with a result or waits for the
promises in flight. -/
def flushRound (w : Hook α) (scope : Nat) (start now : Int) : Option (Nat × FlushResult) × Hook α :=
  let w := w.drainPending scope
  let s := w.scopes scope
  if s.inflight.rows.length = 0 ∧
    s.pending.rows.length = 0 then (some (scope, w.flushResult scope false), w)
  else if FLUSH_TIMEOUT_MS - (now - start) ≤ 0 then (some (scope, w.flushResult scope true), w)
  else
    let frame : FlushFrame :=
      { scope := scope, start := start, awaiting := OrderedMap.values s.inflight }
    (none, { w with flushes := w.flushes ++ [frame] })

def cancelPending (w : Hook α) : Hook α :=
  let entries := (w.scopes w.active).pending.rows
  (entries.foldl (fun w e => w.clearTimeout e.2.timer) w).inScope w.active fun s =>
    { s with pending := .empty }

def switchScope (w : Hook α) (scopeKey : Option String) : Hook α :=
  if (w.scopes w.active).key = scopeKey then w
  else
    let generation := (w.scopes w.active).generation + 1
    let w := w.cancelPending
    { w with
      scopes := Function.update w.scopes (w.active + 1) (createScopeState scopeKey generation)
      active := w.active + 1
      failedQuestionIds := [] }

def isResolved (w : Hook α) (promise : Nat) : Bool := w.operations[promise]?.any (·.phase.isResolved)

end Hook

inductive Event (α : Type)
  | scheduleSave (questionId : String) (save : α)
  | timer (index : Nat)
  | execute (promise : Nat)
  | settle (promise : Nat) (ok : Bool)
  | resolve (promise : Nat)
  | flush (start now : Int)
  | settledRound (index : Nat) (now : Int)
  | timeout (index : Nat)
  | switchScope (scopeKey : Option String)
  | mount
  | unmount
  deriving DecidableEq, Repr

open Tx

/-- One event, and the scope and the result of the flush that it ends; the
error says that it cannot happen now. -/
def Event.step (e : Event α) (w : Hook α) : Except Unit (Option (Nat × FlushResult) × Hook α) :=
  match e with
  | .scheduleSave questionId save => .ok (none, w.scheduleSave questionId save)
  | .timer index => do
    let t ← orThrow w.timers[index]? ()
    pure (none, w.fire t)
  | .execute promise => do
    let o ← orThrow w.operations[promise]? ()
    require (o.phase = .waiting) ()
    let previous ← orThrow o.previous ()
    require (w.isResolved previous = true) ()
    pure (none, w.execute promise o)
  | .settle promise ok => do
    let o ← orThrow w.operations[promise]? ()
    require (o.phase = .running) ()
    pure (none, w.settle promise o ok)
  | .resolve promise => do
    let o ← orThrow w.operations[promise]? ()
    match o.phase with
    | .settled ok => pure (none, w.resolve promise o ok)
    | _ => .error ()
  | .flush start now => .ok (w.flushRound w.active start now)
  | .settledRound index now => do
    let f ← orThrow w.flushes[index]? ()
    require (f.awaiting.all w.isResolved = true) ()
    pure (({ w with flushes := w.flushes.eraseIdx index }).flushRound f.scope f.start now)
  | .timeout index => do
    let f ← orThrow w.flushes[index]? ()
    pure (some (f.scope, w.flushResult f.scope true), { w with flushes := w.flushes.eraseIdx index })
  | .switchScope scopeKey => .ok (none, w.switchScope scopeKey)
  | .mount => .ok (none, { w with mounted := true })
  | .unmount => .ok (none, { w.cancelPending with mounted := false })

end ExamSystem.SaveScopes
