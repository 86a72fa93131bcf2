import ExamSystem.Table
import Mathlib.Algebra.Ring.Int.Defs

/-!
# The email outbox

`emailOutboxRepo` and the workers that drive it. A worker polls in ticks: it
recovers abandoned rows, claims due ones, then hands each claimed row to the
sender and finalises it. Every repository call is one statement, so the steps of
different workers interleave statement by statement; a crash or a lost reply can
come between any two of them.
-/

namespace ExamSystem.Outbox

inductive EmailOutboxStatus
  | pending
  | processing
  | retryWait
  | sent
  | dead
  deriving DecidableEq, Repr

structure EmailOutboxRow where
  id : String
  organizationId : String
  status : EmailOutboxStatus
  attemptCount : Nat
  maxAttempts : Nat
  lockedAt : Option Int
  lockedBy : Option String
  providerMessageId : Option String
  dedupeKey : Option String
  lastError : Option String
  nextAttemptAt : Option Int
  sentAt : Option Int
  createdAt : Int
  updatedAt : Int
  deriving DecidableEq, Repr

abbrev EmailOutbox := Table EmailOutboxRow.id

/-! ## The repository -/

def newRow (organizationId id : String) (maxAttempts : Nat) (dedupeKey : Option String)
    (timestamp : Int) : EmailOutboxRow :=
  { id, organizationId, status := .pending, attemptCount := 0, maxAttempts, lockedAt := none,
    lockedBy := none
    providerMessageId := none, dedupeKey, lastError := none, nextAttemptAt := none, sentAt := none
    createdAt := timestamp, updatedAt := timestamp }

/-- The insert fails on `max_attempts` below 1 (a column check), on a taken id or on
a taken dedupe key of the organization. -/
def create (t : EmailOutbox) (row : EmailOutboxRow) : EmailOutbox :=
  if row.maxAttempts = 0 ∨ t.rows.any (fun r => decide (r.id = row.id) ||
      (row.dedupeKey.isSome && decide (r.organizationId = row.organizationId ∧
          r.dedupeKey = row.dedupeKey))) = true
  then t else t.put row

/-- A due row: first attempts and recovered ones at once, retries at their time. -/
def EmailOutboxRow.due (organizationId : String) (now : Int) (r : EmailOutboxRow) : Bool :=
  decide (r.organizationId = organizationId) &&
    (decide (r.status = .pending) || (decide (r.status = .retryWait) && r.nextAttemptAt.any (· ≤ now)))

def EmailOutboxRow.before (a b : EmailOutboxRow) : Bool :=
  decide (a.createdAt < b.createdAt) || (decide (a.createdAt = b.createdAt) && decide (a.id ≤ b.id))

/-- The candidates of a claim. `skipped` are the rows that other transactions have
locked at that moment. -/
def candidates (t : EmailOutbox) (organizationId : String) (now : Int) (batchSize : Nat)
    (skipped : List String) : List String :=
  (((t.rows.filter fun r => r.due organizationId now && decide (r.id ∉ skipped)).mergeSort
        EmailOutboxRow.before).take batchSize).map
    (·.id)

def EmailOutboxRow.claim (now : Int) (workerInstanceId : String) (r : EmailOutboxRow) :
    EmailOutboxRow :=
  { r with status := .processing, lockedAt := some now, lockedBy := some workerInstanceId
           attemptCount := r.attemptCount + 1, updatedAt := now }

/-- `claimDue`: the rows after the update are returned. -/
def claimDue (t : EmailOutbox) (organizationId : String) (now : Int) (workerInstanceId : String)
    (batchSize : Nat) (skipped : List String) : List EmailOutboxRow × EmailOutbox :=
  let ids := candidates t organizationId now batchSize skipped
  ((t.rows.filter fun r => decide (r.id ∈ ids)).map (EmailOutboxRow.claim now workerInstanceId),
    t.update (fun r => decide (r.id ∈ ids)) (EmailOutboxRow.claim now workerInstanceId) fun _ => rfl)

def EmailOutboxRow.abandoned (organizationId : String) (cutoff : Int) (r : EmailOutboxRow) : Bool :=
  decide (r.organizationId = organizationId) && decide (r.status = .processing) && r.lockedAt.any
    (· ≤ cutoff)

def EmailOutboxRow.recover (now : Int) (r : EmailOutboxRow) : EmailOutboxRow :=
  { r with status := .pending, lockedAt := none, lockedBy := none, updatedAt := now }

/-- `recoverAbandoned`. The rows in `skipped` are those that the statement's snapshot
does not show as abandoned. -/
def recoverAbandoned (t : EmailOutbox) (organizationId : String) (now lockTimeoutMs : Int)
    (skipped : List String) : EmailOutbox :=
  t.update (fun r => r.abandoned organizationId (now - lockTimeoutMs) && decide (r.id ∉ skipped))
    (EmailOutboxRow.recover now)
    fun _ => rfl

def EmailOutboxRow.ownedBy (organizationId id workerInstanceId : String) (r : EmailOutboxRow) : Bool :=
  decide (r.organizationId = organizationId) && decide (r.id = id) && decide (r.status = .processing) &&
    decide (r.lockedBy = some workerInstanceId)

/-- A finalisation: `some` row was updated, or ownership was lost. -/
def finalise (t : EmailOutbox) (organizationId id workerInstanceId : String)
    (f : EmailOutboxRow → EmailOutboxRow) (hf : ∀ r, (f r).id = r.id) : Bool × EmailOutbox :=
  (t.rows.any (EmailOutboxRow.ownedBy organizationId id workerInstanceId),
    t.update (EmailOutboxRow.ownedBy organizationId id workerInstanceId) f hf)

def EmailOutboxRow.unlocked (clock : Int) (r : EmailOutboxRow) : EmailOutboxRow :=
  { r with lockedAt := none, lockedBy := none, updatedAt := clock }

def markSent (t : EmailOutbox) (organizationId id : String) (sentAt : Int)
    (providerMessageId : Option String) (workerInstanceId : String) (clock : Int) :
    Bool × EmailOutbox :=
  finalise t organizationId id workerInstanceId
    (fun r => { r.unlocked clock with
                status := .sent, sentAt := some sentAt, providerMessageId, nextAttemptAt := none })
      fun _ => rfl

def markRetryWait (t : EmailOutbox) (organizationId id : String) (attemptCount : Nat)
    (lastError : String) (nextAttemptAt : Int) (workerInstanceId : String) (clock : Int) :
    Bool × EmailOutbox :=
  finalise t organizationId id workerInstanceId
    (fun r => { r.unlocked clock with
      status := .retryWait, attemptCount, lastError := some lastError
      nextAttemptAt := some nextAttemptAt }) fun _ => rfl

def markDead (t : EmailOutbox) (organizationId id : String) (attemptCount : Nat)
    (lastError : String) (workerInstanceId : String) (clock : Int) : Bool × EmailOutbox :=
  finalise t organizationId id workerInstanceId
    (fun r => { r.unlocked clock with
      status := .dead, attemptCount, lastError := some lastError, nextAttemptAt := none }) fun _ => rfl

/-! ## The worker -/

/-- `now + baseSeconds * 2 ** (attempts - 1)` seconds, in milliseconds. -/
def computeNextRetryAt (now : Int) (attempts : Nat) (baseSeconds : Int) : Int :=
  now + baseSeconds * (2 ^ attempts * 500)

structure ProcessResult where
  processed : Nat := 0
  sent : Nat := 0
  retryWait : Nat := 0
  dead : Nat := 0
  ownershipLost : Nat := 0
  deriving DecidableEq, Repr

/-- A tick in progress: its organization and its `now`, and the counts so far. -/
structure Tick where
  organizationId : String
  now : Int
  retryBaseSeconds : Int
  result : ProcessResult := {}
  deriving DecidableEq, Repr

/-- Where a worker stands in its tick, with the claimed rows it has not finished. -/
inductive Task
  | idle
  | claiming (tick : Tick)
  | delivering (tick : Tick) (rows : List EmailOutboxRow)
  | acknowledging (tick : Tick) (row : EmailOutboxRow) (providerMessageId : Option String)
      (rows : List EmailOutboxRow)
  | failing (tick : Tick) (row : EmailOutboxRow) (lastError : String) (rows : List EmailOutboxRow)
  deriving DecidableEq, Repr

/-- How a statement ends for the worker: it ran, it ran and the reply was lost, or it did not run. -/
inductive Outcome
  | replied
  | lost
  | failed
  deriving DecidableEq, Repr

def Outcome.ran : Outcome → Bool
  | .failed => false
  | _ => true

inductive Event
  | create (organizationId id : String) (maxAttempts : Nat) (dedupeKey : Option String)
      (timestamp : Int)
  | recoverAbandoned (worker : String) (tick : Tick) (lockTimeoutMs : Int) (skipped : List String)
      (outcome : Outcome)
  | claimDue (worker : String) (batchSize : Int) (skipped : List String) (outcome : Outcome)
  | send (worker : String) (result : Except String (Option String))
  | markSent (worker : String) (clock : Int) (outcome : Outcome) (error : String)
  | markFailed (worker : String) (clock : Int) (outcome : Outcome)
  | crash (worker : String)

def Event.worker : Event → Option String
  | .create .. => none
  | .recoverAbandoned w .. => some w
  | .claimDue w .. => some w
  | .send w _ => some w
  | .markSent w .. => some w
  | .markFailed w .. => some w
  | .crash w => some w

structure State where
  outbox : EmailOutbox
  task : String → Task
  reports : List (String × ProcessResult)

namespace State

def init : State := ⟨Table.empty, fun _ => .idle, []⟩

def setTask (s : State) (worker : String) (task : Task) : State :=
  { s with task := fun w => if w = worker then task else s.task w }

def next (s : State) (worker : String) (tick : Tick) (rows : List EmailOutboxRow) : State :=
  match rows with
  | [] => { s.setTask worker .idle with reports := s.reports ++ [(worker, tick.result)] }
  | _ :: _ => s.setTask worker (.delivering tick rows)

def withOutbox (s : State) (t : EmailOutbox) : State := { s with outbox := t }

def claimed (s : State) : Event → List EmailOutboxRow × EmailOutbox
  | .claimDue worker batchSize skipped outcome =>
    match s.task worker with
    | .claiming tick =>
      if 0 < batchSize ∧
        outcome.ran then claimDue s.outbox tick.organizationId tick.now worker batchSize.toNat skipped
      else ([], s.outbox)
    | _ => ([], s.outbox)
  | _ => ([], s.outbox)

def step (s : State) : Event → State
  | .create organizationId id maxAttempts dedupeKey timestamp =>
    s.withOutbox (create s.outbox (newRow organizationId id maxAttempts dedupeKey timestamp))
  | .recoverAbandoned worker tick lockTimeoutMs skipped outcome =>
    match s.task worker with
    | .idle =>
      let t := if outcome.ran then recoverAbandoned s.outbox tick.organizationId tick.now
        lockTimeoutMs skipped else s.outbox
      (s.withOutbox t).setTask worker
        (if outcome = .replied then .claiming { tick with result := {} } else .idle)
    | _ => s
  | .claimDue worker batchSize skipped outcome =>
    match s.task worker with
    | .claiming tick =>
      let (rows, t) := s.claimed (.claimDue worker batchSize skipped outcome)
      if 0 < batchSize ∧ outcome = .replied then
        (s.withOutbox t).next worker
          { tick with result := { tick.result with processed := rows.length } } rows
      else (s.withOutbox t).setTask worker .idle
    | _ => s
  | .send worker result =>
    match s.task worker with
    | .delivering tick (row :: rows) =>
      match result with
      | .ok providerMessageId => s.setTask worker (.acknowledging tick row providerMessageId rows)
      | .error error => s.setTask worker (.failing tick row error rows)
    | _ => s
  | .markSent worker clock outcome error =>
    match s.task worker with
    | .acknowledging tick row providerMessageId rows =>
      let (updated, t) :=
        markSent s.outbox tick.organizationId row.id tick.now providerMessageId worker clock
      match outcome with
      | .replied =>
        (s.withOutbox t).next worker { tick with result :=
          if updated then { tick.result with sent := tick.result.sent + 1 }
          else { tick.result with ownershipLost := tick.result.ownershipLost + 1 } } rows
      -- the call is inside the `try`: an error goes to the `catch` branch of the same row
      | .lost => (s.withOutbox t).setTask worker (.failing tick row error rows)
      | .failed => s.setTask worker (.failing tick row error rows)
    | _ => s
  | .markFailed worker clock outcome =>
    match s.task worker with
    | .failing tick row lastError rows =>
      let exhausted := decide (row.maxAttempts ≤ row.attemptCount)
      let (updated, t) :=
        if exhausted then markDead s.outbox tick.organizationId row.id row.attemptCount lastError
          worker clock
        else markRetryWait s.outbox tick.organizationId row.id row.attemptCount lastError
          (computeNextRetryAt tick.now row.attemptCount tick.retryBaseSeconds) worker clock
      match outcome with
      | .replied =>
        (s.withOutbox t).next worker { tick with result :=
          if updated then
            if exhausted then { tick.result with dead := tick.result.dead + 1 }
            else { tick.result with retryWait := tick.result.retryWait + 1 }
          else { tick.result with ownershipLost := tick.result.ownershipLost + 1 } } rows
      | .lost => (s.withOutbox t).setTask worker .idle
      | .failed => s.setTask worker .idle
    | _ => s
  | .crash worker => s.setTask worker .idle

def run (s : State) (es : List Event) : State := es.foldl step s

def claims (s : State) : List Event → String → Nat
  | [], _ => 0
  | e :: es, id => (s.claimed e).1.countP (fun r => r.id = id) + (s.step e).claims es id

end State

def Task.rows : Task → List EmailOutboxRow
  | .idle => []
  | .claiming _ => []
  | .delivering _ rows => rows
  | .acknowledging _ row _ rows => row :: rows
  | .failing _ row _ rows => row :: rows

end ExamSystem.Outbox
