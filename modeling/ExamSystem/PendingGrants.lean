import ExamSystem.Json
import ExamSystem.Transactions

/-!
# The pending time grant of an operator

The record that the tabs of one browser share: what it is in storage, the
methods that read and write it under a lock, and the browser that runs the
calls of its tabs. Each call reads and writes at moments of its own, and a tab
may crash between them.
-/

namespace ExamSystem.PendingGrants

structure PendingGrantCommand where
  attemptId : JsString
  operationId : JsString
  addedSeconds : ℚ
  reasonCode : JsString
  reasonText : JsString
  deriving DecidableEq, Repr

structure InFlightLease where
  tabId : JsString
  leaseId : JsString
  expiresAt : ℚ
  deriving DecidableEq, Repr

/-- The shared record; `schemaVersion` is always 1. -/
structure PendingGrantAuthority where
  organizationId : JsString
  actorId : JsString
  command : PendingGrantCommand
  revision : ℚ
  createdAt : ℚ
  inFlightLease : Option InFlightLease
  deriving DecidableEq, Repr

structure PendingGrantSendClaim where
  operationId : JsString
  revision : ℚ
  leaseId : JsString
  deriving DecidableEq, Repr

inductive CoordinatorError
  | coordinationUnavailable (reason : JsString)
  | alreadyPending (existing : PendingGrantAuthority)
  | leaseConflict (existing : PendingGrantAuthority)
  | compareAndClearMismatch
  deriving DecidableEq, Repr

def isLeaseExpired (lease : InFlightLease) (now : ℚ) : Bool := lease.expiresAt ≤ now

def commandsEqual (a b : PendingGrantCommand) : Bool :=
  a.operationId == b.operationId && a.attemptId == b.attemptId && a.addedSeconds == b.addedSeconds &&
    a.reasonCode == b.reasonCode && a.reasonText == b.reasonText

/-! ## The record in storage -/

def storageKey (orgId actorId : JsString) : JsString :=
  js "exam.pendingGrantAuthority:" ++ orgId ++ js ":" ++ actorId

def number (q : ℚ) : Json := .num (.value q)

def PendingGrantCommand.toJson (c : PendingGrantCommand) : Json :=
  .obj [(js "attemptId", .str c.attemptId), (js "operationId", .str c.operationId),
    (js "addedSeconds", number c.addedSeconds), (js "reasonCode", .str c.reasonCode),
    (js "reasonText", .str c.reasonText)]

def InFlightLease.toJson (l : InFlightLease) : Json :=
  .obj [(js "tabId", .str l.tabId), (js "leaseId", .str l.leaseId),
    (js "expiresAt", number l.expiresAt)]

/-- A lease that is `undefined` has no member. -/
def PendingGrantAuthority.toJson (a : PendingGrantAuthority) : Json :=
  .obj ([(js "schemaVersion", number 1), (js "organizationId", .str a.organizationId),
      (js "actorId", .str a.actorId),
    (js "command", a.command.toJson), (js "revision", number a.revision), (js "createdAt",
      number a.createdAt)] ++
    (a.inFlightLease.map fun l => (js "inFlightLease", l.toJson)).toList)

def property (v : Json) (key : String) : Option Json :=
  match v with
  | .obj entries => entries.lookup (js key)
  | _ => none

def asString : Option Json → Option JsString
  | some (.str s) => some s
  | _ => none

def asNumber : Option Json → Option ℚ
  | some (.num .negZero) => some 0
  | some (.num (.value q)) => some q
  | _ => none

def isValidCommand (cmd : Json) : Bool :=
  (asString (property cmd "attemptId")).isSome && (asString (property cmd "operationId")).isSome &&
    (asNumber (property cmd "addedSeconds")).isSome && (asString (property cmd "reasonCode")).isSome &&
    (asString (property cmd "reasonText")).isSome

def isValidLease : Option Json → Bool
  | none => true
  | some .null => true
  | some lease =>
    (asString (property lease "tabId")).isSome && (asString (property lease "leaseId")).isSome &&
      (asNumber (property lease "expiresAt")).isSome

def isValidAuthority (value : Json) : Bool :=
  (asNumber (property value "schemaVersion") == some 1) &&
    (asString (property value "organizationId")).isSome &&
    (asString (property value "actorId")).isSome && (property value "command").any isValidCommand &&
    (asNumber (property value "revision")).isSome && (asNumber (property value "createdAt")).isSome &&
    isValidLease (property value "inFlightLease")

def PendingGrantCommand.ofJson (cmd : Json) : Option PendingGrantCommand := do
  let attemptId ← asString (property cmd "attemptId")
  let operationId ← asString (property cmd "operationId")
  let addedSeconds ← asNumber (property cmd "addedSeconds")
  let reasonCode ← asString (property cmd "reasonCode")
  let reasonText ← asString (property cmd "reasonText")
  pure { attemptId, operationId, addedSeconds, reasonCode, reasonText }

def InFlightLease.ofJson (lease : Json) : Option InFlightLease := do
  let tabId ← asString (property lease "tabId")
  let leaseId ← asString (property lease "leaseId")
  let expiresAt ← asNumber (property lease "expiresAt")
  pure { tabId, leaseId, expiresAt }

def leaseOf : Option Json → Option InFlightLease
  | none => none
  | some .null => none
  | some lease => InFlightLease.ofJson lease

def PendingGrantAuthority.ofJson (value : Json) : Option PendingGrantAuthority := do
  let organizationId ← asString (property value "organizationId")
  let actorId ← asString (property value "actorId")
  let command ← (property value "command").bind PendingGrantCommand.ofJson
  let revision ← asNumber (property value "revision")
  let createdAt ← asNumber (property value "createdAt")
  pure { organizationId, actorId, command, revision, createdAt,
          inFlightLease := leaseOf (property value "inFlightLease") }

/-- A text in storage: its JSON value, or none when it does not parse. -/
abbrev Stored := Option Json

def readAuthority (key : JsString) (raw : Option Stored) :
    Except CoordinatorError (Option PendingGrantAuthority) :=
  match raw with
  | none => .ok none
  | some none =>
    .error (.coordinationUnavailable (js "Corrupted shared storage record (" ++ key ++
          js "): cannot parse JSON"))
  | some (some parsed) =>
    if isValidAuthority parsed then .ok (PendingGrantAuthority.ofJson parsed)
    else .error (.coordinationUnavailable (js "Invalid shared storage record format (" ++
          key ++ js ")"))

/-! ## The methods -/

structure TabDeps where
  tabId : JsString
  leaseDurationMs : ℚ
  deriving DecidableEq, Repr

inductive Write
  | unchanged
  | set (authority : PendingGrantAuthority)
  | remove
  deriving DecidableEq, Repr

inductive Reply
  | claimed (authority : PendingGrantAuthority) (claim : PendingGrantSendClaim)
  | released (authority : PendingGrantAuthority)
  | cleared
  deriving DecidableEq, Repr

def TabDeps.lease (deps : TabDeps) (leaseId : JsString) (now : ℚ) : InFlightLease :=
  { tabId := deps.tabId, leaseId := leaseId, expiresAt := now + deps.leaseDurationMs }

def reserve (deps : TabDeps) (orgId actorId : JsString) (command : PendingGrantCommand)
    (existing : Option PendingGrantAuthority) (now : ℚ) (leaseId : JsString) :
    Except CoordinatorError (Write × Reply) :=
  match existing with
  | some existing => .error (.alreadyPending existing)
  | none =>
    let authority : PendingGrantAuthority :=
      { organizationId := orgId
        actorId := actorId
        command := command
        revision := 1
        createdAt := now
        inFlightLease := some (deps.lease leaseId now) }
    .ok (.set authority,
      .claimed authority
        { operationId := command.operationId, revision := authority.revision, leaseId := leaseId })

/-- The clock is read for the check of the lease and again for the new lease. -/
def claimForSend (deps : TabDeps) (expectedCommand : PendingGrantCommand)
    (existing : Option PendingGrantAuthority) (checkedAt now : ℚ) (leaseId : JsString) :
    Except CoordinatorError (Write × Reply) :=
  match existing with
  | none => .error (.coordinationUnavailable (js "No pending time-grant command to claim"))
  | some existing =>
    if commandsEqual existing.command expectedCommand = false then
      .error (.coordinationUnavailable
          (js "claimForSend command does not match the stored frozen command"))
    else if existing.inFlightLease.any fun l => !isLeaseExpired l checkedAt then .error
      (.leaseConflict existing)
    else
      let updated :=
        { existing with
          revision := existing.revision + 1, inFlightLease := some (deps.lease leaseId now) }
      .ok (.set updated,
        .claimed updated
          { operationId := updated.command.operationId, revision := updated.revision,
            leaseId := leaseId })

def claimMatches (existing : PendingGrantAuthority) (claim : PendingGrantSendClaim) : Bool :=
  existing.command.operationId == claim.operationId && existing.revision == claim.revision &&
    existing.inFlightLease.map (·.leaseId) == some claim.leaseId

def releaseIndeterminate (claim : PendingGrantSendClaim) (existing : Option PendingGrantAuthority) :
    Except CoordinatorError (Write × Reply) :=
  match existing with
  | none => .error .compareAndClearMismatch
  | some existing =>
    if claimMatches existing claim = false then .error .compareAndClearMismatch
    else
      let updated := { existing with revision := existing.revision + 1, inFlightLease := none }
      .ok (.set updated, .released updated)

def clearConfirmed (claim : PendingGrantSendClaim) (existing : Option PendingGrantAuthority) :
    Except CoordinatorError (Write × Reply) :=
  match existing with
  | none => .ok (.unchanged, .cleared)
  | some existing =>
    if claimMatches existing claim = false then .error .compareAndClearMismatch
      else .ok (.remove, .cleared)

inductive Method
  | reserve (command : PendingGrantCommand)
  | claimForSend (expectedCommand : PendingGrantCommand)
  | releaseIndeterminate (claim : PendingGrantSendClaim)
  | clearConfirmed (claim : PendingGrantSendClaim)
  deriving DecidableEq, Repr

def Method.body (m : Method) (deps : TabDeps) (orgId actorId : JsString)
    (existing : Option PendingGrantAuthority) (checkedAt now : ℚ) (leaseId : JsString) :
    Except CoordinatorError (Write × Reply) :=
  match m with
  | .reserve command => PendingGrants.reserve deps orgId actorId command existing now leaseId
  | .claimForSend expectedCommand =>
    PendingGrants.claimForSend deps expectedCommand existing checkedAt now leaseId
  | .releaseIndeterminate claim => PendingGrants.releaseIndeterminate claim existing
  | .clearConfirmed claim => PendingGrants.clearConfirmed claim existing

/-! ## The browser -/

/-- How far a call is: it waits for the lock, holds it, has read the record, or
has settled. -/
inductive Phase
  | queued | locked
  | found (existing : Option PendingGrantAuthority)
  | settled (result : Except CoordinatorError Reply)
  | crashed

structure Call where
  tab : Nat
  deps : TabDeps
  orgId : JsString
  actorId : JsString
  method : Method
  phase : Phase

def Call.key (c : Call) : JsString := storageKey c.orgId c.actorId

def Call.holds (c : Call) : Bool :=
  match c.phase with
  | .locked => true
  | .found _ => true
  | _ => false

structure HeldLease where
  key : JsString
  lease : InFlightLease
  deriving DecidableEq, Repr

structure IssuedClaim where
  key : JsString
  claim : PendingGrantSendClaim
  deriving DecidableEq, Repr

/-- The tabs of a browser with their storage. Nothing reads the held leases and
the issued claims. -/
structure Browser where
  storage : JsString → Option Stored
  calls : List Call
  clock : ℚ
  leases : List HeldLease
  claims : List IssuedClaim

namespace Browser

def start (now : ℚ) : Browser :=
  { storage := fun _ => none, calls := [], clock := now, leases := [], claims := [] }

def setPhase (w : Browser) (i : Nat) (c : Call) (phase : Phase) : Browser :=
  { w with calls := w.calls.set i { c with phase := phase } }

def put (w : Browser) (key : JsString) : Write → Browser
  | .unchanged => w
  | .set authority => { w with storage := Function.update w.storage key (some (some authority.toJson)) }
  | .remove => { w with storage := Function.update w.storage key none }

/-- The leases and claims after a reply: a new claim holds its lease, and a
release or a clear gives the lease of its claim back. -/
def note (w : Browser) (key : JsString) (m : Method) : Reply → Browser
  | .claimed authority claim =>
    { w with
      leases := w.leases ++ (authority.inFlightLease.map fun l => { key := key, lease := l }).toList
      claims := w.claims ++ [{ key := key, claim := claim }] }
  | .released _ | .cleared =>
    match m with
    | .releaseIndeterminate claim | .clearConfirmed claim =>
      { w with leases := w.leases.filter fun h => ¬(h.key = key ∧ h.lease.leaseId = claim.leaseId) }
    | _ => w

end Browser

inductive Event
  | call (tab : Nat) (deps : TabDeps) (orgId actorId : JsString) (method : Method)
  | acquire (i : Nat)
  | read (i : Nat)
  | finish (i : Nat) (now : ℚ) (leaseId : JsString)
  | fail (i : Nat) (reason : JsString)
  | crash (tab : Nat)
  | tick (now : ℚ)
  deriving DecidableEq, Repr

open Tx

/-- One event, with the key and the write that it makes; the error says that it
cannot happen now. The lock is exclusive, a lease identifier is drawn once, and
the clock does not go back. -/
def Event.step (e : Event) (w : Browser) : Except Unit ((JsString × Write) × Browser) :=
  match e with
  | .call tab deps orgId actorId method =>
    .ok (([], .unchanged), { w with
      calls := w.calls ++
        [{ tab := tab, deps := deps, orgId := orgId, actorId := actorId, method := method,
            phase := .queued }] })
  | .acquire i => do
    let c ← orThrow w.calls[i]? ()
    match c.phase with
    | .queued => do
      require (∀ d ∈ w.calls, d.key = c.key → d.holds = false) ()
      pure (([], .unchanged), w.setPhase i c .locked)
    | _ => .error ()
  | .read i => do
    let c ← orThrow w.calls[i]? ()
    match c.phase with
    | .locked =>
      match readAuthority c.key (w.storage c.key) with
      | .ok existing => pure (([], .unchanged), w.setPhase i c (.found existing))
      | .error e => pure (([], .unchanged), w.setPhase i c (.settled (.error e)))
    | _ => .error ()
  | .finish i now leaseId => do
    let c ← orThrow w.calls[i]? ()
    require (w.clock ≤ now ∧ ∀ x ∈ w.claims, x.claim.leaseId ≠ leaseId) ()
    match c.phase with
    | .found existing =>
      match c.method.body c.deps c.orgId c.actorId existing w.clock now leaseId with
      | .ok (write, reply) =>
        pure ((c.key, write),
          { ((w.put c.key write).note c.key c.method reply).setPhase i c (.settled (.ok reply)) with
            clock := now })
      | .error e => pure (([], .unchanged), { w.setPhase i c (.settled (.error e)) with clock := now })
    | _ => .error ()
  | .fail i reason => do
    let c ← orThrow w.calls[i]? ()
    match c.phase with
    | .settled _ => .error ()
    | .crashed => .error ()
    | _ => pure (([], .unchanged), w.setPhase i c (.settled (.error (.coordinationUnavailable reason))))
  | .crash tab => .ok (([], .unchanged), { w with
      calls := w.calls.map fun c => if c.tab = tab then { c with phase := .crashed } else c })
  | .tick now => do
    require (w.clock ≤ now) ()
    pure (([], .unchanged), { w with clock := now })

end ExamSystem.PendingGrants
