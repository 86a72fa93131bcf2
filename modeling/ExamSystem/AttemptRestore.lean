import ExamSystem.Transactions
import Mathlib.Data.List.Basic

/-!
# Restoring a disrupted attempt from the exam page

The exam page and its restore hook over a whole session: the routes that the
candidate opens, the loads of the page, the restores, and the requests in
flight. A visit is the time between two changes of the route; its number is the
generation of the hook. The effects of a render run before the next event.
-/

namespace ExamSystem.AttemptRestore

structure CandidateTakeSnapshot where
  attemptId : String
  isEditable : Bool
  canResume : Bool
  deriving DecidableEq, Repr

inductive RestoreState
  | idle | restoring | failed
  deriving DecidableEq, Repr

/-- The snapshot of the page, the attempt and the visit whose request fetched
it, and whether it is the first of the visit. Only `data` is read. -/
structure PageSnapshot where
  data : CandidateTakeSnapshot
  requestedFor : String
  visit : Nat
  first : Bool
  deriving DecidableEq, Repr

/-- A request in flight: a load with its load generation, the re-read after a
terminal signal, or the two stages of a restore. -/
inductive RequestKind
  | load (loadGeneration : Nat)
  | reconciliation (loadGeneration : Nat)
  | restore
  | reload (postErrorCode : Option String)
  deriving DecidableEq, Repr

structure Request where
  id : Nat
  attemptId : String
  generation : Nat
  kind : RequestKind
  deriving DecidableEq, Repr

def Request.isRestore (r : Request) : Bool :=
  match r.kind with
  | .restore => true
  | .reload _ => true
  | _ => false

inductive Response
  | acknowledged
  | snapshot (data : CandidateTakeSnapshot)
  | failed (code : String)
  deriving DecidableEq, Repr

/-- The state of the page and of its hook; the refs that follow the route are
the route. Nothing reads `restores`, the restores started with their visits. -/
structure Page where
  attemptId : Option String
  loadGeneration : Nat
  snapshot : Option PageSnapshot
  isLoading : Bool
  loadError : Bool
  reconciliationInFlight : Option Nat
  restoreState : RestoreState
  generation : Nat
  restoreInFlight : Option String
  restoredForAttempt : Option String
  effectDeps : Option String × Bool
  requests : List Request
  nextRequest : Nat
  restores : List (String × Nat)
  deriving DecidableEq, Repr

inductive Surface
  | loading | loadError | restoring | restoreFailed | exam
  deriving DecidableEq, Repr

namespace Page

def snapshotMatchesRoute (w : Page) : Bool :=
  w.snapshot.any fun s => some s.data.attemptId == w.attemptId

def canResume (w : Page) : Bool := w.snapshotMatchesRoute && w.snapshot.any fun s => s.data.canResume

def surface (w : Page) : Surface :=
  if w.isLoading then .loading
  else if w.loadError || !w.snapshotMatchesRoute then .loadError
  else
    match w.restoreState with
    | .restoring => .restoring
    | .failed => .restoreFailed
    | .idle => .exam

def send (w : Page) (attemptId : String) (kind : RequestKind) : Page :=
  { w with
    requests := w.requests ++
      [{ id := w.nextRequest, attemptId := attemptId, generation := w.generation, kind := kind }]
    nextRequest := w.nextRequest + 1 }

def isStale (w : Page) (r : Request) : Bool :=
  r.generation ≠ w.generation || w.attemptId ≠ some r.attemptId

def isCurrentLoad (w : Page) (r : Request) (loadGeneration : Nat) : Bool :=
  loadGeneration = w.loadGeneration && w.attemptId = some r.attemptId

def performRestore (w : Page) : Page :=
  match w.attemptId with
  | none => w
  | some attemptId =>
    if w.restoreInFlight = some attemptId then w
    else
      { w with
        restoreInFlight := some attemptId
        restoreState := .restoring
        restoredForAttempt := some attemptId
        restores := w.restores ++ [(attemptId, w.generation)] }.send attemptId .restore

/-- The effect that restores by itself runs when its dependencies changed. -/
def runEffects (w : Page) : Page :=
  if w.effectDeps = (w.attemptId, w.canResume) then w
  else
    let w := { w with effectDeps := (w.attemptId, w.canResume) }
    if w.attemptId = none ∨ w.canResume = false then w
    else if w.restoredForAttempt = w.attemptId then w
    else w.performRestore

def loadSnapshot (w : Page) : Page :=
  match w.attemptId with
  | none => w
  | some attemptId =>
    { w with
      loadGeneration := w.loadGeneration + 1, isLoading := true, loadError := false }.send attemptId
      (.load (w.loadGeneration + 1))

def reconcileAuthoritativeAttempt (w : Page) : Page :=
  match w.attemptId with
  | none => w
  | some attemptId =>
    if w.reconciliationInFlight.isSome then w
    else { w with reconciliationInFlight := some w.nextRequest }.send attemptId
      (.reconciliation w.loadGeneration)

def applySnapshot (w : Page) (r : Request) (data : CandidateTakeSnapshot) : Page :=
  { w with
    snapshot := some
      { data := data, requestedFor := r.attemptId, visit := r.generation, first := w.snapshot.isNone } }

def start (attemptId : Option String) : Page :=
  loadSnapshot
    { attemptId := attemptId
      loadGeneration := 0
      snapshot := none
      isLoading := true
      loadError := false
      reconciliationInFlight := none
      restoreState := .idle
      generation := 0
      restoreInFlight := none
      restoredForAttempt := none
      effectDeps := (attemptId, false)
      requests := []
      nextRequest := 0
      restores := [] }

def changeRoute (w : Page) (attemptId : Option String) : Page :=
  { w with
    attemptId := attemptId
    loadGeneration := w.loadGeneration + 1
    snapshot := none
    isLoading := true
    loadError := false
    reconciliationInFlight := none
    restoreState := .idle
    generation := w.generation + 1
    restoredForAttempt := none }

def releaseInFlightIfOwner (w : Page) (r : Request) : Page :=
  if w.restoreInFlight = some r.attemptId then { w with restoreInFlight := none } else w

def finish (w : Page) (index : Nat) : Page := { w with requests := w.requests.eraseIdx index }

def goOn (w : Page) (index : Nat) (r : Request) (postErrorCode : Option String) : Page :=
  { w with requests := w.requests.set index { r with kind := .reload postErrorCode } }

/-- What the answer to the command does: any error is left to the snapshot. -/
def settleRestore (w : Page) (index : Nat) (r : Request) : Response → Page
  | .failed code =>
    if w.isStale r then (w.finish index).releaseInFlightIfOwner r else w.goOn index r (some code)
  | _ => w.goOn index r none

/-- The snapshot after a restore decides; the slot is released in the end. -/
def settleReload (w : Page) (index : Nat) (r : Request) (response : Response) : Page :=
  let w := w.finish index
  let w :=
    if w.isStale r then w
    else
      match response with
      | .snapshot data =>
        if data.attemptId ≠ r.attemptId then { w with restoreState := .failed }
        else if data.isEditable then { w.applySnapshot r data with restoreState := .idle }
        else if data.canResume = false then { w.applySnapshot r data with restoreState := .idle }
        else { w with restoreState := .failed }
      | _ => { w with restoreState := .failed }
  w.releaseInFlightIfOwner r

def settleLoad (w : Page) (index : Nat) (r : Request) (loadGeneration : Nat) (response : Response) :
    Page :=
  let w := w.finish index
  if w.isCurrentLoad r loadGeneration then
    match response with
    | .snapshot data => { w.applySnapshot r data with isLoading := false }
    | _ => { w with loadError := true, isLoading := false }
  else w

def settleReconciliation (w : Page) (index : Nat) (r : Request) (loadGeneration : Nat)
    (response : Response) : Page :=
  let w := w.finish index
  let w :=
    match response with
    | .snapshot data => if w.isCurrentLoad r loadGeneration then w.applySnapshot r data else w
    | _ => w
  if w.reconciliationInFlight = some r.id then { w with reconciliationInFlight := none } else w

def settle (w : Page) (index : Nat) (r : Request) (response : Response) : Page :=
  match r.kind with
  | .load loadGeneration => w.settleLoad index r loadGeneration response
  | .reconciliation loadGeneration => w.settleReconciliation index r loadGeneration response
  | .restore => w.settleRestore index r response
  | .reload _ => w.settleReload index r response

end Page

/-- A response may come at any later time or never; the retry is offered on the
failed surface and over a snapshot that can be resumed. -/
inductive Event
  | navigate (attemptId : Option String)
  | load
  | reconcile
  | retry
  | respond (index : Nat) (response : Response)
  deriving DecidableEq, Repr

open Tx

def Event.step (e : Event) (w : Page) : Except Unit (Unit × Page) :=
  match e with
  | .navigate attemptId => do
    require (w.attemptId ≠ attemptId) ()
    pure ((), (w.changeRoute attemptId).loadSnapshot.runEffects)
  | .load => .ok ((), w.loadSnapshot)
  | .reconcile => .ok ((), w.reconcileAuthoritativeAttempt)
  | .retry => do
    require (w.canResume = true ∨ w.restoreState = .failed) ()
    pure ((), w.performRestore)
  | .respond index response => do
    let r ← orThrow w.requests[index]? ()
    pure ((), (w.settle index r response).runEffects)

end ExamSystem.AttemptRestore
