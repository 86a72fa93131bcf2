import Mathlib.Data.List.Infix
import Mathlib.Data.List.Perm.Basic
import Mathlib.Algebra.Order.Group.Multiset
import Mathlib.Tactic.Abel

/-!
# The buffer of client events

The page queues its events and sends them in batches. A batch that fails goes
back to the front of the queue and is retried after a backoff, and the oldest
events make room. The transport cuts a batch into requests, and the server
stores the events of a request.
-/

namespace ExamSystem.Telemetry

section
variable {ε : Type}

/-! ## Requests -/

def KEEPALIVE_MAX_BODY_BYTES : Nat := 64 * 1024

def marginal (textLength : ε → Nat) (event : ε) : Nat := textLength event + 1

def aloneFits (textLength : ε → Nat) (event : ε) : Bool :=
  marginal textLength event ≤ KEEPALIVE_MAX_BODY_BYTES

/-- The variables of the loop of `planRequests`. -/
structure Plan (ε : Type) where
  requests : List (List ε)
  current : List ε
  currentBytes : Nat

def planEvent (textLength : ε → Nat) (plan : Plan ε) (event : ε) : Plan ε :=
  if aloneFits textLength event then
    if plan.currentBytes + marginal textLength event > KEEPALIVE_MAX_BODY_BYTES ∧
      plan.current.length > 0 then
      ⟨plan.requests ++ [plan.current], [event], marginal textLength event⟩
    else ⟨plan.requests, plan.current ++ [event], plan.currentBytes + marginal textLength event⟩
  else plan

def Plan.close (plan : Plan ε) : List (List ε) :=
  if plan.current.length > 0 then plan.requests ++ [plan.current] else plan.requests

def planRequests (textLength : ε → Nat) (events : List ε) : List (List ε) :=
  (events.foldl (planEvent textLength) ⟨[], [], 0⟩).close

/-! ## The server -/

def CLIENT_EVENT_BATCH_MAX_SIZE : Nat := 50

/-- What the pages share: the length of an event's text, and the schema that the
server checks an event with. -/
structure Wire (ε : Type) where
  textLength : ε → Nat
  schema : ε → Bool

def Wire.fits (wire : Wire ε) (event : ε) : Bool := aloneFits wire.textLength event

def ingest (wire : Wire ε) (events : List ε) : Option (List ε) :=
  if events.length ≤ CLIENT_EVENT_BATCH_MAX_SIZE ∧ events.all wire.schema then some events else none

/-! ## The transport -/

/-- What becomes of a request: it fails, its rows are stored and the answer is
lost, or it is answered. -/
inductive Delivery
  | failed | unanswered | answered
  deriving DecidableEq, Repr

def sendOne (wire : Wire ε) (delivery : Delivery) (stored events : List ε) : Option Nat × List ε :=
  match ingest wire events, delivery with
  | none, _ | _, .failed => (none, stored)
  | some rows, .unanswered => (none, stored ++ rows)
  | some rows, .answered => (some rows.length, stored ++ rows)

def sendRequests (wire : Wire ε) : (Nat → Delivery) → Nat → Nat → List (List ε) → List ε → Bool × List ε
  | _, totalSent, totalAccepted, [], stored => (totalAccepted == totalSent && totalSent > 0, stored)
  | deliveries, totalSent, totalAccepted, batch :: rest, stored =>
    match sendOne wire (deliveries 0) stored batch with
    | (none, stored) => (false, stored)
    | (some accepted, stored) =>
      if accepted < batch.length then (false, stored)
      else sendRequests wire (fun i => deliveries (i + 1)) (totalSent + batch.length)
        (totalAccepted + accepted) rest stored

def postClientEvents (wire : Wire ε) (deliveries : Nat → Delivery) (stored events : List ε) :
    Bool × List ε :=
  if events.length = 0 then
    let (accepted, stored) := sendOne wire (deliveries 0) stored []
    (accepted.isSome, stored)
  else
    let requests := planRequests wire.textLength events
    if requests.length = 0 then (false, stored) else sendRequests wire deliveries 0 0 requests stored

/-! ## The buffer -/

def FAILURE_BACKOFF_MAX_MS : Nat := 5 * 60000

structure Options where
  batchSize : Nat
  maxBufferSize : Nat
  failureBackoffBaseMs : Nat

def defaultOptions : Options := ⟨20, 200, 10000⟩

structure ClientEventBuffer (ε : Type) where
  queue : List ε
  /-- The batch of the flush that is under way. -/
  flushing : Option (List ε)
  flushBlockedUntil : Nat
  consecutiveFailures : Nat

namespace ClientEventBuffer

def computeBackoff (o : Options) (b : ClientEventBuffer ε) : Nat :=
  min (o.failureBackoffBaseMs * 2 ^ (b.consecutiveFailures - 1)) FAILURE_BACKOFF_MAX_MS

def overflow (o : Options) (queue : List ε) : List ε := queue.take (queue.length - o.maxBufferSize)

def enforceMaxSize (o : Options) (b : ClientEventBuffer ε) : ClientEventBuffer ε :=
  if b.queue.length > o.maxBufferSize then
    { b with queue := b.queue.drop (b.queue.length - o.maxBufferSize) } else b

def flush (o : Options) (now : Nat) (b : ClientEventBuffer ε) : ClientEventBuffer ε :=
  if b.flushing.isSome then b
  else if now < b.flushBlockedUntil then b
  else if b.queue.length = 0 then b
  else { b with queue := b.queue.drop o.batchSize, flushing := some (b.queue.take o.batchSize) }

def push (o : Options) (now : Nat) (event : ε) (b : ClientEventBuffer ε) : ClientEventBuffer ε :=
  let b := enforceMaxSize o { b with queue := b.queue ++ [event] }
  if b.queue.length ≥ o.batchSize then b.flush o now else b

def settle (o : Options) (now : Nat) (ok : Bool) (batch : List ε) (b : ClientEventBuffer ε) :
    ClientEventBuffer ε :=
  let b := { b with flushing := none }
  if ok then
    let b := { b with consecutiveFailures := 0, flushBlockedUntil := 0 }
    if b.queue.length > 0 then b.flush o now else b
  else
    let b := { b with consecutiveFailures := b.consecutiveFailures + 1 }
    enforceMaxSize o { b with flushBlockedUntil := now + b.computeBackoff o, queue := batch ++ b.queue }

end ClientEventBuffer

/-! ## Runs -/

/-- A page and its server, and what has happened: the events that were pushed,
those whose batch was sent, those that made room, and the times of the failures
since a batch was last sent, the latest first. -/
structure Session (ε : Type) where
  buffer : ClientEventBuffer ε
  stored : List ε
  pushed : List ε
  sent : List ε
  dropped : List ε
  failures : List Nat

inductive Act (ε : Type)
  | push (now : Nat) (event : ε)
  /-- A timer, or a page that is hidden. -/
  | flush (now : Nat)
  | settle (now : Nat) (deliveries : Nat → Delivery)

def Act.now : Act ε → Nat
  | .push now _ | .flush now | .settle now _ => now

def Act.event : Act ε → Option ε
  | .push _ event => some event
  | _ => none

namespace Session

def init : Session ε := ⟨⟨[], none, 0, 0⟩, [], [], [], [], []⟩

def batch (s : Session ε) : List ε := s.buffer.flushing.getD []

def settled (wire : Wire ε) (o : Options) (now : Nat) (deliveries : Nat → Delivery) (s : Session ε)
    (batch : List ε) : Session ε :=
  let (ok, stored) := postClientEvents wire deliveries s.stored batch
  let buffer := s.buffer.settle o now ok batch
  if ok then { s with buffer, stored, sent := s.sent ++ batch, failures := [] }
  else
    { s with
      buffer, stored
      dropped := s.dropped ++ ClientEventBuffer.overflow o (batch ++ s.buffer.queue)
      failures := now :: s.failures }

def step (wire : Wire ε) (o : Options) (s : Session ε) : Act ε → Session ε
  | .push now event =>
    { s with
      buffer := s.buffer.push o now event
      pushed := s.pushed ++ [event]
      dropped := s.dropped ++ ClientEventBuffer.overflow o (s.buffer.queue ++ [event]) }
  | .flush now => { s with buffer := s.buffer.flush o now }
  | .settle now deliveries =>
    match s.buffer.flushing with
    | none => s
    | some batch => s.settled wire o now deliveries batch

def run (wire : Wire ε) (o : Options) (s : Session ε) (acts : List (Act ε)) : Session ε :=
  acts.foldl (step wire o) s

end Session

/-! ## What a plan covers -/

section
variable (textLength : ε → Nat)

/-- What the loop of `planRequests` keeps: `events` are those it has seen. -/
structure Plan.Sound (events : List ε) (plan : Plan ε) : Prop where
  covers : plan.requests.flatten ++ plan.current = events.filter (aloneFits textLength)
  bytes : plan.currentBytes = (plan.current.map (marginal textLength)).sum
  small : plan.currentBytes ≤ KEEPALIVE_MAX_BODY_BYTES
  full : ∀ r ∈ plan.requests, r ≠ [] ∧ (r.map (marginal textLength)).sum ≤ KEEPALIVE_MAX_BODY_BYTES

theorem Plan.Sound.planEvent {events : List ε} {plan : Plan ε} (h : plan.Sound textLength events)
    (event : ε) :
    (planEvent textLength plan event).Sound textLength (events ++ [event]) := by
  unfold Telemetry.planEvent
  by_cases hfits : aloneFits textLength event = true
  · have hmarginal : marginal textLength event ≤ KEEPALIVE_MAX_BODY_BYTES := by
      simpa [aloneFits] using hfits
    rw [if_pos hfits]
    split
    · rename_i hexceeds
      refine ⟨?_, by simp, hmarginal, ?_⟩
      · simp [List.filter_append, hfits, ← h.covers]
      · intro r hr
        rcases List.mem_append.mp hr with hr | hr
        · exact h.full r hr
        · rw [List.mem_singleton.mp hr, ← h.bytes]
          exact ⟨List.ne_nil_of_length_pos hexceeds.2, h.small⟩
    · rename_i hroom
      refine ⟨?_, by simp [h.bytes], ?_, h.full⟩
      · simp [List.filter_append, hfits, ← h.covers]
      · by_cases hcurrent : plan.current.length > 0
        · exact Nat.le_of_not_lt fun hlt => hroom ⟨hlt, hcurrent⟩
        · have hbytes := h.bytes
          simp only [List.length_eq_zero_iff.mp (Nat.eq_zero_of_not_pos hcurrent), List.map_nil,
            List.sum_nil] at hbytes
          simpa [hbytes] using hmarginal
  · rw [if_neg hfits]
    refine ⟨?_, h.bytes, h.small, h.full⟩
    simp [List.filter_append, hfits, h.covers]

theorem plan_sound : ∀ (rest events : List ε) {plan : Plan ε}, plan.Sound textLength events →
    (rest.foldl (planEvent textLength) plan).Sound textLength (events ++ rest)
  | [], events, _, h => by simpa using h
  | event :: rest, events, _, h => by
    have := plan_sound rest (events ++ [event]) (h.planEvent textLength event)
    simpa using this

theorem planRequests_sound (events : List ε) :
    (planRequests textLength events).flatten = events.filter (aloneFits textLength) ∧
      ∀ r ∈ planRequests textLength events, r ≠ [] ∧
      (r.map (marginal textLength)).sum ≤ KEEPALIVE_MAX_BODY_BYTES := by
  have hinit : (⟨[], [], 0⟩ : Plan ε).Sound textLength [] := ⟨rfl, rfl, Nat.zero_le _, by simp⟩
  have h := plan_sound textLength events [] hinit
  rw [List.nil_append] at h
  unfold planRequests Plan.close
  split
  · rename_i hcurrent
    refine ⟨by simp [h.covers], ?_⟩
    intro r hr
    rcases List.mem_append.mp hr with hr | hr
    · exact h.full r hr
    · rw [List.mem_singleton.mp hr, ← h.bytes]
      exact ⟨List.ne_nil_of_length_pos hcurrent, h.small⟩
  · rename_i hcurrent
    refine ⟨?_, h.full⟩
    have := h.covers
    rwa [List.length_eq_zero_iff.mp (Nat.eq_zero_of_not_pos hcurrent), List.append_nil] at this

end

/-! ## What a send stores -/

section
variable (wire : Wire ε)

theorem sendOne_cases (delivery : Delivery) (stored events : List ε) :
    sendOne wire delivery stored events = (none, stored) ∨
      (events.all wire.schema = true ∧ (sendOne wire delivery stored events).2 = stored ++ events ∧
        ∀ n, (sendOne wire delivery stored events).1 = some n → n = events.length) := by
  unfold sendOne ingest
  by_cases h : events.length ≤ CLIENT_EVENT_BATCH_MAX_SIZE ∧ events.all wire.schema = true
  · rw [if_pos h]
    cases delivery with
    | failed => exact .inl rfl
    | unanswered => exact .inr ⟨h.2, rfl, fun n hn => by cases hn⟩
    | answered => exact .inr ⟨h.2, rfl, fun n hn => (Option.some.inj hn).symm⟩
  · rw [if_neg h]
    exact .inl rfl

/-- A send stores some first requests, and all of them where it reports success. -/
theorem sendRequests_stored :
    ∀ (batches : List (List ε)) (deliveries : Nat → Delivery) (sent accepted : Nat) (stored : List ε),
    ∃ taken, taken <+: batches ∧ (sendRequests wire deliveries sent accepted batches stored).2 =
      stored ++ taken.flatten ∧ (∀ r ∈ taken, r.all wire.schema = true) ∧
      ((sendRequests wire deliveries sent accepted batches stored).1 = true → taken = batches)
  | [], _, _, _, stored => ⟨[], List.prefix_rfl, by simp [sendRequests], by simp, fun _ => rfl⟩
  | batch :: rest, deliveries, sent, accepted, stored => by
    simp only [sendRequests]
    have hone := sendOne_cases wire (deliveries 0) stored batch
    cases hsend : sendOne wire (deliveries 0) stored batch with
    | mk answer stored' =>
      rw [hsend] at hone
      rcases hone with hone | ⟨hschema, hstored, hcount⟩
      · cases hone
        exact ⟨[], List.nil_prefix, by simp, by simp, fun h => by cases h⟩
      · simp only at hstored hcount
        subst hstored
        have halone : ∃ taken, taken <+: batch :: rest ∧ stored ++ batch = stored ++ taken.flatten ∧
            ∀ r ∈ taken, r.all wire.schema = true :=
          ⟨[batch], by simp, by simp, by simpa using hschema⟩
        cases answer with
        | none =>
          obtain ⟨taken, hprefix, heq, hall⟩ := halone
          exact ⟨taken, hprefix, heq, hall, fun h => by cases h⟩
        | some n =>
          simp only [hcount n rfl, Nat.lt_irrefl, if_false]
          obtain ⟨taken, hprefix, heq, hall, hok⟩ :=
            sendRequests_stored rest (fun i => deliveries (i + 1)) (sent + batch.length)
              (accepted + batch.length) (stored ++ batch)
          refine ⟨batch :: taken, List.cons_prefix_cons.mpr ⟨rfl, hprefix⟩, by simp [heq], ?_,
            fun h => by rw [hok h]⟩
          intro r hr
          rcases List.mem_cons.mp hr with rfl | hr
          · exact hschema
          · exact hall r hr

/-- The server stores a first part of the events of a batch that fit, and all of
them where the batch is reported as sent. -/
theorem postClientEvents_stored (deliveries : Nat → Delivery) (stored events : List ε) :
    ∃ extra, (postClientEvents wire deliveries stored events).2 = stored ++ extra ∧
      extra <+: events.filter wire.fits ∧
      extra.all wire.schema = true ∧ ((postClientEvents wire deliveries stored events).1 = true →
        extra = events.filter wire.fits) := by
  unfold postClientEvents
  by_cases hempty : events.length = 0
  · rw [if_pos hempty]
    obtain rfl := List.length_eq_zero_iff.mp hempty
    refine ⟨[], ?_, by simp, rfl, by simp⟩
    rcases sendOne_cases wire (deliveries 0) stored [] with h | ⟨_, h, _⟩
    · simp [h]
    · simpa using h
  · rw [if_neg hempty]
    obtain ⟨hcovers, -⟩ := planRequests_sound wire.textLength events
    by_cases hnone : (planRequests wire.textLength events).length = 0
    · simp only [hnone, if_true]
      exact ⟨[], by simp, by simp, rfl, fun h => by cases h⟩
    · simp only [hnone, if_false]
      obtain ⟨taken, ⟨later, hlater⟩, hstored, hall, hok⟩ :=
        sendRequests_stored wire (planRequests wire.textLength events) deliveries 0 0 stored
      refine ⟨taken.flatten, hstored, ⟨later.flatten, ?_⟩, ?_, fun h => ?_⟩
      · rw [← List.flatten_append, hlater]
        exact hcovers
      · rw [List.all_flatten, List.all_eq_true]
        exact hall
      · rw [hok h]
        exact hcovers

end

/-! ## The buffer -/

namespace ClientEventBuffer

def waiting (b : ClientEventBuffer ε) : List ε := b.flushing.getD [] ++ b.queue

variable {o : Options} {now : Nat} {b : ClientEventBuffer ε}

/-- A flush does nothing, or starts a batch that nothing blocks. -/
theorem flush_cases (o : Options) (now : Nat) (b : ClientEventBuffer ε) :
    b.flush o now = b ∨ (b.flushing = none ∧ b.flushBlockedUntil ≤ now ∧
      b.flush o now =
        { b with queue := b.queue.drop o.batchSize, flushing := some (b.queue.take o.batchSize) }) := by
  unfold flush
  by_cases hflushing : b.flushing.isSome = true
  · exact .inl (if_pos hflushing)
  by_cases hblocked : now < b.flushBlockedUntil
  · rw [if_neg hflushing, if_pos hblocked]
    exact .inl rfl
  by_cases hempty : b.queue.length = 0
  · rw [if_neg hflushing, if_neg hblocked, if_pos hempty]
    exact .inl rfl
  rw [if_neg hflushing, if_neg hblocked, if_neg hempty]
  exact .inr ⟨by simpa using hflushing, Nat.le_of_not_lt hblocked, rfl⟩

theorem waiting_flush (o : Options) (now : Nat) (b : ClientEventBuffer ε) :
    (b.flush o now).waiting = b.waiting := by
  rcases flush_cases o now b with h | ⟨hflushing, _, h⟩
  · rw [h]
  · rw [h]
    simp [waiting, hflushing]

theorem enforceMaxSize_eq (o : Options) (b : ClientEventBuffer ε) :
    enforceMaxSize o b = { b with queue := b.queue.drop (b.queue.length - o.maxBufferSize) } := by
  unfold enforceMaxSize
  split
  · rfl
  · rename_i h
    have : b.queue.length - o.maxBufferSize = 0 := by omega
    simp [this]

theorem overflow_append (o : Options) (queue : List ε) :
    overflow o queue ++ queue.drop (queue.length - o.maxBufferSize) = queue := List.take_append_drop _ _

theorem queue_enforceMaxSize (o : Options) (b : ClientEventBuffer ε) :
    (enforceMaxSize o b).queue.length ≤ o.maxBufferSize := by
  rw [enforceMaxSize_eq]
  simp only [List.length_drop]
  omega

theorem queue_flush (o : Options) (now : Nat) (b : ClientEventBuffer ε) :
    (b.flush o now).queue.length ≤ b.queue.length := by
  rcases flush_cases o now b with h | ⟨_, _, h⟩
  · rw [h]
  · rw [h]
    simp

theorem flushing_flush (h : (b.flushing.getD []).length ≤ o.batchSize) :
    ((b.flush o now).flushing.getD []).length ≤ o.batchSize := by
  rcases flush_cases o now b with h' | ⟨_, _, h'⟩
  · rwa [h']
  · rw [h']
    simp

/-- A flush leaves the backoff as it is. -/
theorem backoff_flush (o : Options) (now : Nat) (b : ClientEventBuffer ε) :
    (b.flush o now).flushBlockedUntil = b.flushBlockedUntil ∧
    (b.flush o now).consecutiveFailures = b.consecutiveFailures := by
  rcases flush_cases o now b with h | ⟨_, _, h⟩
  · rw [h]
    exact ⟨rfl, rfl⟩
  · rw [h]
    exact ⟨rfl, rfl⟩

theorem push_cases (o : Options) (now : Nat) (event : ε) (b : ClientEventBuffer ε) :
    b.push o now event = enforceMaxSize o { b with queue := b.queue ++ [event] } ∨
      b.push o now event = (enforceMaxSize o { b with queue := b.queue ++ [event] }).flush o now := by
  unfold push
  dsimp only
  split
  · exact .inr rfl
  · exact .inl rfl

theorem settle_sent (o : Options) (now : Nat) (batch : List ε) (b : ClientEventBuffer ε) :
    b.settle o now true batch = ClientEventBuffer.flush o now ⟨b.queue, none, 0, 0⟩ := by
  unfold settle
  simp only [if_true]
  split
  · rfl
  · rename_i h
    simp only [flush, Nat.eq_zero_of_not_pos h, if_true]
    simp

end ClientEventBuffer

/-! ## What a run keeps -/

def blockedUntil (o : Options) : List Nat → Nat
  | [] => 0
  | t :: earlier => t + min (o.failureBackoffBaseMs * 2 ^ earlier.length) FAILURE_BACKOFF_MAX_MS

theorem order_kept {pushed sent front rest excess kept : List ε} (hrest : excess ++ kept = rest)
    (h : (sent ++ (front ++ rest)).Sublist pushed) : (sent ++ (front ++ kept)).Sublist pushed := by
  have hkept : kept.Sublist rest := hrest ▸ List.sublist_append_right excess kept
  exact ((List.Sublist.refl sent).append ((List.Sublist.refl front).append hkept)).trans h

theorem conserved_kept {pushed sent front rest excess kept dropped : List ε}
    (hrest : excess ++ kept = rest) (h : pushed.Perm (sent ++ (front ++ rest) ++ dropped)) :
    pushed.Perm (sent ++ (front ++ kept) ++ (dropped ++ excess)) := by
  subst hrest
  rw [← Multiset.coe_eq_coe] at h ⊢
  simp only [← Multiset.coe_add] at h ⊢
  rw [h]
  abel

namespace Session

structure Sound (wire : Wire ε) (o : Options) (s : Session ε) : Prop where
  order : (s.sent ++ s.buffer.waiting).Sublist s.pushed
  conserved : s.pushed.Perm (s.sent ++ s.buffer.waiting ++ s.dropped)
  roomy : s.pushed.length ≤ o.maxBufferSize → s.dropped = []
  room : s.buffer.queue.length ≤ o.maxBufferSize
  small : s.batch.length ≤ o.batchSize
  stored : (s.sent.filter wire.fits).Sublist s.stored
  known : ∀ e ∈ s.stored, e ∈ s.pushed ∧ wire.fits e = true ∧ wire.schema e = true
  failed : s.buffer.consecutiveFailures = s.failures.length
  blocked : s.buffer.flushBlockedUntil = blockedUntil o s.failures

theorem init_sound (wire : Wire ε) (o : Options) : (init : Session ε).Sound wire o where
  order := List.Sublist.refl _
  conserved := List.Perm.refl _
  roomy _ := rfl
  room := Nat.zero_le _
  small := Nat.zero_le _
  stored := List.Sublist.refl _
  known e he := by cases he
  failed := rfl
  blocked := rfl

variable {wire : Wire ε} {o : Options} {s : Session ε}

theorem Sound.flush (h : s.Sound wire o) (now : Nat) :
    Sound wire o { s with buffer := s.buffer.flush o now } where
  order := by rw [ClientEventBuffer.waiting_flush]; exact h.order
  conserved := by rw [ClientEventBuffer.waiting_flush]; exact h.conserved
  roomy := h.roomy
  room := (ClientEventBuffer.queue_flush o now s.buffer).trans h.room
  small := ClientEventBuffer.flushing_flush h.small
  stored := h.stored
  known := h.known
  failed := (ClientEventBuffer.backoff_flush o now s.buffer).2.trans h.failed
  blocked := (ClientEventBuffer.backoff_flush o now s.buffer).1.trans h.blocked

theorem Sound.queue_length (h : s.Sound wire o) : s.buffer.queue.length ≤ s.pushed.length := by
  have := h.order.length_le
  simp only [ClientEventBuffer.waiting, List.length_append] at this
  omega

theorem Sound.enqueue (h : s.Sound wire o) (event : ε) :
    Sound wire o { s with
      buffer := ClientEventBuffer.enforceMaxSize o { s.buffer with queue := s.buffer.queue ++ [event] }
      pushed := s.pushed ++ [event]
      dropped := s.dropped ++ ClientEventBuffer.overflow o (s.buffer.queue ++ [event]) } := by
  have hover := ClientEventBuffer.overflow_append o (s.buffer.queue ++ [event])
  have hsplit : s.sent ++ (s.buffer.flushing.getD [] ++ (s.buffer.queue ++ [event])) = s.sent ++
      s.buffer.waiting ++ [event] := by
    simp [ClientEventBuffer.waiting]
  refine ⟨?_, ?_, ?_, ClientEventBuffer.queue_enforceMaxSize o _, ?_, h.stored, ?_, ?_, ?_⟩
  · rw [ClientEventBuffer.enforceMaxSize_eq]
    apply order_kept hover
    rw [hsplit]
    exact h.order.append (List.Sublist.refl _)
  · rw [ClientEventBuffer.enforceMaxSize_eq]
    apply conserved_kept hover
    rw [hsplit]
    refine (h.conserved.append_right [event]).trans ?_
    rw [List.append_assoc _ s.dropped, List.append_assoc _ [event]]
    exact List.perm_append_comm.append_left _
  · intro hlen
    have hqueue := h.queue_length
    simp only [List.length_append, List.length_singleton] at hlen
    have hnone : (s.buffer.queue ++ [event]).length - o.maxBufferSize = 0 := by
      simp only [List.length_append, List.length_singleton]
      omega
    simp only [h.roomy (by omega), ClientEventBuffer.overflow, hnone, List.take_zero, List.append_nil]
  · rw [ClientEventBuffer.enforceMaxSize_eq]
    exact h.small
  · intro e he
    obtain ⟨hpushed, hrest⟩ := h.known e he
    exact ⟨List.mem_append_left _ hpushed, hrest⟩
  · rw [ClientEventBuffer.enforceMaxSize_eq]
    exact h.failed
  · rw [ClientEventBuffer.enforceMaxSize_eq]
    exact h.blocked

theorem Sound.push (h : s.Sound wire o) (now : Nat) (event : ε) :
    (s.step wire o (.push now event)).Sound wire o := by
  simp only [step]
  rcases ClientEventBuffer.push_cases o now event s.buffer with hpush | hpush
  · rw [hpush]
    exact h.enqueue event
  · rw [hpush]
    exact (h.enqueue event).flush now

theorem Sound.known_extra (h : s.Sound wire o) {batch extra : List ε}
    (hbatch : s.buffer.flushing = some batch) (hextra : extra <+: batch.filter wire.fits)
    (hschema : extra.all wire.schema = true) :
    ∀ e ∈ s.stored ++ extra, e ∈ s.pushed ∧ wire.fits e = true ∧ wire.schema e = true := by
  intro e he
  rcases List.mem_append.mp he with he | he
  · exact h.known e he
  · obtain ⟨hmem, hfits⟩ := List.mem_filter.mp (hextra.subset he)
    have hwaiting : e ∈ s.sent ++ s.buffer.waiting := by
      simp [ClientEventBuffer.waiting, hbatch, hmem]
    exact ⟨h.order.subset hwaiting, hfits, List.all_eq_true.mp hschema e he⟩

theorem Sound.settled (h : s.Sound wire o) (now : Nat) (deliveries : Nat → Delivery)
    {batch : List ε} (hbatch : s.buffer.flushing = some batch) :
    (s.settled wire o now deliveries batch).Sound wire o := by
  obtain ⟨extra, hstored, hprefix, hschema, hok⟩ :=
    postClientEvents_stored wire deliveries s.stored batch
  have hknown := h.known_extra hbatch hprefix hschema
  unfold Session.settled
  cases hpost : postClientEvents wire deliveries s.stored batch with
  | mk ok stored =>
    rw [hpost] at hstored hok
    simp only at hstored hok
    subst hstored
    cases ok with
    | true =>
      have hwaiting : s.sent ++ batch ++ (⟨s.buffer.queue, none, 0,
          0⟩ : ClientEventBuffer ε).waiting = s.sent ++ s.buffer.waiting := by
        simp [ClientEventBuffer.waiting, hbatch]
      have hsent : Sound wire o { s with
          buffer := ⟨s.buffer.queue, none, 0, 0⟩, stored := s.stored ++ extra
          sent := s.sent ++ batch, failures := [] } := by
        refine ⟨?_, ?_, h.roomy, h.room, Nat.zero_le _, ?_, hknown, rfl, rfl⟩
        · rw [hwaiting]
          exact h.order
        · rw [hwaiting]
          exact h.conserved
        · rw [List.filter_append, hok rfl]
          exact h.stored.append (List.Sublist.refl _)
      simp only [if_true, ClientEventBuffer.settle_sent]
      exact hsent.flush now
    | false =>
      have hover := ClientEventBuffer.overflow_append o (batch ++ s.buffer.queue)
      have hwaiting : s.sent ++ s.buffer.waiting = s.sent ++ ([] ++ (batch ++ s.buffer.queue)) := by
        simp [ClientEventBuffer.waiting, hbatch]
      simp only [Bool.false_eq_true, if_false, ClientEventBuffer.settle]
      refine ⟨?_, ?_, ?_, ClientEventBuffer.queue_enforceMaxSize o _, ?_, ?_, hknown, ?_, ?_⟩
      · rw [ClientEventBuffer.enforceMaxSize_eq]
        exact order_kept hover (hwaiting ▸ h.order)
      · rw [ClientEventBuffer.enforceMaxSize_eq]
        exact conserved_kept hover (hwaiting ▸ h.conserved)
      · intro hlen
        have horder := h.order.length_le
        rw [hwaiting] at horder
        simp only [List.length_append, List.length_nil] at horder
        have hnone : (batch ++ s.buffer.queue).length - o.maxBufferSize = 0 := by
          simp only [List.length_append]
          simp only at hlen
          omega
        simp only [h.roomy hlen, ClientEventBuffer.overflow, hnone, List.take_zero, List.append_nil]
      · rw [ClientEventBuffer.enforceMaxSize_eq]
        exact Nat.zero_le _
      · exact h.stored.trans (List.sublist_append_left _ _)
      · rw [ClientEventBuffer.enforceMaxSize_eq]
        simp [h.failed]
      · rw [ClientEventBuffer.enforceMaxSize_eq]
        simp [ClientEventBuffer.computeBackoff, blockedUntil, h.failed]

theorem Sound.step (h : s.Sound wire o) (act : Act ε) : (s.step wire o act).Sound wire o := by
  cases act with
  | push now event => exact h.push now event
  | flush now => exact h.flush now
  | settle now deliveries =>
    unfold Session.step
    cases hbatch : s.buffer.flushing with
    | none => exact h
    | some batch => exact h.settled now deliveries hbatch

theorem Sound.run (h : s.Sound wire o) : ∀ acts : List (Act ε), (s.run wire o acts).Sound wire o := by
  intro acts
  induction acts generalizing s with
  | nil => exact h
  | cons act acts ih => exact ih (h.step act)

theorem step_pushed (wire : Wire ε) (o : Options) (s : Session ε) (act : Act ε) :
    (s.step wire o act).pushed = s.pushed ++ act.event.toList := by
  cases act with
  | push now event => rfl
  | flush now => simp [step, Act.event]
  | settle now deliveries =>
    unfold step settled
    cases s.buffer.flushing with
    | none => simp [Act.event]
    | some batch =>
      dsimp only
      split <;> simp [Act.event]

theorem run_pushed (wire : Wire ε) (o : Options) : ∀ (acts : List (Act ε)) (s : Session ε),
    (s.run wire o acts).pushed = s.pushed ++ acts.filterMap Act.event
  | [], s => by simp [run]
  | act :: acts, s => by
    have := run_pushed wire o acts (s.step wire o act)
    rw [step_pushed] at this
    unfold run at this ⊢
    rw [List.foldl_cons, this, List.append_assoc]
    cases act <;> rfl

/-! ## Clocks -/

def Spaced (o : Options) : List Nat → Prop
  | [] => True
  | t :: earlier => blockedUntil o earlier ≤ t ∧ Spaced o earlier

structure Timed (o : Options) (clock : Nat) (s : Session ε) : Prop where
  spaced : Spaced o s.failures
  begun : s.buffer.flushing.isSome = true → s.buffer.flushBlockedUntil ≤ clock

theorem begun_flush {b : ClientEventBuffer ε} {clock now : Nat}
    (h : b.flushing.isSome = true → b.flushBlockedUntil ≤ clock) (hclock : clock ≤ now) :
    (b.flush o now).flushing.isSome = true → (b.flush o now).flushBlockedUntil ≤ now := by
  intro hsome
  rcases ClientEventBuffer.flush_cases o now b with hflush | ⟨_, hblocked, hflush⟩
  · rw [hflush] at hsome ⊢
    exact (h hsome).trans hclock
  · rw [hflush]
    exact hblocked

theorem Timed.step {clock : Nat} (h : s.Timed o clock) (hsound : s.Sound wire o) {act : Act ε}
    (hclock : clock ≤ act.now) :
    (s.step wire o act).Timed o act.now := by
  cases act with
  | push now event =>
    refine ⟨h.spaced, ?_⟩
    simp only [Session.step, Act.now]
    rcases ClientEventBuffer.push_cases o now event s.buffer with hpush | hpush
    · rw [hpush, ClientEventBuffer.enforceMaxSize_eq]
      intro hsome
      exact (h.begun hsome).trans hclock
    · rw [hpush, ClientEventBuffer.enforceMaxSize_eq]
      exact begun_flush h.begun hclock
  | flush now => exact ⟨h.spaced, begun_flush h.begun hclock⟩
  | settle now deliveries =>
    unfold Session.step
    cases hbatch : s.buffer.flushing with
    | none => exact ⟨h.spaced, fun hsome => by rw [hbatch] at hsome; cases hsome⟩
    | some batch =>
      dsimp only [Session.settled]
      cases (postClientEvents wire deliveries s.stored batch).1 with
      | true =>
        simp only [if_true, ClientEventBuffer.settle_sent]
        exact ⟨trivial, begun_flush (fun _ => Nat.zero_le now) (Nat.le_refl now)⟩
      | false =>
        have hbegun : s.buffer.flushBlockedUntil ≤ now := (h.begun (by rw [hbatch]; rfl)).trans hclock
        simp only [Bool.false_eq_true, if_false, ClientEventBuffer.settle,
          ClientEventBuffer.enforceMaxSize_eq]
        exact ⟨⟨hsound.blocked ▸ hbegun, h.spaced⟩, fun hsome => by cases hsome⟩

theorem Timed.run :
    ∀ (acts : List (Act ε)) {clock : Nat} {s : Session ε}, s.Timed o clock → s.Sound wire o →
    (∀ act ∈ acts, clock ≤ act.now) → acts.Pairwise (fun a b => a.now ≤ b.now) →
    Spaced o (s.run wire o acts).failures
  | [], _, _, h, _, _, _ => h.spaced
  | act :: acts, _, s, h, hsound, hclock, hsorted => by
    obtain ⟨hfirst, hrest⟩ := List.pairwise_cons.mp hsorted
    exact Timed.run acts (h.step hsound (hclock act List.mem_cons_self)) (hsound.step act) hfirst hrest

theorem step_begins {act : Act ε} (hidle : s.buffer.flushing = none)
    (hbegun : (s.step wire o act).buffer.flushing.isSome = true) :
    s.buffer.flushBlockedUntil ≤ act.now := by
  have hflush : ∀ (b : ClientEventBuffer ε) (now : Nat), b.flushing = none →
      (b.flush o now).flushing.isSome = true → b.flushBlockedUntil ≤ now := by
    intro b now hb hsome
    rcases ClientEventBuffer.flush_cases o now b with h | ⟨_, h, _⟩
    · rw [h, hb] at hsome
      cases hsome
    · exact h
  cases act with
  | push now event =>
    simp only [step] at hbegun
    rcases ClientEventBuffer.push_cases o now event s.buffer with hpush | hpush
    · rw [hpush, ClientEventBuffer.enforceMaxSize_eq, hidle] at hbegun
      cases hbegun
    · rw [hpush, ClientEventBuffer.enforceMaxSize_eq] at hbegun
      have := hflush _ now (by exact hidle) hbegun
      exact this
  | flush now => exact hflush s.buffer now hidle hbegun
  | settle now deliveries =>
    simp only [step, hidle] at hbegun
    cases hbegun

/-! ## Draining -/

def Good (wire : Wire ε) (events : List ε) : Prop := ∀ e ∈ events, wire.fits e = true ∧
    wire.schema e = true

end Session

namespace Session

variable {wire : Wire ε} {o : Options} {s : Session ε}

/-- Over any run every event that was pushed has been sent, is under way or waits, in
the order of the pushes, or has made room, which none has as long as the buffer could
hold all; and the server has every event that was sent and fits a request, and no
event of another source. -/
theorem buffer_keeps_events (wire : Wire ε) (o : Options) (acts : List (Act ε)) :
    let s := init.run wire o acts
    let pushed := acts.filterMap Act.event
    (s.sent ++ s.buffer.waiting).Sublist pushed ∧
      pushed.Perm (s.sent ++ s.buffer.waiting ++ s.dropped) ∧
    (pushed.length ≤ o.maxBufferSize → s.sent ++ s.buffer.waiting = pushed) ∧
    s.buffer.queue.length ≤ o.maxBufferSize ∧ s.batch.length ≤ o.batchSize ∧
    (s.sent.filter wire.fits).Sublist s.stored ∧
    ∀ e ∈ s.stored, e ∈ pushed ∧ wire.fits e = true ∧ wire.schema e = true := by
  intro s pushed
  have h : s.Sound wire o := (init_sound wire o).run acts
  have hpushed : s.pushed = pushed := by
    rw [run_pushed]
    rfl
  refine ⟨hpushed ▸ h.order, hpushed ▸ h.conserved, ?_, h.room, h.small, h.stored, hpushed ▸ h.known⟩
  intro hlen
  rw [← hpushed] at hlen ⊢
  apply h.order.eq_of_length
  rw [h.conserved.length_eq, h.roomy hlen, List.append_nil]

/-- Under a clock that does not go back each failure comes after the backoff that those
before it asked for, which doubles up to its bound, and no batch begins before it. -/
theorem failures_back_off (wire : Wire ε) (o : Options) (acts : List (Act ε))
    (hclock : acts.Pairwise fun a b => a.now ≤ b.now) :
    let s := init.run wire o acts
    Spaced o s.failures ∧
    ∀ act : Act ε, s.buffer.flushing = none → (s.step wire o act).buffer.flushing.isSome = true →
    blockedUntil o s.failures ≤ act.now := by
  intro s
  have h : s.Sound wire o := (init_sound wire o).run acts
  have hinit : (init : Session ε).Timed o 0 := ⟨trivial, fun h => by cases h⟩
  refine ⟨hinit.run acts (init_sound wire o) (fun _ _ => Nat.zero_le _) hclock, ?_⟩
  intro act hidle hbegun
  rw [← h.blocked]
  exact step_begins hidle hbegun

/-- Two failures of one batch, the second sent as the backoff ends. -/
theorem failures_back_off_sample :
    let acts : List (Act Nat) := [.push 0 7, .flush 1, .settle 2 fun _ => .failed, .flush 9000,
      .flush 10002, .settle 10003 fun _ => .unanswered]
    let s := init.run ⟨id, fun _ => true⟩ defaultOptions acts
    s.failures = [10003, 2] ∧ Spaced defaultOptions s.failures := by
  refine ⟨rfl, ?_⟩
  exact (failures_back_off ⟨id, fun _ => true⟩ defaultOptions _ (by decide)).1

end Session

end

end ExamSystem.Telemetry
