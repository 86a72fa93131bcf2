import ExamSystem.IncidentCommands
import ExamSystem.Json
import ExamSystem.Pages
import Mathlib.Data.String.Basic

/-!
# The proctor's timeline

The events of one attempt, from the browser's telemetry and from the audit log,
newest first by the server's clock. A page reads a prefix of each source and no
more, and shows what a page of all the rows would, unless one of the rows it
reads has a name at which the projection throws.
-/

namespace ExamSystem.ProctorTimeline

open Tx

/-! ## Rows -/

/-- A telemetry row; `receivedAt` is the server's instant in microseconds. -/
structure ClientEventRow where
  id : String
  organizationId : String
  attemptId : Option String
  kind : String
  level : String
  name : String
  route : Option String
  occurredAt : Int
  receivedAt : Int
  metadata : List (JsString × Json)

/-- An audit row; `createdAt` is the database's instant in microseconds. -/
structure AuditLogRow where
  id : String
  organizationId : String
  action : String
  targetType : String
  targetId : String
  metadata : List (JsString × Json)
  createdAt : Int

structure Db where
  clientEvents : List ClientEventRow
  auditLogs : List AuditLogRow

inductive EventLevel
  | debug | info | warn | error
  deriving DecidableEq, Repr

inductive EventKind
  | log | examTelemetry | proctor
  deriving DecidableEq, Repr

inductive EventSource
  | clientEvent | auditLog
  deriving DecidableEq, Repr

structure ProctorAttemptEvent where
  id : String
  occurredAt : String
  name : String
  level : EventLevel
  kind : EventKind
  metadata : List (String × Json)
  route : Option String
  source : EventSource

/-! ## Projection -/

def TIMELINE_AUDIT_ACTIONS : List String :=
  ["attempt.forceSubmit", "attempt.misconductFlagged", "attempt.extendTime", "attempt.timeGrant"]

def auditActionToEventName : String → Option String
  | "attempt.forceSubmit" => some "force_submit"
  | "attempt.misconductFlagged" => some "mark_misconduct"
  | "attempt.extendTime" => some "extend_time"
  | "attempt.timeGrant" => some "grant_time"
  | _ => none

def SAVE_ERROR_METADATA : List String := ["questionId", "saveMode", "durationMs", "errorCode"]

def SAFE_METADATA_ALLOWLIST : List (String × List String) :=
  [("answer_autosave_failed", SAVE_ERROR_METADATA), ("answer_manual_save_failed", SAVE_ERROR_METADATA),
    ("submit_failed", ["durationMs", "errorCode"]), ("deadline_auto_submit_failed",
      ["durationMs", "errorCode"]),
    ("visibility_restored", ["durationMs", "hiddenDurationMs"]), ("browser_offline", ["durationMs"]),
    ("paste_detected", ["questionId"]), ("heartbeat_failed", ["failedCount", "failureCount"]),
    ("heartbeat_restored", ["failedDurationMs", "failedCount"]), ("force_submit", []),
    ("mark_misconduct", []),
    ("extend_time", ["durationMs"]), ("grant_time", ["addedSeconds", "reasonCode", "adjustmentId"])]

def isScalar : Json → Bool
  | .str _ | .num _ | .bool _ | .null => true
  | _ => false

def safeEntries (allowed : List String) (raw : List (JsString × Json)) : List (String × Json) :=
  allowed.filterMap fun key =>
    match raw.lookup (js key) with
    | some val => if isScalar val then some (key, val) else none
    | none => none

def projectSafeMetadata (eventName : String) (raw : List (JsString × Json)) :
    Except String (List (String × Json)) :=
  match SAFE_METADATA_ALLOWLIST.lookup eventName with
  | some allowed => .ok (safeEntries allowed raw)
  | none =>
    -- the lookup goes on to what the literal inherits, where a function of length 0 passes for
    -- an empty list
    match objectPrototype.lookup eventName with
    | none | some (some 0) => .ok []
    | _ => .error "allowed is not iterable"

def eventLevel : String → EventLevel
  | "error" => .error
  | "warn" => .warn
  | "debug" => .debug
  | _ => .info

def eventKind : String → EventKind
  | "proctor" => .proctor
  | "log" => .log
  | _ => .examTelemetry

/-- Both branches of the safe parse: a row that parses has the level and the kind
that the coercion gives it. -/
def ClientEventRow.event (r : ClientEventRow) (metadata : List (String × Json)) : ProctorAttemptEvent :=
  { id := r.id
    occurredAt := Incidents.toISOString r.occurredAt
    name := r.name
    level := eventLevel r.level
    kind := eventKind r.kind
    metadata := metadata
    route := r.route.filter (· ≠ "")
    source := .clientEvent }

def toTimelineEventFromClient (r : ClientEventRow) : Except String ProctorAttemptEvent := do
  let metadata ← projectSafeMetadata r.name r.metadata
  pure (r.event metadata)

def AuditLogRow.event (a : AuditLogRow) (name : String) (metadata : List (String × Json)) :
    ProctorAttemptEvent :=
  { id := a.id
    occurredAt := Incidents.toISOString (a.createdAt / 1000)
    name := name
    level := .warn
    kind := .proctor
    metadata := metadata
    route := none
    source := .auditLog }

/-! ## Queries -/

structure Merged where
  key : Int
  id : String
  event : ProctorAttemptEvent

def newestFirst (key : Int) (id : String) (key' : Int) (id' : String) : Prop := key' < key ∨
    (key = key' ∧ id' ≤ id)

instance (key : Int) (id : String) (key' : Int) (id' : String) :
    Decidable (newestFirst key id key' id') :=
  inferInstanceAs (Decidable (_ ∨ _))

def Merged.before (x y : Merged) : Prop := newestFirst x.key x.id y.key y.id

def ClientEventRow.before (x y : ClientEventRow) : Prop :=
  newestFirst x.receivedAt x.id y.receivedAt y.id

def AuditLogRow.before (x y : AuditLogRow) : Prop := newestFirst x.createdAt x.id y.createdAt y.id

instance : DecidableRel Merged.before :=
  fun x y => inferInstanceAs (Decidable (newestFirst x.key x.id y.key y.id))

instance : DecidableRel ClientEventRow.before := fun x y =>
  inferInstanceAs (Decidable (newestFirst x.receivedAt x.id y.receivedAt y.id))

instance : DecidableRel AuditLogRow.before :=
  fun x y => inferInstanceAs (Decidable (newestFirst x.createdAt x.id y.createdAt y.id))

namespace Db

def clientEventsOf (db : Db) (organizationId attemptId : String) : List ClientEventRow :=
  db.clientEvents.filter fun r => r.organizationId = organizationId ∧ r.attemptId = some attemptId

def auditLogsOf (db : Db) (organizationId attemptId : String) (actions : List String) :
    List AuditLogRow :=
  db.auditLogs.filter fun a =>
    a.organizationId = organizationId ∧ a.targetType = "attempt" ∧ a.targetId = attemptId ∧
      a.action ∈ actions

def countByAttempt (db : Db) (organizationId attemptId : String) : Nat :=
  (db.clientEventsOf organizationId attemptId).length

def countFilteredByActions (db : Db) (organizationId attemptId : String) (actions : List String) :
    Nat :=
  (db.auditLogsOf organizationId attemptId actions).length

def listTimelinePrefixByAttempt (db : Db) (organizationId attemptId : String) (prefixSize : Nat) :
    List ClientEventRow :=
  ((db.clientEventsOf organizationId attemptId).insertionSort ClientEventRow.before).take prefixSize

def listTimelinePrefixByActions (db : Db) (organizationId attemptId : String)
    (actions : List String) (prefixSize : Nat) :
    List AuditLogRow :=
  ((db.auditLogsOf organizationId attemptId actions).insertionSort AuditLogRow.before).take prefixSize

end Db

def mergedFromClient (r : ClientEventRow) : Except String Merged := do
  let event ← toTimelineEventFromClient r
  pure ⟨r.receivedAt, r.id, event⟩

def mergedFromAudit (a : AuditLogRow) : Except String (Option Merged) :=
  match auditActionToEventName a.action with
  | none => pure none
  | some name => do
    let metadata ← projectSafeMetadata name a.metadata
    pure (some ⟨a.createdAt, a.id, a.event name metadata⟩)

structure TimelinePage where
  items : List ProctorAttemptEvent
  total : Nat
  totalPages : Nat

def buildProctorAttemptEventTimeline (db : Db) (organizationId attemptId : String) (limit page : Int) :
    Except String TimelinePage :=
  let limit := (max 1 (min limit 100)).toNat
  let page := (max 1 page).toNat
  let offset := (page - 1) * limit
  let clientTotal := db.countByAttempt organizationId attemptId
  let auditTimelineTotal := db.countFilteredByActions organizationId attemptId TIMELINE_AUDIT_ACTIONS
  let total := clientTotal + auditTimelineTotal
  let totalPages := if total = 0 then 0 else (total + limit - 1) / limit
  if total ≤ offset then pure { items := [], total := total, totalPages := totalPages }
  else do
    let prefixSize := min (offset + limit) total
    let clientRows := db.listTimelinePrefixByAttempt organizationId attemptId prefixSize
    let auditRows :=
      db.listTimelinePrefixByActions organizationId attemptId TIMELINE_AUDIT_ACTIONS prefixSize
    let clientMerged ← clientRows.mapM mergedFromClient
    let auditMerged ← auditRows.mapM mergedFromAudit
    let sorted := (clientMerged ++ auditMerged.filterMap id).insertionSort Merged.before
    pure { items := ((sorted.map (·.event)).drop offset).take limit, total := total,
            totalPages := totalPages }

/-! ## The whole timeline -/

def safeMetadata (eventName : String) (raw : List (JsString × Json)) : List (String × Json) :=
  safeEntries ((SAFE_METADATA_ALLOWLIST.lookup eventName).getD []) raw

def clientEvent (r : ClientEventRow) : Merged :=
  ⟨r.receivedAt, r.id, r.event (safeMetadata r.name r.metadata)⟩

def auditEvent (a : AuditLogRow) : Merged :=
  let name := (auditActionToEventName a.action).getD ""
  ⟨a.createdAt, a.id, a.event name (safeMetadata name a.metadata)⟩

def admitted (db : Db) (organizationId attemptId : String) : List Merged :=
  (db.clientEventsOf organizationId attemptId).map clientEvent ++
    (db.auditLogsOf organizationId attemptId TIMELINE_AUDIT_ACTIONS).map auditEvent

def clientSorted (db : Db) (organizationId attemptId : String) : List ClientEventRow :=
  (db.clientEventsOf organizationId attemptId).insertionSort ClientEventRow.before

def auditSorted (db : Db) (organizationId attemptId : String) : List AuditLogRow :=
  (db.auditLogsOf organizationId attemptId TIMELINE_AUDIT_ACTIONS).insertionSort AuditLogRow.before

def timeline (db : Db) (organizationId attemptId : String) : List Merged :=
  ((clientSorted db organizationId attemptId).map clientEvent ++
    (auditSorted db organizationId attemptId).map auditEvent).insertionSort Merged.before

def Throws (eventName : String) : Prop := ∃ member ∈ objectPrototype.lookup eventName, member ≠ some 0

instance (eventName : String) : Decidable (Throws eventName) :=
  inferInstanceAs (Decidable (∃ member ∈ objectPrototype.lookup eventName, member ≠ some 0))

theorem newestFirst_total (key key' : Int) (id id' : String) :
    newestFirst key id key' id' ∨ newestFirst key' id' key id := by
  rcases lt_trichotomy key key' with hlt | rfl | hlt
  · exact .inr (.inl hlt)
  · exact (le_total id' id).imp (fun h => .inr ⟨rfl, h⟩) (fun h => .inr ⟨rfl, h⟩)
  · exact .inl (.inl hlt)

theorem newestFirst_trans {key key' key'' : Int} {id id' id'' : String}
    (h : newestFirst key id key' id') (h' : newestFirst key' id' key'' id'') :
    newestFirst key id key'' id'' := by
  rcases h with h | ⟨rfl, h⟩
  · rcases h' with h' | ⟨rfl, -⟩
    · exact .inl (h'.trans h)
    · exact .inl h
  · rcases h' with h' | ⟨rfl, h'⟩
    · exact .inl h'
    · exact .inr ⟨rfl, h'.trans h⟩

instance : Std.Total Merged.before := ⟨fun _ _ => newestFirst_total _ _ _ _⟩

instance : IsTrans Merged Merged.before := ⟨fun _ _ _ => newestFirst_trans⟩

instance : Std.Total ClientEventRow.before := ⟨fun _ _ => newestFirst_total _ _ _ _⟩

instance : IsTrans ClientEventRow ClientEventRow.before := ⟨fun _ _ _ => newestFirst_trans⟩

instance : Std.Total AuditLogRow.before := ⟨fun _ _ => newestFirst_total _ _ _ _⟩

instance : IsTrans AuditLogRow AuditLogRow.before := ⟨fun _ _ _ => newestFirst_trans⟩

/-! ## Admission -/

theorem allowlist_own : ∀ entry ∈ SAFE_METADATA_ALLOWLIST, ¬ Throws entry.1 := by decide

theorem projectSafeMetadata_eq (eventName : String) (raw : List (JsString × Json)) :
    projectSafeMetadata eventName raw =
    if ¬ Throws eventName then .ok (safeMetadata eventName raw)
      else .error "allowed is not iterable" := by
  unfold projectSafeMetadata safeMetadata
  cases hown : SAFE_METADATA_ALLOWLIST.lookup eventName with
  | some allowed =>
    obtain ⟨before, after, hsplit, -⟩ := List.lookup_eq_some_iff.mp hown
    have hmem : (eventName, allowed) ∈ SAFE_METADATA_ALLOWLIST := by
      rw [hsplit]
      exact List.mem_append_right _ List.mem_cons_self
    rw [if_pos (allowlist_own _ hmem), Option.getD_some]
  | none =>
    cases hmember : objectPrototype.lookup eventName with
    | none => simp [Throws, hmember, safeEntries]
    | some member =>
      by_cases hlength : member = some 0
      · simp [Throws, hmember, hlength, safeEntries]
      · simp [Throws, hmember, hlength]

theorem mergedFromClient_eq (r : ClientEventRow) : mergedFromClient r =
    if ¬ Throws r.name then .ok (clientEvent r) else .error "allowed is not iterable" := by
  rw [mergedFromClient, toTimelineEventFromClient, projectSafeMetadata_eq]
  split <;> rfl

theorem mergedFromAudit_admitted {a : AuditLogRow} (h : a.action ∈ TIMELINE_AUDIT_ACTIONS) :
    mergedFromAudit a = .ok (some (auditEvent a)) := by
  have hname : ∃ name, auditActionToEventName a.action = some name ∧ ¬ Throws name := by
    simp only [TIMELINE_AUDIT_ACTIONS, List.mem_cons, List.not_mem_nil, or_false] at h
    rcases h with h | h | h | h <;> rw [h] <;> exact ⟨_, rfl, by decide⟩
  obtain ⟨name, hname, hno⟩ := hname
  simp only [mergedFromAudit, auditEvent, hname, Option.getD_some, projectSafeMetadata_eq, if_pos hno]
  rfl

variable {db : Db} {organizationId attemptId : String}

theorem auditSorted_action {a : AuditLogRow} (h : a ∈ auditSorted db organizationId attemptId) :
    a.action ∈ TIMELINE_AUDIT_ACTIONS := by
  have hp := (List.mem_filter.mp ((List.mem_insertionSort _).mp h)).2
  simp only [decide_eq_true_eq] at hp
  exact hp.2.2.2

theorem clientPrefix_eq (n : Nat) :
    (db.listTimelinePrefixByAttempt organizationId attemptId n).mapM mergedFromClient =
      if ∀ r ∈ (clientSorted db organizationId attemptId).take n, ¬ Throws r.name
      then .ok (((clientSorted db organizationId attemptId).map clientEvent).take n)
      else .error "allowed is not iterable" := by
  rw [← List.map_take]
  exact mapM_decided fun r _ => mergedFromClient_eq r

theorem auditPrefix_eq (n : Nat) :
    (db.listTimelinePrefixByActions organizationId attemptId TIMELINE_AUDIT_ACTIONS n).mapM
      mergedFromAudit =
      .ok ((((auditSorted db organizationId attemptId).map auditEvent).take n).map some) := by
  have hread : ∀ a ∈ (auditSorted db organizationId attemptId).take n,
      mergedFromAudit a = if True then .ok (some (auditEvent a)) else .error "" := fun a ha =>
    (mergedFromAudit_admitted (auditSorted_action (List.mem_of_mem_take ha))).trans
      (if_pos trivial).symm
  rw [← List.map_take, List.map_map]
  exact (mapM_decided hread).trans (if_pos fun _ _ => trivial)

/-! ## Pages -/

theorem clientSorted_sorted :
    ((clientSorted db organizationId attemptId).map clientEvent).Pairwise Merged.before :=
  List.pairwise_map.mpr ((List.pairwise_insertionSort ClientEventRow.before _).imp fun h => h)

theorem auditSorted_sorted :
    ((auditSorted db organizationId attemptId).map auditEvent).Pairwise Merged.before :=
  List.pairwise_map.mpr ((List.pairwise_insertionSort AuditLogRow.before _).imp fun h => h)

theorem timeline_perm :
    (timeline db organizationId attemptId).Perm (admitted db organizationId attemptId) :=
  (List.perm_insertionSort _ _).trans
    (.append ((List.perm_insertionSort _ _).map _) ((List.perm_insertionSort _ _).map _))

theorem length_clientSorted :
    ((clientSorted db organizationId attemptId).map clientEvent).length = db.countByAttempt
      organizationId attemptId := by
  rw [List.length_map, clientSorted, List.length_insertionSort, Db.countByAttempt]

theorem length_auditSorted : ((auditSorted db organizationId attemptId).map auditEvent).length =
    db.countFilteredByActions organizationId attemptId TIMELINE_AUDIT_ACTIONS := by
  rw [List.length_map, auditSorted, List.length_insertionSort, Db.countFilteredByActions]

theorem length_timeline : (timeline db organizationId attemptId).length =
    db.countByAttempt organizationId attemptId +
      db.countFilteredByActions organizationId attemptId TIMELINE_AUDIT_ACTIONS := by
  rw [timeline, List.length_insertionSort, List.length_append, length_clientSorted, length_auditSorted]

def pageSize (limit : Int) : Nat := (max 1 (min limit 100)).toNat

def pageOffset (limit page : Int) : Nat := ((max 1 page).toNat - 1) * pageSize limit

def timelinePage (db : Db) (organizationId attemptId : String) (limit page : Int) : TimelinePage :=
  let events := (timeline db organizationId attemptId).map (·.event)
  { items := (events.drop (pageOffset limit page)).take (pageSize limit)
    total := events.length
    totalPages := if events.length = 0 then 0
    else (events.length + pageSize limit - 1) / pageSize limit }

/-- No name throws among the telemetry that the page reads, which is none past the end. -/
def PageReads (db : Db) (organizationId attemptId : String) (limit page : Int) : Prop :=
  (timeline db organizationId attemptId).length ≤ pageOffset limit page ∨
    ∀ r ∈ (clientSorted db organizationId attemptId).take (pageOffset limit page + pageSize limit),
    ¬ Throws r.name

instance (db : Db) (organizationId attemptId : String) (limit page : Int) :
    Decidable (PageReads db organizationId attemptId limit page) :=
  inferInstanceAs (Decidable (_ ∨ _))

theorem build_eq (limit page : Int) :
    buildProctorAttemptEventTimeline db organizationId attemptId limit page =
    if PageReads db organizationId attemptId limit page
    then .ok (timelinePage db organizationId attemptId limit page)
    else .error "allowed is not iterable" := by
  have htotal : (timeline db organizationId attemptId).length = _ := length_timeline
  have hclient : ((clientSorted db organizationId attemptId).map clientEvent).length = _ :=
    length_clientSorted
  have haudit : ((auditSorted db organizationId attemptId).map auditEvent).length = _ :=
    length_auditSorted
  simp only [buildProctorAttemptEventTimeline, PageReads, timelinePage, List.length_map]
  rw [show (max 1 (min limit 100)).toNat = pageSize limit from rfl,
    show ((max 1 page).toNat - 1) * pageSize limit = pageOffset limit page from rfl, ← htotal]
  generalize pageSize limit = l
  generalize pageOffset limit page = offset
  by_cases hpast : (timeline db organizationId attemptId).length ≤ offset
  · rw [if_pos hpast, if_pos (Or.inl hpast),
      List.drop_eq_nil_of_le (by rw [List.length_map]; exact hpast), List.take_nil]
    rfl
  -- the rows of a source are no more than all the rows, so the bound of the prefix cuts none
  -- of the page
  have hshort : (clientSorted db organizationId attemptId).length ≤
      (timeline db organizationId attemptId).length := by
    rw [List.length_map] at hclient
    omega
  have hprefix : (clientSorted db organizationId attemptId).take
      (min (offset + l) (timeline db organizationId attemptId).length) =
        (clientSorted db organizationId attemptId).take (offset + l) := by
    rw [← List.take_take, List.take_of_length_le hshort]
  rw [if_neg hpast, clientPrefix_eq, hprefix, auditPrefix_eq]
  by_cases hread : ∀ r ∈ (clientSorted db organizationId attemptId).take (offset + l), ¬ Throws r.name
  · have hreach : min (offset + l)
        (((clientSorted db organizationId attemptId).map clientEvent).length +
        ((auditSorted db organizationId attemptId).map auditEvent).length) ≤
          min (offset + l) (timeline db organizationId attemptId).length := by omega
    have hpage := Pages.page_of_prefixes Merged.before clientSorted_sorted auditSorted_sorted hreach
    have hsome : ∀ ms : List Merged, (ms.map some).filterMap id = ms := by
      intro ms
      rw [List.filterMap_map, Function.id_comp, List.filterMap_some]
    rw [if_pos hread, if_pos (Or.inr hread), ok_bind, ok_bind, hsome, ← List.map_drop,
      ← List.map_take, hpage, ← timeline, List.map_take, List.map_drop]
    rfl
  · rw [if_neg hread, if_neg (not_or.mpr ⟨hpast, hread⟩), error_bind]

theorem safeMetadata_safe {eventName : String} {raw : List (JsString × Json)} {entry : String × Json}
    (h : entry ∈ safeMetadata eventName raw) :
    entry.1 ∈ (SAFE_METADATA_ALLOWLIST.lookup eventName).getD [] ∧ isScalar entry.2 = true := by
  obtain ⟨key, hkey, hentry⟩ := List.mem_filterMap.mp h
  split at hentry
  · rename_i val hval
    split at hentry
    · obtain rfl := Option.some.inj hentry
      exact ⟨hkey, ‹_›⟩
    · cases hentry
  · cases hentry

theorem admitted_safe {m : Merged} (h : m ∈ admitted db organizationId attemptId) :
    ∀ entry ∈ m.event.metadata,
      entry.1 ∈ (SAFE_METADATA_ALLOWLIST.lookup m.event.name).getD [] ∧ isScalar entry.2 = true := by
  rcases List.mem_append.mp h with h | h
  · obtain ⟨r, -, rfl⟩ := List.mem_map.mp h
    exact fun entry he => safeMetadata_safe he
  · obtain ⟨a, -, rfl⟩ := List.mem_map.mp h
    exact fun entry he => safeMetadata_safe he

/-- A page depends on the rows of its attempt alone. -/
theorem page_congr {db db' : Db} {organizationId attemptId : String}
    (hrows : db.clientEventsOf organizationId attemptId = db'.clientEventsOf organizationId
        attemptId) (hlogs : ∀ actions, db.auditLogsOf organizationId attemptId actions =
        db'.auditLogsOf organizationId attemptId actions) (limit page : Int) :
    buildProctorAttemptEventTimeline db organizationId attemptId limit page =
      buildProctorAttemptEventTimeline db' organizationId attemptId limit page := by
  have hclient : clientSorted db organizationId attemptId = clientSorted db' organizationId
      attemptId := by
    rw [clientSorted, clientSorted, hrows]
  have htimeline : timeline db organizationId attemptId = timeline db' organizationId attemptId := by
    rw [timeline, timeline, auditSorted, auditSorted, hclient, hlogs]
  have hreads : PageReads db organizationId attemptId limit page ↔
      PageReads db' organizationId attemptId limit page := by
    rw [PageReads, PageReads, hclient, htimeline]
  rw [build_eq, build_eq, timelinePage, timelinePage, htimeline]
  exact if_congr hreads rfl rfl

/-- The timeline has every admitted row once, newest first. A page is answered exactly
when no event it reads has a name at which the projection throws, and shows the true
total and of the metadata nothing but scalars under the keys allowed for the
name. The pages of any size, when all are answered, are one after the other the timeline. -/
theorem timeline_paged (db : Db) (organizationId attemptId : String) (limit : Int) :
    (timeline db organizationId attemptId).Perm (admitted db organizationId attemptId) ∧
    (timeline db organizationId attemptId).Pairwise Merged.before ∧
    (∀ page : Int,
        (∃ p, buildProctorAttemptEventTimeline db organizationId attemptId limit page = .ok p) ↔
      PageReads db organizationId attemptId limit page) ∧
    (∀ (page : Int) (p : TimelinePage),
      buildProctorAttemptEventTimeline db organizationId attemptId limit page = .ok p →
      p.total = (timeline db organizationId attemptId).length ∧
      ∀ event ∈ p.items, ∀ entry ∈ event.metadata,
        entry.1 ∈ (SAFE_METADATA_ALLOWLIST.lookup event.name).getD [] ∧ isScalar entry.2 = true) ∧
    ∀ (first : TimelinePage) (pages : List TimelinePage),
      buildProctorAttemptEventTimeline db organizationId attemptId limit 1 = .ok first →
      ((List.range first.totalPages).mapM fun (page : Nat) =>
        buildProctorAttemptEventTimeline db organizationId attemptId limit (page + 1)) = .ok pages →
      pages.flatMap (·.items) = (timeline db organizationId attemptId).map (·.event) := by
  have hanswer : ∀ {page : Int} {p : TimelinePage},
      buildProctorAttemptEventTimeline db organizationId attemptId limit page = .ok p →
        PageReads db organizationId attemptId limit page ∧
        timelinePage db organizationId attemptId limit page = p := by
    intro page p hp
    rw [build_eq] at hp
    split at hp
    · exact ⟨‹_›, Except.ok.inj hp⟩
    · cases hp
  refine ⟨timeline_perm, List.pairwise_insertionSort _ _, fun page => ?_, fun page p hp => ?_, ?_⟩
  · exact ⟨fun ⟨p, hp⟩ => (hanswer hp).1, fun h => ⟨_, (build_eq limit page).trans (if_pos h)⟩⟩
  · obtain ⟨-, rfl⟩ := hanswer hp
    refine ⟨List.length_map _, fun event hevent => ?_⟩
    obtain ⟨m, hm, rfl⟩ := List.mem_map.mp (List.mem_of_mem_drop (List.mem_of_mem_take hevent))
    exact admitted_safe (timeline_perm.mem_iff.mp hm)
  · intro first pages hfirst hpages
    obtain ⟨-, rfl⟩ := hanswer hfirst
    have hpos : 0 < pageSize limit := by unfold pageSize; omega
    have hoffset : ∀ page : Nat, pageOffset limit ((page : Int) + 1) = page * pageSize limit := by
      intro page
      rw [pageOffset, show (max 1 ((page : Int) + 1)).toNat - 1 = page by omega]
    have hread : ∀ page ∈ List.range (timelinePage db organizationId attemptId limit 1).totalPages,
        buildProctorAttemptEventTimeline db organizationId attemptId limit ((page : Int) + 1) =
          if PageReads db organizationId attemptId limit ((page : Int) + 1)
          then .ok (timelinePage db organizationId attemptId limit ((page : Int) + 1))
          else .error "allowed is not iterable" := fun page _ => build_eq limit ((page : Int) + 1)
    rw [mapM_decided hread] at hpages
    split at hpages
    · obtain rfl := Except.ok.inj hpages
      simp only [List.flatMap_map, timelinePage, hoffset]
      rw [Pages.flatMap_pages, List.take_of_length_le]
      split
      · omega
      · exact Pages.length_le_pages hpos
    · cases hpages

end ExamSystem.ProctorTimeline
