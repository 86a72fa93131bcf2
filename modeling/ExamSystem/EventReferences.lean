import ExamSystem.ClientEventBuffer
import ExamSystem.EventRedaction
import ExamSystem.ProctorTimeline
import ExamSystem.ScopeResolvers

/-!
# What a client event may refer to

An event claims an attempt, an exam and a question. The server loads its evidence
for a whole batch and keeps of each claim what the evidence proves for the actor:
an attempt of its own with the attempt's exam, an exam it is enrolled in, and a
question of that exam's publication. The event itself is stored in any case.
-/

namespace ExamSystem.Telemetry

open Authz (RuntimeRequestContext)
open ProctorTimeline (buildProctorAttemptEventTimeline)

structure ClientEvent where
  kind : String
  level : String
  name : String
  occurredAt : Int
  route : Option String
  attemptId : Option String
  examId : Option String
  questionId : Option String
  clientSessionId : Option String
  metadata : Option (List (JsString × Json))

/-- The rows that references are checked against, and of an exam, under its key, the
original ids of the questions in its publication. -/
structure ReferenceDb extends Authz.Db where
  questionSnapshot : String → List String

/-! ## Evidence -/

structure ClaimedEventReferences where
  attemptId : Option String
  examId : Option String
  questionId : Option String

structure NormalizedEventReferences where
  attemptId : Option String
  examId : Option String
  questionId : Option String
  deriving DecidableEq, Repr

structure ReferenceEvidence where
  ownedAttemptExamIds : List (String × String)
  eligibleExamIds : List String
  examQuestionIds : List (String × List String)

structure OwnAttemptChain where
  ownerUserId : Option String
  examId : Option String

structure EligibilityChain where
  examId : Option String
  candidateProfileId : Option String
  ownerUserId : Option String
  enrollmentId : Option String

namespace ReferenceDb

def findOwnAttemptChains (db : ReferenceDb) (organizationId : String) (attemptIds : List String) :
    List (String × OwnAttemptChain) :=
  (db.attempts.rows.filter fun a => a.organizationId = organizationId ∧ a.id ∈ attemptIds).map fun a =>
    (a.id, { ownerUserId := (db.profiles.get a.candidateId).map (·.userId),
              examId := (db.exams.get a.examId).map (·.id) })

def findCandidateEligibilityChains (db : ReferenceDb) (organizationId : String)
    (examIds : List String) (userId : String) :
    List (String × EligibilityChain) :=
  (db.exams.rows.filter fun e => e.organizationId = organizationId ∧ e.id ∈ examIds).map fun e =>
    let profile := db.findProfile organizationId userId
    (e.id,
      { examId := some e.id
        candidateProfileId := profile.map (·.id)
        ownerUserId := profile.map (·.userId)
        enrollmentId := (profile.bind fun p => db.findEnrollment organizationId e.id p.id).map (·.id) })

def findByIdsForSnapshot (db : ReferenceDb) (organizationId : String) (examIds : List String) :
    List (String × List String) :=
  (db.exams.rows.filter fun e => e.organizationId = organizationId ∧ e.id ∈ examIds).map fun e =>
    (e.id, db.questionSnapshot e.id)

end ReferenceDb

def distinct (ids : List (Option String)) : List String := (ids.filterMap id).eraseDups

def OwnAttemptChain.ownedExam (actorId : String) (chain : OwnAttemptChain) : Option String :=
  if chain.ownerUserId = some actorId then chain.examId else none

def EligibilityChain.eligible (actorId : String) (chain : EligibilityChain) : Bool :=
  chain.examId.isSome && chain.candidateProfileId.isSome && chain.ownerUserId == some actorId &&
    chain.enrollmentId.isSome

def loadReferenceEvidence (db : ReferenceDb) (ctx : RuntimeRequestContext)
    (claimed : List ClaimedEventReferences) : ReferenceEvidence :=
  let distinctAttemptIds := distinct (claimed.map (·.attemptId))
  let attemptChains := db.findOwnAttemptChains ctx.organizationId distinctAttemptIds
  let ownedAttemptExamIds := distinctAttemptIds.filterMap fun attemptId =>
    ((attemptChains.lookup attemptId).bind (OwnAttemptChain.ownedExam ctx.actorId)).map
      fun examId => (attemptId, examId)
  let distinctExamIds := distinct (claimed.map (·.examId))
  let examChains := db.findCandidateEligibilityChains ctx.organizationId distinctExamIds ctx.actorId
  let eligibleExamIds := distinctExamIds.filter fun examId => (examChains.lookup examId).any
    (EligibilityChain.eligible ctx.actorId)
  let anchorExamIds := (ownedAttemptExamIds.map Prod.snd ++ eligibleExamIds).eraseDups
  let examSnapshots := db.findByIdsForSnapshot ctx.organizationId anchorExamIds
  let examQuestionIds := anchorExamIds.filterMap fun examId =>
    (examSnapshots.lookup examId).map fun snapshot => (examId, snapshot)
  { ownedAttemptExamIds, eligibleExamIds, examQuestionIds }

def normalizeQuestionId (claimedQuestionId : Option String) (examId : String)
    (evidence : ReferenceEvidence) : Option String :=
  match claimedQuestionId with
  | none => none
  | some questionId => if (evidence.examQuestionIds.lookup examId).any
      (·.contains questionId) then some questionId else none

def resolveExamReference (claimed : ClaimedEventReferences) (evidence : ReferenceEvidence) :
    NormalizedEventReferences :=
  match claimed.examId with
  | some examId =>
    if examId ∈ evidence.eligibleExamIds then ⟨none, some examId,
      normalizeQuestionId claimed.questionId examId evidence⟩
    else ⟨none, none, none⟩
  | none => ⟨none, none, none⟩

def resolveEventReferences (claimed : ClaimedEventReferences) (evidence : ReferenceEvidence) :
    NormalizedEventReferences :=
  match claimed.attemptId with
  | some attemptId =>
    match evidence.ownedAttemptExamIds.lookup attemptId with
    | some canonicalExamId => ⟨some attemptId, some canonicalExamId,
        normalizeQuestionId claimed.questionId canonicalExamId evidence⟩
    | none => resolveExamReference claimed evidence
  | none => resolveExamReference claimed evidence

def ClientEvent.claimed (e : ClientEvent) : ClaimedEventReferences :=
  ⟨e.attemptId, e.examId, e.questionId⟩

def normalizeClientEventReferences (db : ReferenceDb) (ctx : RuntimeRequestContext)
    (events : List ClientEvent) :
    List NormalizedEventReferences :=
  let claimed := events.map ClientEvent.claimed
  let evidence := loadReferenceEvidence db ctx claimed
  claimed.map fun c => resolveEventReferences c evidence

/-! ## The route -/

structure StoredClientEvent extends ProctorTimeline.ClientEventRow where
  userId : Option String
  examId : Option String
  questionId : Option String
  clientSessionId : Option String
  userAgent : Option JsString

/-- A request of an authenticated actor: the instant it is received, and the ids that
its rows are given. -/
structure ClientEventRequest where
  ctx : RuntimeRequestContext
  events : List ClientEvent
  userAgent : Option JsString
  receivedAt : Int
  newId : Nat → String

def USER_AGENT_MAX_LENGTH : Nat := 500

section
variable [Host]

def ClientEventRequest.row (r : ClientEventRequest) (event : ClientEvent)
    (references : NormalizedEventReferences) (i : Nat) :
    StoredClientEvent :=
  { id := r.newId i
    organizationId := r.ctx.organizationId
    attemptId := references.attemptId
    kind := event.kind
    level := event.level
    name := event.name
    route := event.route
    occurredAt := event.occurredAt
    receivedAt := r.receivedAt
    metadata := sanitizeClientEvent event.metadata
    userId := some r.ctx.actorId
    examId := references.examId
    questionId := references.questionId
    clientSessionId := event.clientSessionId
    userAgent := r.userAgent.map (·.take USER_AGENT_MAX_LENGTH) }

def createMany (db : ReferenceDb) (r : ClientEventRequest) : List StoredClientEvent :=
  ((r.events.zip (normalizeClientEventReferences db r.ctx r.events)).zipIdx).map fun e =>
    r.row e.1.1 e.1.2 e.2

/-- The answer of the route, none where the schema rejects the batch, and the table. -/
def clientEventRoute (db : ReferenceDb) (r : ClientEventRequest) (table : List StoredClientEvent) :
    Option Nat × List StoredClientEvent :=
  if r.events.length ≤ CLIENT_EVENT_BATCH_MAX_SIZE ∧
    r.events.all (fun e => depthAdmitted e.metadata) then
    (some (createMany db r).length, table ++ createMany db r)
  else (none, table)

structure Post where
  db : ReferenceDb
  request : ClientEventRequest

def serve (table : List StoredClientEvent) (post : Post) : List StoredClientEvent :=
  (clientEventRoute post.db post.request table).2

def serveAll (posts : List Post) (table : List StoredClientEvent) : List StoredClientEvent :=
  posts.foldl serve table

end

/-! ## What an event proves by itself -/

def ownedExam (db : ReferenceDb) (ctx : RuntimeRequestContext) (attemptId : String) :
    Option String := do
  let attempt ← db.findAttempt ctx.organizationId attemptId
  let profile ← db.profiles.get attempt.candidateId
  let exam ← db.exams.get attempt.examId
  if profile.userId = ctx.actorId then some exam.id else none

def enrolled (db : ReferenceDb) (ctx : RuntimeRequestContext) (examId : String) : Bool :=
  (db.findExam ctx.organizationId examId).isSome &&
    (db.findProfile ctx.organizationId ctx.actorId).any fun p =>
      (db.findEnrollment ctx.organizationId examId p.id).isSome

def published (db : ReferenceDb) (ctx : RuntimeRequestContext) (examId questionId : String) : Bool :=
  (db.findExam ctx.organizationId examId).isSome && (db.questionSnapshot examId).contains questionId

def proven (db : ReferenceDb) (ctx : RuntimeRequestContext) (claimed : ClaimedEventReferences) :
    NormalizedEventReferences :=
  match claimed.attemptId.bind (ownedExam db ctx) with
  | some examId => ⟨claimed.attemptId, some examId, claimed.questionId.filter (published db ctx examId)⟩
  | none =>
    match claimed.examId.filter (enrolled db ctx) with
    | some examId => ⟨none, some examId, claimed.questionId.filter (published db ctx examId)⟩
    | none => ⟨none, none, none⟩

/-! ## The evidence of a batch -/

section
variable {α : Type} {key : α → String}

theorem lookup_pairs {β : Type} (f : α → β) (k : String) : ∀ l : List α,
    (l.map fun x => (key x, f x)).lookup k = (l.find? fun x => key x = k).map f
  | [] => rfl
  | x :: l => by
    simp only [List.map_cons, List.lookup_cons, List.find?_cons]
    by_cases h : k = key x
    · simp [h]
    · have h' : ¬ key x = k := fun he => h he.symm
      simp [beq_false_of_ne h, h', lookup_pairs f k l]

theorem lookup_query {β : Type} (t : Table key) (owner : α → String) (organizationId : String)
    (f : α → β) {ids : List String} {k : String} (hk : k ∈ ids) :
    ((t.rows.filter fun x => owner x = organizationId ∧ key x ∈ ids).map fun x => (key x,
        f x)).lookup k =
      ((t.get k).filter fun x => owner x = organizationId).map f := by
  rw [lookup_pairs, List.find?_filter]
  congr 1
  cases hget : t.get k with
  | none =>
    rw [Option.filter_none]
    apply Table.find_eq_none.mpr
    intro i x hx
    have hne : key x ≠ k := by
      rintro rfl
      rw [Table.get_of_mem (Table.mem_of_get hx)] at hget
      cases hget
    simp [hne]
  | some r =>
    have hkey := Table.key_get hget
    by_cases howner : owner r = organizationId
    · rw [Option.filter_some_pos (by simpa using howner)]
      apply Table.find_unique hget
      · simp [howner, hkey, hk]
      · intro i x hx hp
        have hxk : key x = k := by
          simp only [decide_eq_true_eq] at hp
          exact hp.2
        rw [← Table.key_get hx, hxk]
    · rw [Option.filter_some_neg (by simpa using howner)]
      apply Table.find_eq_none.mpr
      intro i x hx
      by_cases hxk : key x = k
      · have hxr : x = r := by
          have := Table.get_of_mem (Table.mem_of_get hx)
          rw [hxk, hget] at this
          exact (Option.some.inj this).symm
        simp [hxr, howner]
      · simp [hxk]

theorem lookup_filterMap {β : Type} (g : String → Option β) (k : String) : ∀ ids : List String,
    (ids.filterMap fun id => (g id).map fun x => (id, x)).lookup k = if k ∈ ids then g k else none
  | [] => rfl
  | id :: ids => by
    have ih := lookup_filterMap g k ids
    rw [List.filterMap_cons]
    cases hg : g id with
    | none =>
      simp only [Option.map_none, ih, List.mem_cons]
      by_cases hk : k = id
      · subst hk
        simp [hg]
      · simp [hk]
    | some x =>
      simp only [Option.map_some, List.lookup_cons, ih, List.mem_cons]
      by_cases hk : k = id
      · subst hk
        simp [hg]
      · simp [beq_false_of_ne hk, hk]

end

theorem mem_distinct {ids : List (Option String)} {id : String} :
    id ∈ distinct ids ↔ some id ∈ ids := by
  simp [distinct]

section
variable (db : ReferenceDb) (ctx : RuntimeRequestContext) {claimed : List ClaimedEventReferences}

theorem owned_evidence {c : ClaimedEventReferences} (hc : c ∈ claimed) {attemptId : String}
    (ha : c.attemptId = some attemptId) :
    (loadReferenceEvidence db ctx claimed).ownedAttemptExamIds.lookup attemptId = ownedExam db ctx
      attemptId := by
  have hmem : attemptId ∈ distinct (claimed.map (·.attemptId)) :=
    mem_distinct.mpr (List.mem_map.mpr ⟨c, hc, ha⟩)
  simp only [loadReferenceEvidence, lookup_filterMap, if_pos hmem, ReferenceDb.findOwnAttemptChains]
  rw [lookup_query db.attempts (·.organizationId) ctx.organizationId _ hmem]
  unfold ownedExam Authz.Db.findAttempt
  cases (db.attempts.get attemptId).filter fun a => decide (a.organizationId = ctx.organizationId) with
  | none => rfl
  | some a =>
    simp only [Option.map_some, Option.bind_some, OwnAttemptChain.ownedExam, Option.bind_eq_bind]
    cases db.profiles.get a.candidateId with
    | none => simp
    | some p =>
      cases db.exams.get a.examId with
      | none => simp
      | some e => simp

theorem eligible_evidence {c : ClaimedEventReferences} (hc : c ∈ claimed) {examId : String}
    (he : c.examId = some examId) :
    examId ∈ (loadReferenceEvidence db ctx claimed).eligibleExamIds ↔
    enrolled db ctx examId = true := by
  have hmem : examId ∈ distinct (claimed.map (·.examId)) :=
    mem_distinct.mpr (List.mem_map.mpr ⟨c, hc, he⟩)
  simp only [loadReferenceEvidence, List.mem_filter, hmem, true_and,
    ReferenceDb.findCandidateEligibilityChains]
  rw [lookup_query db.exams (·.organizationId) ctx.organizationId _ hmem]
  unfold enrolled Authz.Db.findExam
  cases hget : (db.exams.get examId).filter fun e => decide (e.organizationId = ctx.organizationId) with
  | none => simp
  | some e =>
    have hid : e.id = examId := Table.key_get (Option.filter_eq_some_iff.mp hget).1
    cases hp : db.findProfile ctx.organizationId ctx.actorId with
    | none => simp [EligibilityChain.eligible]
    | some p =>
      have hactor : p.userId = ctx.actorId := by
        have := List.find?_some hp
        simp only [decide_eq_true_eq] at this
        exact this.2
      simp [EligibilityChain.eligible, hactor, hid]

def ReferenceEvidence.anchors (evidence : ReferenceEvidence) (examId : String) : Prop :=
  examId ∈ evidence.ownedAttemptExamIds.map Prod.snd ∨ examId ∈ evidence.eligibleExamIds

theorem snapshot_evidence {examId : String}
    (h : (loadReferenceEvidence db ctx claimed).anchors examId) (questionId : String) :
    ((loadReferenceEvidence db ctx claimed).examQuestionIds.lookup examId).any
      (·.contains questionId) = published db ctx examId questionId := by
  have hmem : examId ∈ ((loadReferenceEvidence db ctx claimed).ownedAttemptExamIds.map Prod.snd ++
      (loadReferenceEvidence db ctx claimed).eligibleExamIds).eraseDups := by
    simpa [ReferenceEvidence.anchors] using h
  have hlookup : (loadReferenceEvidence db ctx claimed).examQuestionIds.lookup examId =
      (db.findExam ctx.organizationId examId).map fun e => db.questionSnapshot e.id := by
    simp only [loadReferenceEvidence] at hmem ⊢
    rw [lookup_filterMap, if_pos hmem]
    exact lookup_query db.exams (·.organizationId) ctx.organizationId _ hmem
  rw [hlookup]
  unfold published
  cases hget : db.findExam ctx.organizationId examId with
  | none => rfl
  | some e =>
    have hid : e.id = examId := Table.key_get (Option.filter_eq_some_iff.mp hget).1
    simp [hid]

theorem normalizeQuestionId_eq {examId : String}
    (h : (loadReferenceEvidence db ctx claimed).anchors examId) (questionId : Option String) :
    normalizeQuestionId questionId examId (loadReferenceEvidence db ctx claimed) = questionId.filter
      (published db ctx examId) := by
  cases questionId with
  | none => rfl
  | some q =>
    simp only [normalizeQuestionId, snapshot_evidence db ctx h]
    by_cases hp : published db ctx examId q = true
    · rw [if_pos hp, Option.filter_some_pos hp]
    · rw [if_neg hp, Option.filter_some_neg (by simpa using hp)]

theorem resolveExamReference_eq {c : ClaimedEventReferences} (hc : c ∈ claimed) :
    resolveExamReference c (loadReferenceEvidence db ctx claimed) =
      match c.examId.filter (enrolled db ctx) with
      | some examId => ⟨none, some examId, c.questionId.filter (published db ctx examId)⟩
      | none => ⟨none, none, none⟩ := by
  unfold resolveExamReference
  cases he : c.examId with
  | none => rfl
  | some examId =>
    have helig := eligible_evidence db ctx hc he
    by_cases henrolled : enrolled db ctx examId = true
    · have hin := helig.mpr henrolled
      simp only [if_pos hin, Option.filter_some_pos henrolled, normalizeQuestionId_eq db ctx (.inr hin)]
    · have hout : examId ∉ (loadReferenceEvidence db ctx claimed).eligibleExamIds :=
        fun h => henrolled (helig.mp h)
      simp only [if_neg hout,
        Option.filter_some_neg (show enrolled db ctx examId = false by simpa using henrolled)]

theorem resolveEventReferences_eq {c : ClaimedEventReferences} (hc : c ∈ claimed) :
    resolveEventReferences c (loadReferenceEvidence db ctx claimed) = proven db ctx c := by
  unfold resolveEventReferences proven
  cases ha : c.attemptId with
  | none => exact resolveExamReference_eq db ctx hc
  | some attemptId =>
    have howned := owned_evidence db ctx hc ha
    simp only [Option.bind_some, howned]
    cases hexam : ownedExam db ctx attemptId with
    | none => exact resolveExamReference_eq db ctx hc
    | some examId =>
      have hanchor : (loadReferenceEvidence db ctx claimed).anchors examId := by
        rw [hexam, List.lookup_eq_some_iff] at howned
        obtain ⟨before, after, hsplit, -⟩ := howned
        exact .inl (List.mem_map.mpr ⟨(attemptId, examId), by simp [hsplit], rfl⟩)
      simp only [normalizeQuestionId_eq db ctx hanchor]

theorem normalizeClientEventReferences_eq (events : List ClientEvent) :
    normalizeClientEventReferences db ctx events = events.map fun e => proven db ctx e.claimed := by
  unfold normalizeClientEventReferences
  dsimp only
  rw [List.map_map]
  apply List.map_congr_left
  intro e he
  exact resolveEventReferences_eq db ctx (List.mem_map_of_mem he)

/-! ## What a reference proves -/

variable {db ctx}

theorem ownedExam_eq_some {attemptId examId : String} : ownedExam db ctx attemptId = some examId ↔
    ∃ a p, db.findAttempt ctx.organizationId attemptId = some a ∧
      db.profiles.get a.candidateId = some p ∧ p.userId = ctx.actorId ∧
      a.examId = examId ∧ (db.exams.get examId).isSome = true := by
  unfold ownedExam
  simp only [Option.bind_eq_bind, Option.bind_eq_some_iff, Option.ite_none_right_eq_some,
    Option.some.injEq]
  constructor
  · rintro ⟨a, ha, p, hp, e, he, hactor, hid⟩
    have hkey : e.id = a.examId := Table.key_get he
    refine ⟨a, p, ha, hp, hactor, hkey ▸ hid, ?_⟩
    rw [← hid, hkey, he]
    rfl
  · rintro ⟨a, p, ha, hp, hactor, rfl, hsome⟩
    obtain ⟨e, he⟩ := Option.isSome_iff_exists.mp hsome
    exact ⟨a, ha, p, hp, e, he, hactor, Table.key_get he⟩

theorem enrolled_iff {examId : String} : enrolled db ctx examId = true ↔
    ∃ e p r, db.findExam ctx.organizationId examId = some e ∧
      db.findProfile ctx.organizationId ctx.actorId = some p ∧
      db.findEnrollment ctx.organizationId examId p.id = some r := by
  unfold enrolled
  cases db.findExam ctx.organizationId examId with
  | none => simp
  | some e =>
    cases db.findProfile ctx.organizationId ctx.actorId with
    | none => simp
    | some p => simp [Option.isSome_iff_exists]

theorem published_iff {examId questionId : String} : published db ctx examId questionId = true ↔
    (∃ e, db.findExam ctx.organizationId examId = some e) ∧
    questionId ∈ db.questionSnapshot examId := by
  simp [published, Option.isSome_iff_exists]

variable (db ctx)

structure Trusted (claimed : ClaimedEventReferences) (r : NormalizedEventReferences) : Prop where
  /-- An attempt is claimed and the actor's own, and brings its exam. -/
  attempt : ∀ attemptId, r.attemptId = some attemptId ↔ claimed.attemptId = some attemptId ∧
    ∃ a p, db.findAttempt ctx.organizationId attemptId = some a ∧
      db.profiles.get a.candidateId = some p ∧ p.userId = ctx.actorId ∧
      r.examId = some a.examId ∧ (db.exams.get a.examId).isSome = true
  /-- An exam without an attempt is claimed, and the actor is enrolled in it. -/
  exam : r.attemptId = none → ∀ examId, r.examId = some examId ↔ claimed.examId = some examId ∧
    ∃ e p x, db.findExam ctx.organizationId examId = some e ∧
      db.findProfile ctx.organizationId ctx.actorId = some p ∧
      db.findEnrollment ctx.organizationId examId p.id = some x
  /-- A question is claimed, and in the publication of the exam. -/
  question : ∀ questionId, r.questionId = some questionId ↔ claimed.questionId = some questionId ∧
    ∃ examId, r.examId = some examId ∧ (∃ e, db.findExam ctx.organizationId examId = some e) ∧
    questionId ∈ db.questionSnapshot examId

theorem filter_published (examId : String) (questionId : Option String) (q : String) :
    questionId.filter (published db ctx examId) = some q ↔ questionId = some q ∧
      ∃ x, some examId = some x ∧ (∃ e, db.findExam ctx.organizationId x = some e) ∧
      q ∈ db.questionSnapshot x := by
  simp only [Option.filter_eq_some_iff, published_iff, Option.some.injEq, exists_eq_left']

theorem proven_trusted (claimed : ClaimedEventReferences) :
    Trusted db ctx claimed (proven db ctx claimed) := by
  unfold proven
  cases hattempt : claimed.attemptId.bind (ownedExam db ctx) with
  | some examId =>
    obtain ⟨attemptId, hclaim, howned⟩ := Option.bind_eq_some_iff.mp hattempt
    obtain ⟨a, p, ha, hp, hactor, rfl, hexam⟩ := ownedExam_eq_some.mp howned
    refine ⟨fun i => ⟨fun hi => ⟨hi, ?_⟩, fun hi => hi.1⟩, fun hnone => ?_,
      filter_published db ctx a.examId claimed.questionId⟩
    · obtain rfl : attemptId = i := Option.some.inj (hclaim.symm.trans hi)
      exact ⟨a, p, ha, hp, hactor, rfl, hexam⟩
    · rw [hclaim] at hnone
      cases hnone
  | none =>
    have hdenied : ∀ attemptId x, (claimed.attemptId = some attemptId ∧
        ∃ a p, db.findAttempt ctx.organizationId attemptId = some a ∧
          db.profiles.get a.candidateId = some p ∧ p.userId = ctx.actorId ∧
          x = some a.examId ∧ (db.exams.get a.examId).isSome = true) → False := by
      rintro attemptId x ⟨hclaim, a, p, ha, hp, hactor, -, hexam⟩
      have howned := ownedExam_eq_some.mpr ⟨a, p, ha, hp, hactor, rfl, hexam⟩
      rw [hclaim, Option.bind_some, howned] at hattempt
      cases hattempt
    cases hfilter : claimed.examId.filter (enrolled db ctx) with
    | some examId =>
      obtain ⟨hclaim, henrolled⟩ := Option.filter_eq_some_iff.mp hfilter
      refine ⟨fun i => ⟨fun hi => (by cases hi), fun hi => (hdenied i _ hi).elim⟩,
        fun _ i => ⟨fun hi => ?_, fun hi => ?_⟩, filter_published db ctx examId claimed.questionId⟩
      · obtain rfl := Option.some.inj hi
        exact ⟨hclaim, enrolled_iff.mp henrolled⟩
      · exact hclaim.symm.trans hi.1
    | none =>
      refine ⟨fun i => ⟨fun hi => (by cases hi), fun hi => (hdenied i _ hi).elim⟩,
        fun _ i => ⟨fun hi => (by cases hi), fun hi => ?_⟩,
        fun q => ⟨fun hq => (by cases hq), fun hq => ?_⟩⟩
      · have := Option.filter_eq_some_iff.mpr ⟨hi.1, enrolled_iff.mpr hi.2⟩
        rw [hfilter] at this
        cases this
      · obtain ⟨-, examId, hnone, -⟩ := hq
        cases hnone

end

/-! ## Runs -/

theorem length_normalize (db : ReferenceDb) (ctx : RuntimeRequestContext) (events : List ClientEvent) :
    (normalizeClientEventReferences db ctx events).length = events.length := by
  rw [normalizeClientEventReferences_eq, List.length_map]

section
variable [Host]

theorem length_createMany (db : ReferenceDb) (r : ClientEventRequest) :
    (createMany db r).length = r.events.length := by
  simp [createMany, length_normalize]

theorem mem_createMany {db : ReferenceDb} {r : ClientEventRequest} {row : StoredClientEvent}
    (h : row ∈ createMany db r) :
    ∃ event ∈ r.events, ∃ i, row = r.row event (proven db r.ctx event.claimed) i := by
  unfold createMany at h
  obtain ⟨⟨⟨event, references⟩, i⟩, he, rfl⟩ := List.mem_map.mp h
  have hzip : (event, references) ∈ r.events.zip (r.events.map fun e => proven db r.ctx e.claimed) := by
    rw [← normalizeClientEventReferences_eq]
    exact List.fst_mem_of_mem_zipIdx he
  rw [← List.map_prod_left_eq_zip] at hzip
  obtain ⟨e, hmem, heq⟩ := List.mem_map.mp hzip
  cases heq
  exact ⟨event, hmem, i, rfl⟩

theorem serve_cases (table : List StoredClientEvent) (post : Post) :
    serve table post = table ∨ serve table post = table ++ createMany post.db post.request := by
  unfold serve clientEventRoute
  split
  · exact .inr rfl
  · exact .inl rfl

def StoredClientEvent.references (row : StoredClientEvent) : NormalizedEventReferences :=
  ⟨row.attemptId, row.examId, row.questionId⟩

/-- The row was reported by the actor of a post, and refers to what is the actor's. -/
def Reported (post : Post) (row : StoredClientEvent) : Prop :=
  ∃ event ∈ post.request.events, row.organizationId = post.request.ctx.organizationId ∧
    row.userId = some post.request.ctx.actorId ∧
    Trusted post.db post.request.ctx event.claimed row.references

theorem reported_row {post : Post} {row : StoredClientEvent}
    (h : row ∈ createMany post.db post.request) : Reported post row := by
  obtain ⟨event, hmem, i, rfl⟩ := mem_createMany h
  exact ⟨event, hmem, rfl, rfl, proven_trusted post.db post.request.ctx event.claimed⟩

theorem mem_serveAll :
    ∀ (posts : List Post) {table : List StoredClientEvent} {row : StoredClientEvent},
    row ∈ serveAll posts table → row ∈ table ∨ ∃ post ∈ posts, Reported post row
  | [], _, _, h => .inl h
  | post :: posts, table, row, h => by
    rcases mem_serveAll posts h with h | ⟨p, hp, hr⟩
    · rcases serve_cases table post with hserve | hserve
      · rw [hserve] at h
        exact .inl h
      · rw [hserve] at h
        rcases List.mem_append.mp h with h | h
        · exact .inl h
        · exact .inr ⟨post, List.mem_cons_self, reported_row h⟩
    · exact .inr ⟨p, List.mem_cons_of_mem post hp, hr⟩

/-- Whatever the requests, every row that they add refers to what its actor can be
proven to own, have enrolled in or have been asked, and to all of it that was
claimed; and the answer of a request does not depend on the rows. -/
theorem references_are_proven (posts : List Post) (table : List StoredClientEvent) :
    (∀ row ∈ serveAll posts table, row ∈ table ∨ ∃ post ∈ posts, Reported post row) ∧
    ∀ (db db' : ReferenceDb) (r : ClientEventRequest) (table' : List StoredClientEvent),
      (clientEventRoute db r table).1 = (clientEventRoute db' r table').1 ∧
      ∀ accepted, (clientEventRoute db r table).1 = some accepted → accepted = r.events.length := by
  refine ⟨fun row hrow => mem_serveAll posts hrow, ?_⟩
  intro db db' r table'
  unfold clientEventRoute
  split
  · refine ⟨by simp [length_createMany], ?_⟩
    intro accepted h
    rw [← Option.some.inj h, length_createMany]
  · exact ⟨rfl, fun accepted h => by cases h⟩

/-! ## Timelines -/

def Post.owns (organizationId attemptId : String) (post : Post) : Bool :=
  post.request.ctx.organizationId = organizationId ∧
    (post.db.findAttempt organizationId attemptId).any fun a =>
      (post.db.profiles.get a.candidateId).any fun p => p.userId = post.request.ctx.actorId

def timelineRows (table : List StoredClientEvent) (organizationId attemptId : String) :
    List ProctorTimeline.ClientEventRow :=
  (table.map (·.toClientEventRow)).filter fun r => r.organizationId = organizationId ∧
    r.attemptId = some attemptId

theorem timelineRows_foreign {organizationId attemptId : String} {post : Post}
    (h : post.owns organizationId attemptId = false) :
    timelineRows (createMany post.db post.request) organizationId attemptId = [] := by
  unfold timelineRows
  rw [List.filter_eq_nil_iff]
  intro r hr hclaims
  obtain ⟨row, hrow, rfl⟩ := List.mem_map.mp hr
  obtain ⟨event, -, horg, -, htrusted⟩ := reported_row hrow
  simp only [decide_eq_true_eq] at hclaims
  obtain ⟨-, a, p, ha, hp, hactor, -⟩ := (htrusted.attempt attemptId).mp hclaims.2
  have hsame : post.request.ctx.organizationId = organizationId := horg.symm.trans hclaims.1
  have howns : post.owns organizationId attemptId = true := by
    rw [hsame] at ha
    simp [Post.owns, hsame, ha, hp, hactor]
  rw [howns] at h
  cases h

omit [Host] in
theorem timelineRows_append (table rows : List StoredClientEvent) (organizationId attemptId : String) :
    timelineRows (table ++ rows) organizationId attemptId =
      timelineRows table organizationId attemptId ++ timelineRows rows organizationId attemptId := by
  simp [timelineRows]

/-- Tables with the same rows of an attempt have them after a post. -/
theorem timelineRows_serve {organizationId attemptId : String}
    {table table' : List StoredClientEvent}
    (h : timelineRows table organizationId attemptId = timelineRows table' organizationId attemptId)
    (post : Post) :
    timelineRows (serve table post) organizationId attemptId = timelineRows
      (serve table' post) organizationId attemptId := by
  unfold serve clientEventRoute
  split
  · simp only [timelineRows_append, h]
  · exact h

theorem timelineRows_serve_foreign {organizationId attemptId : String} {post : Post}
    (hforeign : post.owns organizationId attemptId = false) (table : List StoredClientEvent) :
    timelineRows (serve table post) organizationId attemptId = timelineRows table organizationId
      attemptId := by
  rcases serve_cases table post with hserve | hserve
  · rw [hserve]
  · rw [hserve, timelineRows_append, timelineRows_foreign hforeign, List.append_nil]

theorem timelineRows_purge (organizationId attemptId : String) :
    ∀ (posts : List Post) {table table' : List StoredClientEvent},
    timelineRows table organizationId attemptId = timelineRows table' organizationId attemptId →
    timelineRows (serveAll posts table) organizationId attemptId =
      timelineRows (serveAll (posts.filter (·.owns organizationId attemptId)) table')
        organizationId attemptId
  | [], _, _, h => h
  | post :: posts, table, table', h => by
    by_cases howns : post.owns organizationId attemptId = true
    · rw [List.filter_cons_of_pos (by simpa using howns)]
      exact timelineRows_purge organizationId attemptId posts (timelineRows_serve h post)
    · have hforeign : post.owns organizationId attemptId = false := by simpa using howns
      rw [List.filter_cons_of_neg (by simpa using howns)]
      exact timelineRows_purge organizationId attemptId posts
        ((timelineRows_serve_foreign hforeign table).trans h)

/-- The events that a proctor reads of an attempt are its candidate's: without the
requests of everyone else each page is the same. -/
theorem timeline_is_the_candidates (posts : List Post) (table : List StoredClientEvent)
    (auditLogs : List ProctorTimeline.AuditLogRow) (organizationId attemptId : String)
    (limit page : Int) :
    let db (posts : List Post) : ProctorTimeline.Db :=
      ⟨(serveAll posts table).map (·.toClientEventRow), auditLogs⟩
    buildProctorAttemptEventTimeline (db posts) organizationId attemptId limit page =
      buildProctorAttemptEventTimeline (db (posts.filter (·.owns organizationId attemptId)))
        organizationId attemptId limit page := by
  intro db
  have hrows : (db posts).clientEventsOf organizationId attemptId =
      (db (posts.filter (·.owns organizationId attemptId))).clientEventsOf organizationId attemptId :=
    timelineRows_purge organizationId attemptId posts rfl
  have hlogs : ∀ actions, (db posts).auditLogsOf organizationId attemptId actions =
      (db (posts.filter (·.owns organizationId attemptId))).auditLogsOf organizationId attemptId
        actions := fun _ => rfl
  exact ProctorTimeline.page_congr hrows hlogs limit page

end

end ExamSystem.Telemetry
