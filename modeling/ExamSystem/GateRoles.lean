import ExamSystem.GateSound

/-!
# Gates and the roles of an actor

A request is authenticated with the active role assignments of its actor, so a
gate is passed by a role that grants the capability together with an assignment
to the resource; and what is denied to a capable actor looks missing to it.
-/

namespace ExamSystem.Authz

open Tx Accounts Tenancy

section
variable {rows rows' : List UserRoleAssignment} {organizationId userId id : String}
    {ctx ctx' : RuntimeRequestContext} {route : ScopedRoute} {reads : Reads} {request : GateRequest}
    {db : Db} {n : Node}

/-! ## Active roles -/

def HoldsRole (rows : List UserRoleAssignment) (role : AssignableRole) : Prop :=
  ∃ r ∈ rows, r.isActive = true ∧ r.role = role

def Grants (rows : List UserRoleAssignment) (p : PermissionKey) : Prop :=
  ∃ r ∈ rows, r.isActive = true ∧ p ∈ permissionsForRole r.role

theorem contextOf_actor (h : contextOf rows organizationId userId = .ok ctx) :
    ctx.actorId = userId ∧ ctx.organizationId = organizationId ∧ ∀ role, role ∈ ctx.roles ↔
    HoldsRole rows role := by
  unfold contextOf at h
  obtain ⟨a, ha, rfl⟩ := (map_eq_ok ..).mp h
  obtain ⟨-, hroles, -⟩ := deriveAssignmentAuthority_eq_ok ha
  refine ⟨rfl, rfl, fun role => ?_⟩
  simp only [authenticatedContext, hroles, mem_sortRolesCanonical, List.mem_map,
    List.mem_filter, HoldsRole]
  constructor
  · rintro ⟨r, ⟨hr, hactive⟩, rfl⟩
    exact ⟨r, hr, hactive, rfl⟩
  · rintro ⟨r, hr, hactive, rfl⟩
    exact ⟨r, ⟨hr, hactive⟩, rfl⟩

/-- An Admin, or an active episode of the user at what the resource reaches. -/
def Reached (rows : List UserRoleAssignment) (organizationId userId : String) (db : Db) (n : Node)
    (kind : String → Node) (lookup : Option Db) (active : Db → String → String → String → Bool) :
    Prop :=
  HoldsRole rows .admin ∨ ∃ id now, db.Reaches n (kind id) ∧ lookup = some now ∧
    active now organizationId id userId = true

theorem covered_iff (h : contextOf rows organizationId userId = .ok ctx) {kind : String → Node}
    {lookup : Option Db} {active : Db → String → String → String → Bool} :
    Covered ctx db n kind lookup active ↔
    Reached rows organizationId userId db n kind lookup active := by
  obtain ⟨rfl, rfl, hroles⟩ := contextOf_actor h
  unfold Covered Reached
  rw [hroles]

/-! ## Who passes -/

/-- A scoped route, end to end. A request passes exactly when an active role of its actor
grants the capability, the resource and all its parents are the organization's, and for every
assignment that the route declares the actor is an Admin or has an active episode at the exam
or course that the resource belongs to. A query that fails lets nothing pass. -/
theorem scoped_route_admits (rows : List UserRoleAssignment) (organizationId userId : String)
    (ctx : RuntimeRequestContext) (hctx : contextOf rows organizationId userId = .ok ctx)
    (route : ScopedRoute) (reads : Reads) (request : GateRequest) (hreq : request.ctx = some ctx) :
    requireScopedCapability route reads request = .ok () ↔
      Grants rows route.permission ∧ ∃ n db, route.resource request = some n ∧
        reads .chain = some db ∧ db.Anchored organizationId n ∧
        (route.proctorAccess = true →
          Reached rows organizationId userId db n .exam
            (reads .proctor) Db.hasActiveProctorAssignment) ∧
        (route.teacherAccess = true →
          Reached rows organizationId userId db n .course
            (reads .teacher) Db.hasActiveTeacherAssignment) ∧
        (route.graderAccess = true →
          Reached rows organizationId userId db n .exam
            (reads .grader) Db.hasActiveGraderAssignment) := by
  rw [scoped_gate_passes]
  obtain ⟨rfl, rfl, -⟩ := contextOf_actor hctx
  constructor
  · rintro ⟨_, n, db, hsome, hcap, hn, hdb, ha, hp, ht, hg⟩
    rw [hreq] at hsome
    cases hsome
    exact ⟨(contextOf_holds hctx _).mp hcap, n, db, hn, hdb, ha,
      fun h => (covered_iff hctx).mp (hp h), fun h => (covered_iff hctx).mp (ht h),
      fun h => (covered_iff hctx).mp (hg h)⟩
  · rintro ⟨hcap, n, db, hn, hdb, ha, hp, ht, hg⟩
    exact ⟨ctx, n, db, hreq, (contextOf_holds hctx _).mpr hcap, hn, hdb, ha,
      fun h => (covered_iff hctx).mpr (hp h),
      fun h => (covered_iff hctx).mpr (ht h), fun h => (covered_iff hctx).mpr (hg h)⟩

/-- A candidate and its attempt, in a course that is assigned to a teacher. -/
def sampleGateRows : Db where
  organizations := ["org"]
  courses := ⟨[⟨"course", "org"⟩], by decide⟩
  exams := ⟨[⟨"exam", "org", "course"⟩], by decide⟩
  questions := Table.empty
  attempts := ⟨[⟨"attempt", "org", "exam", "profile"⟩], by decide⟩
  incidents := Table.empty
  profiles := ⟨[⟨"profile", "org", "candidate"⟩], by decide⟩
  profilesUnique := by decide
  enrollments := [⟨"enrollment", "org", "exam", "profile"⟩]
  enrollmentsUnique := by decide
  proctorAssignments := []
  teacherCourseAssignments := [⟨"org", "course", "teacher", .active⟩]
  graderExamAssignments := []

def sampleGateReads : Reads := fun _ => some sampleGateRows

def sampleGateRequest (ctx : RuntimeRequestContext) : GateRequest :=
  ⟨some ctx, [("attemptId", "attempt"), ("examId", "exam")], []⟩

theorem sample_anchored :
    sampleGateRows.Anchored "org" (.exam "exam") ∧
    sampleGateRows.Anchored "org" (.attempt "attempt") := by
  have hcourse : sampleGateRows.Anchored "org" (.course "course") := anchored_course.mpr ⟨by decide,
    ⟨_, rfl⟩, by decide⟩
  have hexam : sampleGateRows.Anchored "org" (.exam "exam") := anchored_exam.mpr ⟨by decide, _,
    rfl, hcourse⟩
  exact ⟨hexam, anchored_attempt.mpr ⟨by decide, _, rfl, hexam⟩⟩

def sampleTeacher : RuntimeRequestContext := authenticatedContext "org" "teacher" ⟨.teacher,
      [.teacher], ["role"]⟩

theorem sampleTeacher_rows :
    contextOf [⟨"role", "org", "teacher", .teacher, true, true, 0⟩] "org" "teacher" =
      .ok sampleTeacher := rfl

theorem scoped_route_admits_sample : requireScopedCapability
    { permission := .examView, resolverKey := .exam, resourceIdKey := "examId",
      teacherAccess := true } sampleGateReads
      (sampleGateRequest sampleTeacher) = .ok () := by
  apply (scoped_route_admits _ _ _ _ sampleTeacher_rows _ _ _ rfl).mpr
  refine ⟨⟨_, .head _, rfl, by decide⟩, .exam "exam", sampleGateRows, rfl, rfl, sample_anchored.1,
    nofun, fun _ => ?_, nofun⟩
  exact .inr ⟨"course", sampleGateRows, .single rfl, rfl, by decide⟩

/-- The gates of a candidate, end to end: the attempt must be its own and the exam one that it
is enrolled in, under a role that grants the capability. -/
theorem candidate_routes_admitted (rows : List UserRoleAssignment) (organizationId userId : String)
    (ctx : RuntimeRequestContext) (hctx : contextOf rows organizationId userId = .ok ctx)
    (permission : PermissionKey) (key : String) (reads : Reads) (request : GateRequest)
    (hreq : request.ctx = some ctx) :
    (requireOwnAttempt permission key reads request = .ok () ↔
      Grants rows permission ∧ ∃ id db, request.resourceId .params key = some id ∧
        reads .chain = some db ∧ db.Anchored organizationId (.attempt id) ∧
        ∃ p, db.attemptProfile id = some p ∧ p.organizationId = organizationId ∧ p.userId = userId) ∧
    ∀ mode, requireExamEligibility permission key mode reads request = .ok () ↔
      Grants rows permission ∧ ∃ id db, request.resourceId .params key = some id ∧
        reads .chain = some db ∧ db.Anchored organizationId (.exam id) ∧
        ∃ p e, db.findProfile organizationId userId = some p ∧
        db.findEnrollment organizationId id p.id = some e := by
  obtain ⟨rfl, rfl, -⟩ := contextOf_actor hctx
  constructor
  · rw [own_attempt_gate_passes]
    constructor
    · rintro ⟨_, id, db, hsome, hcap, hid, hdb, ha, hp⟩
      rw [hreq] at hsome
      cases hsome
      exact ⟨(contextOf_holds hctx _).mp hcap, id, db, hid, hdb, ha, hp⟩
    · rintro ⟨hcap, id, db, hid, hdb, ha, hp⟩
      exact ⟨ctx, id, db, hreq, (contextOf_holds hctx _).mpr hcap, hid, hdb, ha, hp⟩
  · intro mode
    rw [exam_eligibility_gate_passes]
    constructor
    · rintro ⟨_, id, db, hsome, hcap, hid, hdb, ha, hp⟩
      rw [hreq] at hsome
      cases hsome
      exact ⟨(contextOf_holds hctx _).mp hcap, id, db, hid, hdb, ha, hp⟩
    · rintro ⟨hcap, id, db, hid, hdb, ha, hp⟩
      exact ⟨ctx, id, db, hreq, (contextOf_holds hctx _).mpr hcap, hid, hdb, ha, hp⟩

def sampleCandidate : RuntimeRequestContext :=
  authenticatedContext "org" "candidate" ⟨.candidate, [.candidate], ["role"]⟩

theorem sampleCandidate_rows :
    contextOf [⟨"role", "org", "candidate", .candidate, true, true, 0⟩] "org" "candidate" =
      .ok sampleCandidate := rfl

theorem candidate_routes_admitted_sample :
    requireOwnAttempt .attemptSubmit "attemptId" sampleGateReads
      (sampleGateRequest sampleCandidate) = .ok () ∧
    requireExamEligibility .examTake "examId" .resourceNotFound sampleGateReads
      (sampleGateRequest sampleCandidate) = .ok () := by
  constructor
  · apply (candidate_routes_admitted _ _ _ _ sampleCandidate_rows _ _ _ _ rfl).1.mpr
    exact ⟨⟨_, .head _, rfl, by decide⟩, "attempt", sampleGateRows, rfl, rfl, sample_anchored.2, _,
      rfl, rfl, rfl⟩
  · apply ((candidate_routes_admitted _ _ _ _ sampleCandidate_rows _ _ _ _ rfl).2 _).mpr
    exact ⟨⟨_, .head _, rfl, by decide⟩, "exam", sampleGateRows, rfl, rfl, sample_anchored.1, _,
      _, rfl, rfl⟩

/-! ## More roles -/

structure Widens (ctx ctx' : RuntimeRequestContext) : Prop where
  actor : ctx'.actorId = ctx.actorId
  organization : ctx'.organizationId = ctx.organizationId
  roles : ∀ role ∈ ctx.roles, role ∈ ctx'.roles
  capabilities : ∀ p ∈ ctx.capabilities, p ∈ ctx'.capabilities

theorem widens_of_rows (h : contextOf rows organizationId userId = .ok ctx)
    (h' : contextOf rows' organizationId userId = .ok ctx') (hrows : ∀ r ∈ rows, r ∈ rows') :
    Widens ctx ctx' := by
  obtain ⟨ha, ho, hroles⟩ := contextOf_actor h
  obtain ⟨ha', ho', hroles'⟩ := contextOf_actor h'
  refine ⟨by rw [ha, ha'], by rw [ho, ho'], fun role hr => ?_, fun p hp => ?_⟩
  · obtain ⟨r, hr, hactive, he⟩ := (hroles role).mp hr
    exact (hroles' role).mpr ⟨r, hrows r hr, hactive, he⟩
  · obtain ⟨r, hr, hactive, hgrant⟩ := (contextOf_holds h p).mp hp
    exact (contextOf_holds h' p).mpr ⟨r, hrows r hr, hactive, hgrant⟩

theorem Covered.widen (hw : Widens ctx ctx') {kind : String → Node} {lookup : Option Db}
    {active : Db → String → String → String → Bool} (h : Covered ctx db n kind lookup active) :
    Covered ctx' db n kind lookup active := by
  rcases h with hadmin | ⟨id, now, hreach, hnow, hactive⟩
  · exact .inl (hw.roles _ hadmin)
  · exact .inr ⟨id, now, hreach, hnow, by rw [hw.actor, hw.organization]; exact hactive⟩

def GateRequest.as (request : GateRequest) (ctx : RuntimeRequestContext) : GateRequest :=
  { request with ctx := some ctx }

@[simp] theorem as_ctx : (request.as ctx).ctx = some ctx := rfl

@[simp] theorem as_resourceId (source : ResourceIdSource) (key : String) :
    (request.as ctx).resourceId source key = request.resourceId source key := by
  cases source <;> rfl

@[simp] theorem as_resource : route.resource (request.as ctx) = route.resource request := by
  unfold ScopedRoute.resource
  simp only [as_resourceId]

theorem scoped_widen (hw : Widens ctx ctx')
    (h : requireScopedCapability route reads (request.as ctx) = .ok ()) :
    requireScopedCapability route reads (request.as ctx') = .ok () := by
  obtain ⟨_, n, db, ⟨⟩, hcap, hn, hdb, ha, hp, ht, hg⟩ := (scoped_gate_passes ..).mp h
  apply (scoped_gate_passes ..).mpr
  rw [as_resource] at hn ⊢
  refine ⟨ctx', n, db, rfl, hw.capabilities _ hcap, hn, hdb, by rw [hw.organization]; exact ha, ?_⟩
  exact ⟨fun h => (hp h).widen hw, fun h => (ht h).widen hw, fun h => (hg h).widen hw⟩

theorem own_widen (hw : Widens ctx ctx') {permission : PermissionKey} {key : String}
    (h : requireOwnAttempt permission key reads (request.as ctx) = .ok ()) :
    requireOwnAttempt permission key reads (request.as ctx') = .ok () := by
  obtain ⟨_, id, db, ⟨⟩, hcap, hid, hdb, ha, hp⟩ := (own_attempt_gate_passes ..).mp h
  apply (own_attempt_gate_passes ..).mpr
  rw [as_resourceId] at hid ⊢
  refine ⟨ctx', id, db, rfl, hw.capabilities _ hcap, hid, hdb, ?_⟩
  rw [hw.organization, hw.actor]
  exact ⟨ha, hp⟩

theorem eligibility_widen (hw : Widens ctx ctx') {permission : PermissionKey} {key : String}
    {mode : EligibilityDenialMode}
    (h : requireExamEligibility permission key mode reads (request.as ctx) = .ok ()) :
    requireExamEligibility permission key mode reads (request.as ctx') = .ok () := by
  obtain ⟨_, id, db, ⟨⟩, hcap, hid, hdb, ha, hp⟩ := (exam_eligibility_gate_passes ..).mp h
  apply (exam_eligibility_gate_passes ..).mpr
  rw [as_resourceId] at hid ⊢
  refine ⟨ctx', id, db, rfl, hw.capabilities _ hcap, hid, hdb, ?_⟩
  rw [hw.organization, hw.actor]
  exact ⟨ha, hp⟩

theorem all_scores_widen (hw : Widens ctx ctx')
    (h : requireScoreCapability reads (request.as ctx) = .ok .all) :
    requireScoreCapability reads (request.as ctx') = .ok .all := by
  obtain ⟨_, id, db, ⟨⟩, hid, hdb, ha, hview⟩ := (score_gate_shows ..).mp h
  apply (score_gate_shows ..).mpr
  rw [as_resourceId] at hid ⊢
  refine ⟨ctx', id, db, rfl, hid, hdb, by rw [hw.organization]; exact ha, ?_⟩
  rcases hview with ⟨-, hcap, hcovered⟩ | ⟨hown, -⟩
  · exact .inl ⟨rfl, hw.capabilities _ hcap, hcovered.widen hw⟩
  · cases hown

/-- Who saw its own score sees one as long as the wider view, if it is now held, covers the attempt. -/
theorem own_score_widen (hw : Widens ctx ctx')
    (h : requireScoreCapability reads (request.as ctx) = .ok .own) :
    (∃ view, requireScoreCapability reads (request.as ctx') = .ok view) ↔
      (.scoreAllView ∈ ctx'.capabilities →
        ∃ id db, request.resourceId .params "attemptId" = some id ∧ reads .chain = some db ∧
        Covered ctx' db (.attempt id) .course (reads .teacher) Db.hasActiveTeacherAssignment) := by
  obtain ⟨_, id, db, ⟨⟩, hid, hdb, ha, hview⟩ := (score_gate_shows ..).mp h
  obtain ⟨hall, -⟩ | ⟨-, -, hcap, hown⟩ := hview
  · cases hall
  rw [as_resourceId] at hid
  simp only [score_gate_shows, as_resourceId, as_ctx, Option.some_inj]
  constructor
  · rintro ⟨view, _, id', db', rfl, hid', hdb', -, ⟨-, -, hcovered⟩ | ⟨-, hnot, -⟩⟩ hnew
    · exact ⟨id', db', hid', hdb', hcovered⟩
    · exact absurd hnew hnot
  · intro hcover
    by_cases hnew : PermissionKey.scoreAllView ∈ ctx'.capabilities
    · obtain ⟨id', db', hid', hdb', hcovered⟩ := hcover hnew
      rw [hid] at hid'
      rw [hdb] at hdb'
      cases hid'
      cases hdb'
      exact ⟨.all, ctx', id, db, rfl, hid, hdb, by rw [hw.organization]; exact ha,
        .inl ⟨rfl, hnew, hcovered⟩⟩
    · exact ⟨.own, ctx', id, db, rfl, hid, hdb, by rw [hw.organization]; exact ha,
        .inr ⟨rfl, hnew, hw.capabilities _ hcap, by rw [hw.actor]; exact hown⟩⟩

/-- Another active role never closes a gate, with one exception: an actor that saw its own
score and now holds the view of every score sees it exactly when it is also an Admin or
assigned to the course of the attempt. -/
theorem more_roles_open_more (rows rows' : List UserRoleAssignment) (organizationId userId : String)
    (ctx ctx' : RuntimeRequestContext) (hctx : contextOf rows organizationId userId = .ok ctx)
    (hctx' : contextOf rows' organizationId userId = .ok ctx') (hrows : ∀ r ∈ rows, r ∈ rows')
    (reads : Reads) (request : GateRequest) :
    (∀ route, requireScopedCapability route reads (request.as ctx) = .ok () →
      requireScopedCapability route reads (request.as ctx') = .ok ()) ∧
    (∀ permission key, requireOwnAttempt permission key reads (request.as ctx) = .ok () →
      requireOwnAttempt permission key reads (request.as ctx') = .ok ()) ∧
    (∀ permission key mode, requireExamEligibility permission key mode reads (request.as ctx) = .ok () →
      requireExamEligibility permission key mode reads (request.as ctx') = .ok ()) ∧
    (requireScoreCapability reads (request.as ctx) = .ok .all →
      requireScoreCapability reads (request.as ctx') = .ok .all) ∧
    (requireScoreCapability reads (request.as ctx) = .ok .own →
      ((∃ view, requireScoreCapability reads (request.as ctx') = .ok view) ↔
        (Grants rows' .scoreAllView → ∃ id db, request.resourceId .params "attemptId" = some id ∧
          reads .chain = some db ∧
          Reached rows' organizationId userId db (.attempt id) .course
            (reads .teacher) Db.hasActiveTeacherAssignment))) := by
  have hw := widens_of_rows hctx hctx' hrows
  refine ⟨fun _ => scoped_widen hw, fun _ _ => own_widen hw, fun _ _ _ => eligibility_widen hw,
    all_scores_widen hw, fun h => ?_⟩
  rw [own_score_widen hw h, contextOf_holds hctx']
  simp only [covered_iff hctx']
  rfl

def sampleBoth : RuntimeRequestContext :=
  authenticatedContext "org" "candidate" ⟨.candidate, [.teacher, .candidate], ["role", "role-2"]⟩

/-- A candidate that becomes a teacher of other courses does not see its own score any more. -/
theorem more_roles_open_more_sample :
    requireScoreCapability sampleGateReads
      ((sampleGateRequest sampleCandidate).as sampleCandidate) = .ok .own ∧
    ¬ ∃ view, requireScoreCapability sampleGateReads
      ((sampleGateRequest sampleCandidate).as sampleBoth) = .ok view := by
  have hboth : contextOf [⟨"role", "org", "candidate", .candidate, true, true, 0⟩,
    ⟨"role-2", "org", "candidate", .teacher, false, true, 1⟩]
    "org" "candidate" = .ok sampleBoth := rfl
  have hown : requireScoreCapability sampleGateReads
      ((sampleGateRequest sampleCandidate).as sampleCandidate) = .ok .own := by
    apply (score_gate_shows ..).mpr
    refine ⟨_, "attempt", sampleGateRows, rfl, rfl, rfl, sample_anchored.2,
      .inr ⟨rfl, ?_, ?_, _, rfl, rfl⟩⟩
    · rw [contextOf_holds sampleCandidate_rows]
      decide
    · rw [contextOf_holds sampleCandidate_rows]
      decide
  refine ⟨hown, fun hview => ?_⟩
  have hrows := (more_roles_open_more _ _ _ _ _ _ sampleCandidate_rows hboth
      (by simp) sampleGateReads (sampleGateRequest sampleCandidate)).2.2.2.2 hown
  obtain ⟨id, db, hid, hdb, hadmin | ⟨course, now, hreach, hnow, hactive⟩⟩ :=
    hrows.mp hview ⟨_, .tail _ (.head _), rfl, by decide⟩
  · revert hadmin
    simp [HoldsRole]
  · cases hnow
    simp [sampleGateRows, Db.hasActiveTeacherAssignment] at hactive

/-! ## What is denied looks missing -/

/-- Every row of the organization has its parents there, too, and its attempts name its profiles. -/
structure Db.Tidy (db : Db) (organizationId : String) : Prop where
  anchored : ∀ n, db.owner n = some organizationId → db.Anchored organizationId n
  profiles : ∀ id p, db.owner (.attempt id) = some organizationId → db.attemptProfile id = some p →
    p.organizationId = organizationId

structure Answering (reads : Reads) (organizationId : String) : Prop where
  answers : ∀ q, ∃ db, reads q = some db
  tidy : ∀ db, reads .chain = some db → db.Tidy organizationId

/-- An assignment to an exam is only asked for where the resource has one. -/
def ScopedRoute.WellDeclared (route : ScopedRoute) : Prop :=
  (nodeOf route.resolverKey).isSome ∧ (route.proctorAccess ∨ route.graderAccess →
    route.resolverKey ∈ [.attempt, .exam, .incident])

def PassedOrMissing {α : Type} (x : Except Denial α) : Prop := (∃ a, x = .ok a) ∨
    x = .error .resourceNotFound

theorem passed {α : Type} (a : α) : PassedOrMissing (.ok a) := .inl ⟨a, rfl⟩

theorem PassedOrMissing.bind {α β : Type} {x : Except Denial α} {f : α → Except Denial β}
    (hx : PassedOrMissing x) (hf : ∀ a, x = .ok a → PassedOrMissing (f a)) :
    PassedOrMissing (x >>= f) := by
  rcases hx with ⟨a, rfl⟩ | rfl
  · exact hf a rfl
  · exact .inr rfl

theorem passed_require (c : Prop) [Decidable c] : PassedOrMissing (require c .resourceNotFound) := by
  unfold require
  split
  · exact passed ()
  · exact .inr rfl

theorem Verdict.passedOrMissing {α : Type} {found allowed : Prop} {good : α → Prop}
    {x : Except Denial α} (h : Verdict found allowed good x) (hfound : found → allowed) :
    PassedOrMissing x := by
  cases h with
  | resolved ha hr => exact passed _
  | forbidden hf ha => exact absurd (hfound hf) ha
  | missing hf ha => exact .inr rfl

theorem assignmentScoped_passedOrMissing {declared : Bool}
    {resolvedId : ResolvedScope → Option String} {resolution : ResolvedScope} {lookup : Option Db}
    {active : Db → String → String → String → Bool} {now : Db} (hnow : lookup = some now)
    (hid : declared = true → ∃ id, resolvedId resolution = some id ∧ id ≠ "") :
    PassedOrMissing (assignmentScoped declared
      (if declared then some fun ctx id => lookup.map fun now => active now ctx.organizationId id
          ctx.actorId else none)
      resolvedId ctx resolution) := by
  unfold assignmentScoped
  cases declared with
  | false => exact passed ()
  | true =>
    obtain ⟨id, hid, hne⟩ := hid rfl
    have hkeep : (some id).filter (fun i : String => decide (i ≠ "")) = some id := by simp [hne]
    simp only [if_true, orThrow_some, ok_bind, hid, hkeep, hnow, Option.map_some]
    split
    · exact passed ()
    · exact passed_require _

theorem reaches_some_exam {type : ResourceType} {node : String → Node}
    (hn : nodeOf type = some node) (htype : type ∈ [.attempt, .exam, .incident])
    (h : db.Anchored organizationId (node id)) : ∃ e, db.Reaches (node id) (.exam e) := by
  simp only [List.mem_cons, List.not_mem_nil, or_false] at htype
  rcases htype with rfl | rfl | rfl <;> cases hn
  · obtain ⟨-, a, ha, -⟩ := anchored_attempt.mp h
    exact ⟨a.examId, .single (by simp [Db.Parent, Db.parent, (Option.filter_eq_some_iff.mp ha).1])⟩
  · exact ⟨id, .refl⟩
  · obtain ⟨-, i, hi, -⟩ := anchored_incident.mp h
    exact ⟨i.examId, .single (by simp [Db.Parent, Db.parent, (Option.filter_eq_some_iff.mp hi).1])⟩

theorem exam_reaches_course {m : Node} {e : String} (ha : db.Anchored organizationId m)
    (hm : db.Reaches m (.exam e)) :
    ∃ c, db.Reaches m (.course c) := by
  have hexam : db.Anchored organizationId (.exam e) := fun k hk => ha k (hm.trans hk)
  obtain ⟨-, row, hrow, -⟩ := anchored_exam.mp hexam
  exact ⟨row.courseId, hm.tail (by simp [Db.Parent, Db.parent, (Option.filter_eq_some_iff.mp hrow).1])⟩

theorem reaches_some_course {type : ResourceType} {node : String → Node} (hn : nodeOf type = some node)
    (h : db.Anchored organizationId (node id)) : ∃ c, db.Reaches (node id) (.course c) := by
  by_cases htype : type ∈ [.attempt, .exam, .incident]
  · obtain ⟨e, he⟩ := reaches_some_exam hn htype h
    exact exam_reaches_course h he
  · cases type <;> cases hn <;> simp at htype
    · exact ⟨id, .refl⟩
    · obtain ⟨-, q, hq, -⟩ := anchored_question.mp h
      exact ⟨q.courseId, .single (by simp [Db.Parent, Db.parent, (Option.filter_eq_some_iff.mp hq).1])⟩

theorem scoped_passedOrMissing (hreads : Answering reads ctx.organizationId)
    (hdeclared : route.WellDeclared) (hreq : request.ctx = some ctx)
    (hcap : route.permission ∈ ctx.capabilities)
    (hid : request.resourceId route.resourceIdSource route.resourceIdKey = some id) :
    PassedOrMissing (requireScopedCapability route reads request) := by
  obtain ⟨node, hnode⟩ := Option.isSome_iff_exists.mp hdeclared.1
  obtain ⟨resolver, hresolver⟩ :=
    Option.isSome_iff_exists.mp (nodeOf_isSome.symm.trans (Option.isSome_of_eq_some hnode))
  obtain ⟨db, hdb⟩ := hreads.answers .chain
  have hallowed : ctxAllows ctx route.permission = true := by simpa [ctxAllows] using hcap
  simp only [requireScopedCapability, buildScopedCapabilityPreHandler, hreq, orThrow_some, ok_bind,
    require_true hallowed, hresolver, Option.map_some, hid, hdb]
  have hv := resolver_verdict db id hresolver hnode ctx.resolver
  apply (hv.passedOrMissing ((hreads.tidy db hdb).anchored _)).bind
  intro r hr
  rw [hr] at hv
  cases hv with
  | resolved ha hres =>
    have hexam : route.proctorAccess = true ∨ route.graderAccess = true →
        ∃ e, resolvedExamId r = some e ∧ e ≠ "" := by
      intro hany
      obtain ⟨e, he⟩ := reaches_some_exam hnode (hdeclared.2 hany) ha
      exact ⟨e, (hres.exam e).mpr he, (ha _ he).1⟩
    have hcourse : ∃ c, resolvedCourseId r = some c ∧ c ≠ "" := by
      obtain ⟨c, hc⟩ := reaches_some_course hnode ha
      exact ⟨c, (hres.course c).mpr hc, (ha _ hc).1⟩
    obtain ⟨proctors, hproctors⟩ := hreads.answers .proctor
    obtain ⟨teachers, hteachers⟩ := hreads.answers .teacher
    obtain ⟨graders, hgraders⟩ := hreads.answers .grader
    apply (assignmentScoped_passedOrMissing hproctors fun h => hexam (.inl h)).bind
    rintro - -
    apply (assignmentScoped_passedOrMissing hteachers fun _ => hcourse).bind
    rintro - -
    exact assignmentScoped_passedOrMissing hgraders fun h => hexam (.inr h)

theorem own_passedOrMissing (hreads : Answering reads ctx.organizationId)
    (hreq : request.ctx = some ctx) {permission : PermissionKey}
    (hcap : permission ∈ ctx.capabilities) {key : String}
    (hid : request.resourceId .params key = some id) :
    PassedOrMissing (requireOwnAttempt permission key reads request) := by
  obtain ⟨db, hdb⟩ := hreads.answers .chain
  have htidy := hreads.tidy db hdb
  have hallowed : ctxAllows ctx permission = true := by simpa [ctxAllows] using hcap
  simp only [requireOwnAttempt, hreq, orThrow_some, ok_bind, hid, hdb, require_true hallowed]
  apply ((ownAttempt_verdict db id ctx.resolver).passedOrMissing
    fun ho => ⟨htidy.anchored _ ho, fun p hp => htidy.profiles _ p ho hp⟩).bind
  intro r _
  exact passed_require _

theorem eligibility_passedOrMissing (hreads : Answering reads ctx.organizationId)
    (hreq : request.ctx = some ctx) {permission : PermissionKey}
    (hcap : permission ∈ ctx.capabilities) {key : String}
    (hid : request.resourceId .params key = some id) :
    PassedOrMissing (requireExamEligibility permission key .resourceNotFound reads request) := by
  obtain ⟨db, hdb⟩ := hreads.answers .chain
  have hallowed : ctxAllows ctx permission = true := by simpa [ctxAllows] using hcap
  simp only [requireExamEligibility, hreq, orThrow_some, ok_bind, hid, hdb, require_true hallowed]
  apply ((eligibility_verdict db id ctx.resolver).passedOrMissing
      ((hreads.tidy db hdb).anchored _)).bind
  intro r _
  apply (passed_require _).bind
  rintro - -
  apply (passed_require _).bind
  rintro - -
  exact passed_require _

/-- In the other mode an exam that is there is told from a missing one. -/
theorem eligibility_tells (hreq : request.ctx = some ctx) {permission : PermissionKey}
    (hcap : permission ∈ ctx.capabilities) {key : String}
    (hid : request.resourceId .params key = some id) (hdb : reads .chain = some db) :
    (requireExamEligibility permission key .permissionDenied reads request = .error .resourceNotFound ↔
      db.owner (.exam id) ≠ some ctx.organizationId) ∧
    ∀ denial, requireExamEligibility permission key .permissionDenied reads request = .error denial →
      denial = .resourceNotFound ∨ denial = .permissionDenied := by
  have hallowed : ctxAllows ctx permission = true := by simpa [ctxAllows] using hcap
  simp only [requireExamEligibility, hreq, orThrow_some, ok_bind, hid, hdb, require_true hallowed]
  have hv := eligibility_verdict db id ctx.resolver
  -- past the resolver the gate only passes or forbids
  have hforbids : ∀ (c c' c'' : Prop) [Decidable c] [Decidable c'] [Decidable c''] (denial : Denial),
      (do require c EligibilityDenialMode.permissionDenied.denial
          require c' EligibilityDenialMode.permissionDenied.denial
          require c'' EligibilityDenialMode.permissionDenied.denial : Except Denial Unit) =
            .error denial →
        denial = .permissionDenied := by
    intro c c' c'' _ _ _ denial h
    unfold require EligibilityDenialMode.denial at h
    by_cases hc : c
    · by_cases hc' : c'
      · by_cases hc'' : c''
        · simp [hc, hc', hc''] at h
        · simpa [hc, hc', hc'', eq_comm] using h
      · simpa [hc, hc', eq_comm] using h
    · simpa [hc, eq_comm] using h
  generalize (resolveExamEligibilityScope ctx.resolver id (some db)).mapError DenyReason.denial =
    verdict at hv ⊢
  cases hv with
  | resolved ha _ =>
    refine ⟨⟨fun h => ?_, fun hno => absurd (ha _ .refl).2 hno⟩,
      fun denial h => .inr (hforbids _ _ _ denial h)⟩
    cases hforbids _ _ _ _ h
  | forbidden hf _ =>
    refine ⟨⟨fun h => ?_, fun hno => absurd hf hno⟩, fun denial h => ?_⟩
    · cases h
    · cases h
      exact .inr rfl
  | missing hf _ =>
    refine ⟨⟨fun _ => hf, fun _ => rfl⟩, fun denial h => ?_⟩
    cases h
    exact .inl rfl

theorem score_passedOrMissing (hreads : Answering reads ctx.organizationId)
    (hreq : request.ctx = some ctx)
    (hcap : .scoreAllView ∈ ctx.capabilities ∨ .scoreOwnView ∈ ctx.capabilities)
    (hid : request.resourceId .params "attemptId" = some id) :
    PassedOrMissing (requireScoreCapability reads request) := by
  obtain ⟨db, hdb⟩ := hreads.answers .chain
  obtain ⟨teachers, hteachers⟩ := hreads.answers .teacher
  simp only [requireScoreCapability, hreq, orThrow_some, ok_bind, hid, hdb]
  have hv := score_verdict db id ctx.resolver
  apply (hv.passedOrMissing ((hreads.tidy db hdb).anchored _)).bind
  intro r hr
  rw [hr] at hv
  cases hv with
  | resolved ha hgood =>
    obtain ⟨c, hc⟩ := attempt_course ha
    obtain ⟨courseNode, hnode, -⟩ := course_node hgood.2.1 hgood.1 hc
    split
    · split
      · exact passed _
      · simp only [hnode, orThrow_some, ok_bind, teacherAssignmentGate, hteachers, Option.map_some]
        apply (passed_require _).bind
        rintro - -
        exact passed _
    · rename_i hall
      have hown : ctxAllows ctx .scoreOwnView = true := by
        rcases hcap with hcap | hcap
        · exact absurd (by simpa [ctxAllows] using hcap) hall
        · simpa [ctxAllows] using hcap
      rw [if_pos hown]
      apply (passed_require _).bind
      rintro - -
      exact passed _

/-- To an actor with the capability, what a gate denies looks like a resource that does not
exist: where the queries answer and the rows are tidy, there is no other denial. The one
exception is the eligibility gate in the mode of a start, which tells an exam that is there
from a missing one. -/
theorem denied_looks_missing (reads : Reads) (ctx : RuntimeRequestContext)
    (hreads : Answering reads ctx.organizationId) (request : GateRequest)
    (hreq : request.ctx = some ctx) :
    (∀ route : ScopedRoute, route.WellDeclared → route.permission ∈ ctx.capabilities →
      ∀ id, request.resourceId route.resourceIdSource route.resourceIdKey = some id →
        PassedOrMissing (requireScopedCapability route reads request)) ∧
    (∀ permission ∈ ctx.capabilities, ∀ key id, request.resourceId .params key = some id →
      PassedOrMissing (requireOwnAttempt permission key reads request) ∧
      PassedOrMissing (requireExamEligibility permission key .resourceNotFound reads request) ∧
      ∀ db, reads .chain = some db →
        (requireExamEligibility permission key .permissionDenied reads request =
            .error .resourceNotFound ↔
          db.owner (.exam id) ≠ some ctx.organizationId) ∧
        ∀ denial, requireExamEligibility permission key .permissionDenied reads request =
          .error denial → denial = .resourceNotFound ∨ denial = .permissionDenied) ∧
    (.scoreAllView ∈ ctx.capabilities ∨ .scoreOwnView ∈ ctx.capabilities →
      ∀ id, request.resourceId .params "attemptId" = some id →
      PassedOrMissing (requireScoreCapability reads request)) := by
  refine ⟨fun route hdeclared hcap id hid => scoped_passedOrMissing hreads hdeclared hreq hcap hid,
    fun permission hcap key id hid => ?_,
    fun hcap id hid => score_passedOrMissing hreads hreq hcap hid⟩
  exact ⟨own_passedOrMissing hreads hreq hcap hid, eligibility_passedOrMissing hreads hreq hcap hid,
    fun db hdb => eligibility_tells hreq hcap hid hdb⟩

theorem sample_answering : Answering sampleGateReads "org" where
  answers := fun _ => ⟨_, rfl⟩
  tidy := by
    rintro _ ⟨⟩
    have hcourse : sampleGateRows.Anchored "org" (.course "course") :=
      anchored_course.mpr ⟨by decide, ⟨_, rfl⟩, by decide⟩
    obtain ⟨hexam, hattempt⟩ := sample_anchored
    constructor
    · intro n ho
      cases n with
      | organization i =>
        have hi : i = "org" := by
          by_cases hi : i = "org" <;> simp [Db.owner, sampleGateRows, hi] at ho ⊢
        exact anchored_organization.mpr ⟨hi, by simp [hi, sampleGateRows]⟩
      | course i =>
        obtain ⟨x, hx, -⟩ := Option.map_eq_some_iff.mp ho
        obtain ⟨hmem, rfl⟩ := Table.get_eq_some.mp hx
        cases List.mem_singleton.mp hmem
        exact hcourse
      | exam i =>
        obtain ⟨x, hx, -⟩ := Option.map_eq_some_iff.mp ho
        obtain ⟨hmem, rfl⟩ := Table.get_eq_some.mp hx
        cases List.mem_singleton.mp hmem
        exact hexam
      | attempt i =>
        obtain ⟨x, hx, -⟩ := Option.map_eq_some_iff.mp ho
        obtain ⟨hmem, rfl⟩ := Table.get_eq_some.mp hx
        cases List.mem_singleton.mp hmem
        exact hattempt
      | question i => cases ho
      | incident i => cases ho
    · intro i p _ hp
      obtain ⟨a, -, hp⟩ := Option.bind_eq_some_iff.mp hp
      cases List.mem_singleton.mp (Table.mem_of_get hp)
      rfl

theorem denied_looks_missing_sample :
    PassedOrMissing (requireOwnAttempt .attemptSubmit "attemptId" sampleGateReads
        (sampleGateRequest sampleCandidate)) := by
  have hcap : PermissionKey.attemptSubmit ∈ sampleCandidate.capabilities := by
    rw [contextOf_holds sampleCandidate_rows]
    decide
  exact ((denied_looks_missing sampleGateReads sampleCandidate sample_answering _ rfl).2.1 _ hcap _
      "attempt" rfl).1
end

end ExamSystem.Authz
