import ExamSystem.ResolverSound

/-!
# Who passes a gate

A gate passes exactly the requests whose actor holds the capability and whose
resource is anchored in the actor's organization and assigned to, owned by or
open to the actor.
-/

namespace ExamSystem.Authz

open Tx Accounts

variable {ctx : RuntimeRequestContext} {reads : Reads} {request : GateRequest} {n : Node} {db : Db}
    {id : String}

/-! ## One verdict after another -/

theorem Verdict.ok_iff {α : Type} {found allowed : Prop} {good : α → Prop} {x : Except Denial α}
    (h : Verdict found allowed good x) :
    allowed ↔ ∃ r, x = .ok r ∧ good r := by
  cases h with
  | resolved ha hr => exact ⟨fun _ => ⟨_, rfl, hr⟩, fun _ => ha⟩
  | forbidden hf ha => simp [ha]
  | missing hf ha => simp [ha]

/-- What a block of assignments demands: an Admin, or an active episode at what the resource reaches. -/
def Covered (ctx : RuntimeRequestContext) (db : Db) (n : Node) (kind : String → Node)
    (lookup : Option Db) (active : Db → String → String → String → Bool) : Prop :=
  .admin ∈ ctx.roles ∨ ∃ id now, db.Reaches n (kind id) ∧ lookup = some now ∧
    active now ctx.organizationId id ctx.actorId = true

theorem reached_named (h : db.Anchored ctx.organizationId n) {m : Node} (hm : db.Reaches n m) :
    m.Named := (h m hm).1

theorem assignmentScoped_ok {declared : Bool} {resolvedId : ResolvedScope → Option String}
    {resolution : ResolvedScope} {kind : String → Node} {lookup : Option Db}
    {active : Db → String → String → String → Bool}
    (hid : ∀ id, resolvedId resolution = some id ↔ db.Reaches n (kind id))
    (hnamed : ∀ id, db.Reaches n (kind id) → id ≠ "") {u : Unit} :
    assignmentScoped declared
      (if declared then some fun ctx id => lookup.map fun now => active now ctx.organizationId id
        ctx.actorId else none)
        resolvedId ctx resolution = .ok u ↔
      (declared = true → Covered ctx db n kind lookup active) := by
  unfold assignmentScoped Covered
  cases declared with
  | false => simp [pure_eq_ok]
  | true =>
    simp only [if_true, orThrow_some, ok_bind, true_implies]
    by_cases hadmin : AssignableRole.admin ∈ ctx.roles
    · simp [hadmin, pure_eq_ok]
    · rw [if_neg hadmin, or_iff_right hadmin]
      simp only [bind_eq_ok, orThrow_eq_ok, require_eq_ok, Option.filter_eq_some_iff,
        Option.map_eq_some_iff, hid]
      constructor
      · rintro ⟨id, ⟨hreach, -⟩, assigned, ⟨now, hnow, rfl⟩, hactive⟩
        exact ⟨id, now, hreach, hnow, hactive⟩
      · rintro ⟨id, now, hreach, hnow, hactive⟩
        exact ⟨id, ⟨hreach, by simpa using hnamed id hreach⟩, _, ⟨now, hnow, rfl⟩, hactive⟩

/-! ## The scoped gate -/

def ScopedRoute.resource (route : ScopedRoute) (request : GateRequest) : Option Node := do
  let node ← nodeOf route.resolverKey
  let id ← request.resourceId route.resourceIdSource route.resourceIdKey
  pure (node id)

structure ScopedRoute.Covers (route : ScopedRoute) (reads : Reads) (ctx : RuntimeRequestContext)
    (db : Db) (n : Node) : Prop where
  proctor : route.proctorAccess = true →
    Covered ctx db n .exam (reads .proctor) Db.hasActiveProctorAssignment
  teacher : route.teacherAccess = true →
    Covered ctx db n .course (reads .teacher) Db.hasActiveTeacherAssignment
  grader : route.graderAccess = true →
    Covered ctx db n .exam (reads .grader) Db.hasActiveGraderAssignment

theorem assignments_ok {route : ScopedRoute} {r : ResolvedScope}
    (h : db.Anchored ctx.organizationId n) (hr : Resolves db n r) :
    (do assignmentScoped route.proctorAccess
          (if route.proctorAccess then some (proctorAssignmentGate reads)
          else none) resolvedExamId ctx r
        assignmentScoped route.teacherAccess
          (if route.teacherAccess then some (teacherAssignmentGate reads)
          else none) resolvedCourseId ctx r
        assignmentScoped route.graderAccess
          (if route.graderAccess then some (graderAssignmentGate reads)
          else none) resolvedExamId ctx r) =
      .ok () ↔ route.Covers reads ctx db n := by
  have hexam : ∀ e, db.Reaches n (.exam e) → e ≠ "" := fun e he => reached_named h he
  have hcourse : ∀ c, db.Reaches n (.course c) → c ≠ "" := fun c hc => reached_named h hc
  simp only [bind_eq_ok]
  constructor
  · rintro ⟨_, hp, _, ht, hg⟩
    exact ⟨(assignmentScoped_ok hr.exam hexam).mp hp, (assignmentScoped_ok hr.course hcourse).mp ht,
      (assignmentScoped_ok hr.exam hexam).mp hg⟩
  · rintro ⟨hp, ht, hg⟩
    exact ⟨(), (assignmentScoped_ok hr.exam hexam).mpr hp, (),
      (assignmentScoped_ok hr.course hcourse).mpr ht,
      (assignmentScoped_ok hr.exam hexam).mpr hg⟩

theorem resolver_unavailable {type : ResourceType} {resolver : ScopeResolver}
    (hr : resolvers type = some resolver) (ctx : ResolverContext) :
    (resolver ctx id none).mapError DenyReason.denial = .error .authzUnavailable := by
  cases type <;> cases hr <;> rfl

theorem resource_eq_some {route : ScopedRoute} : route.resource request = some n ↔
    ∃ node, nodeOf route.resolverKey = some node ∧
      ∃ id, request.resourceId route.resourceIdSource route.resourceIdKey = some id ∧ node id = n := by
  simp [ScopedRoute.resource, Option.bind_eq_some_iff]

/-- The scoped gate passes a request exactly when its actor holds the capability, its
resource is anchored in the actor's organization, and every assignment that the route
declares is covered: no read that a verdict needs may fail. -/
theorem scoped_gate_passes (route : ScopedRoute) (reads : Reads) (request : GateRequest) :
    requireScopedCapability route reads request = .ok () ↔
      ∃ ctx n db, request.ctx = some ctx ∧ route.permission ∈ ctx.capabilities ∧
        route.resource request = some n ∧
        reads .chain = some db ∧ db.Anchored ctx.organizationId n ∧ route.Covers reads ctx db n := by
  simp only [requireScopedCapability, buildScopedCapabilityPreHandler,
    bind_eq_ok (x := orThrow _ _), bind_eq_ok (x := require _ _),
    orThrow_eq_ok, require_eq_ok, Option.map_eq_some_iff, resource_eq_some, ctxAllows,
    decide_eq_true_eq]
  constructor
  · rintro ⟨ctx, hctx, -, hcap, _, ⟨resolver, hresolver, rfl⟩, id, hid, h⟩
    obtain ⟨node, hnode⟩ :=
      Option.isSome_iff_exists.mp (nodeOf_isSome.trans (Option.isSome_of_eq_some hresolver))
    cases hdb : reads .chain with
    | none =>
      rw [hdb, resolver_unavailable hresolver] at h
      cases h
    | some db =>
      rw [hdb] at h
      have hv := resolver_verdict db id hresolver hnode ctx.resolver
      obtain ⟨r, hr, hassigned⟩ := (bind_eq_ok ..).mp h
      rw [hr] at hv
      cases hv with
      | resolved ha hres => exact ⟨ctx, node id, db, hctx, hcap, ⟨node, hnode, id, hid, rfl⟩, rfl,
            ha, (assignments_ok ha hres).mp hassigned⟩
  · rintro ⟨ctx, _, db, hctx, hcap, ⟨node, hnode, id, hid, rfl⟩, hdb, ha, hcovers⟩
    obtain ⟨resolver, hresolver⟩ :=
      Option.isSome_iff_exists.mp (nodeOf_isSome.symm.trans (Option.isSome_of_eq_some hnode))
    refine ⟨ctx, hctx, (), hcap, _, ⟨resolver, hresolver, rfl⟩, id, hid, ?_⟩
    obtain ⟨r, hr, hres⟩ := (resolver_verdict db id hresolver hnode ctx.resolver).ok_iff.mp ha
    rw [hdb, hr, ok_bind]
    exact (assignments_ok ha hres).mpr hcovers

/-! ## The gates of a candidate -/

theorem own_unavailable (ctx : ResolverContext) :
    (resolveOwnAttemptScope ctx id none).mapError DenyReason.denial = .error .authzUnavailable := rfl

theorem score_unavailable (ctx : ResolverContext) :
    (resolveScoreScope ctx id none).mapError DenyReason.denial = .error .authzUnavailable := rfl

theorem eligibility_unavailable (ctx : ResolverContext) :
    (resolveExamEligibilityScope ctx id none).mapError DenyReason.denial =
      .error .authzUnavailable := rfl

/-- The actor owns the attempt: the profile that the attempt names is its own. -/
def Db.OwnedBy (db : Db) (actorId attemptId : String) : Prop :=
  ∃ p, db.attemptProfile attemptId = some p ∧ p.userId = actorId

theorem ownedBy_iff {actorId : String} :
    db.OwnedBy actorId id ↔ (db.attemptProfile id).map (·.userId) = some actorId := by
  simp [Db.OwnedBy, Option.map_eq_some_iff]

/-- The own-attempt gate: the attempt is anchored, with its profile, and the actor's own. -/
theorem own_attempt_gate_passes (permission : PermissionKey) (key : String) (reads : Reads)
    (request : GateRequest) :
    requireOwnAttempt permission key reads request = .ok () ↔
      ∃ ctx id db, request.ctx = some ctx ∧ permission ∈ ctx.capabilities ∧
        request.resourceId .params key = some id ∧
        reads .chain = some db ∧ db.Anchored ctx.organizationId (.attempt id) ∧
        ∃ p, db.attemptProfile id = some p ∧ p.organizationId = ctx.organizationId ∧
        p.userId = ctx.actorId := by
  simp only [requireOwnAttempt, bind_eq_ok (x := orThrow _ _), orThrow_eq_ok]
  constructor
  · rintro ⟨ctx, hctx, id, hid, h⟩
    cases hdb : reads .chain with
    | none =>
      rw [hdb, own_unavailable] at h
      cases h
    | some db =>
      rw [hdb] at h
      obtain ⟨r, hr, h⟩ := (bind_eq_ok ..).mp h
      have hv := ownAttempt_verdict db id ctx.resolver
      rw [hr] at hv
      simp only [bind_eq_ok, require_eq_ok, ctxAllows, decide_eq_true_eq] at h
      obtain ⟨-, hcap, hown⟩ := h
      cases hv with
      | resolved ha hgood =>
        rw [hgood, Option.map_eq_some_iff] at hown
        obtain ⟨p, hp, huser⟩ := hown
        exact ⟨ctx, id, db, hctx, hcap, hid, rfl, ha.1, p, hp, ha.2 p hp, huser⟩
  · rintro ⟨ctx, id, db, hctx, hcap, hid, hdb, ha, p, hp, horg, huser⟩
    refine ⟨ctx, hctx, id, hid, ?_⟩
    have hall : ∀ q, db.attemptProfile id = some q →
        q.organizationId = ctx.resolver.organizationId := by
      intro q hq
      rw [hp] at hq
      cases hq
      exact horg
    obtain ⟨r, hr, hgood⟩ := (ownAttempt_verdict db id ctx.resolver).ok_iff.mp ⟨ha, hall⟩
    have hown : r.ownerUserId = some ctx.actorId := by rw [hgood, hp, Option.map_some, huser]
    rw [hdb, hr, ok_bind, require_true (by simpa [ctxAllows] using hcap), ok_bind, require_true hown]

/-- The eligibility gate: the exam is anchored and the actor's profile is enrolled in it. -/
theorem exam_eligibility_gate_passes (permission : PermissionKey) (key : String)
    (mode : EligibilityDenialMode) (reads : Reads) (request : GateRequest) :
    requireExamEligibility permission key mode reads request = .ok () ↔
      ∃ ctx id db, request.ctx = some ctx ∧ permission ∈ ctx.capabilities ∧
        request.resourceId .params key = some id ∧
        reads .chain = some db ∧ db.Anchored ctx.organizationId (.exam id) ∧
        ∃ p e, db.findProfile ctx.organizationId ctx.actorId = some p ∧
        db.findEnrollment ctx.organizationId id p.id = some e := by
  simp only [requireExamEligibility, bind_eq_ok (x := orThrow _ _), orThrow_eq_ok]
  constructor
  · rintro ⟨ctx, hctx, id, hid, h⟩
    cases hdb : reads .chain with
    | none =>
      rw [hdb, eligibility_unavailable] at h
      cases h
    | some db =>
      rw [hdb] at h
      obtain ⟨r, hr, h⟩ := (bind_eq_ok ..).mp h
      have hv := eligibility_verdict db id ctx.resolver
      rw [hr] at hv
      simp only [bind_eq_ok, require_eq_ok, ctxAllows, decide_eq_true_eq] at h
      obtain ⟨-, hcap, -, hprofile, -, -, henrolled⟩ := h
      cases hv with
      | resolved ha hgood =>
        rw [hgood] at hprofile henrolled
        simp only [Option.isSome_map] at hprofile henrolled
        obtain ⟨p, hp⟩ := Option.isSome_iff_exists.mp hprofile
        rw [hp, Option.bind_some] at henrolled
        obtain ⟨e, he⟩ := Option.isSome_iff_exists.mp henrolled
        exact ⟨ctx, id, db, hctx, hcap, hid, rfl, ha, p, e, hp, he⟩
  · rintro ⟨ctx, id, db, hctx, hcap, hid, hdb, ha, p, e, hp, he⟩
    refine ⟨ctx, hctx, id, hid, ?_⟩
    obtain ⟨r, hr, hgood⟩ := (eligibility_verdict db id ctx.resolver).ok_iff.mp ha
    have huser : p.userId = ctx.actorId := by
      have hq := List.find?_some hp
      simp only [decide_eq_true_eq] at hq
      exact hq.2
    rw [hdb, hr, ok_bind, require_true (by simpa [ctxAllows] using hcap), hgood]
    simp [RuntimeRequestContext.resolver, hp, he, huser, require]

theorem attempt_course (h : db.Anchored ctx.organizationId (.attempt id)) :
    ∃ c, db.Reaches (.attempt id) (.course c) := by
  obtain ⟨-, a, ha, hexam⟩ := anchored_attempt.mp h
  obtain ⟨-, e, he, -⟩ := anchored_exam.mp hexam
  refine ⟨e.courseId,
    reaches_iff.mpr (.inr ⟨.exam a.examId, ?_,
        reaches_iff.mpr (.inr ⟨.course e.courseId, ?_, .refl⟩)⟩)⟩
  · simp [Db.parent, (Option.filter_eq_some_iff.mp ha).1]
  · simp [Db.parent, (Option.filter_eq_some_iff.mp he).1]

theorem course_node {r : ResolvedScope} (hscope : r.scope = .ownScore) (hr : Resolves db n r)
    {c : String} (hc : db.Reaches n (.course c)) :
    ∃ node, r.chain.find? (·.1 = .course) = some node ∧ node.2 = c := by
  have hc := (hr.course c).mpr hc
  unfold resolvedCourseId resolvedNode at hc
  cases hf : r.chain.find? (·.1 = .course) with
  | none => simp [hf, hscope] at hc
  | some node =>
    refine ⟨node, rfl, ?_⟩
    by_cases hid : node.2 = ""
    · simp [hf, hid, hscope, Option.filter] at hc
    · simpa [hf, hid, Option.filter] using hc

/-- What the score gate asks of who holds the view of every score. -/
theorem all_view_ok {r : ResolvedScope} (h : db.Anchored ctx.organizationId (.attempt id))
    (hscope : r.scope = .ownScore) (hr : Resolves db (.attempt id) r) {view : ScoreView} :
    (if .admin ∈ ctx.roles then pure .all else do
      let courseNode ← orThrow (r.chain.find? (·.1 = .course)) .authzUnavailable
      let assigned ← orThrow (teacherAssignmentGate reads ctx courseNode.2) .authzUnavailable
      require assigned .resourceNotFound
      pure .all : Except Denial ScoreView) = .ok view ↔
    view = .all ∧ Covered ctx db (.attempt id) .course
      (reads .teacher) Db.hasActiveTeacherAssignment := by
  unfold Covered
  by_cases hadmin : AssignableRole.admin ∈ ctx.roles
  · rw [if_pos hadmin, pure_eq_ok]
    simp only [hadmin, true_or, and_true]
    exact eq_comm
  · obtain ⟨c, hc⟩ := attempt_course h
    obtain ⟨node, hfind, rfl⟩ := course_node hscope hr hc
    rw [if_neg hadmin, or_iff_right hadmin, hfind]
    simp only [orThrow_some, ok_bind, bind_eq_ok, orThrow_eq_ok, require_eq_ok, pure_eq_ok,
      teacherAssignmentGate, Option.map_eq_some_iff]
    constructor
    · rintro ⟨assigned, ⟨now, hnow, rfl⟩, -, hactive, rfl⟩
      exact ⟨rfl, node.2, now, hc, hnow, hactive⟩
    · rintro ⟨rfl, c', now, hc', hnow, hactive⟩
      have hsame : node.2 = c' := by
        have h₁ := (hr.course node.2).mpr hc
        rw [(hr.course c').mpr hc'] at h₁
        exact (Option.some_inj.mp h₁).symm
      exact ⟨_, ⟨now, hnow, rfl⟩, (), hsame ▸ hactive, rfl⟩

/-- Every score or its own, by the capabilities of the actor. -/
theorem view_ok {r : OwnedScope} (h : db.Anchored ctx.organizationId (.attempt id))
    (hscope : r.scope = .ownScore) (hr : Resolves db (.attempt id) r.toResolvedScope)
    (howner : r.ownerUserId = (db.attemptProfile id).map (·.userId)) {view : ScoreView} :
    (if ctxAllows ctx .scoreAllView then
        if .admin ∈ ctx.roles then pure .all else do
          let courseNode ← orThrow (r.chain.find? (·.1 = .course)) .authzUnavailable
          let assigned ← orThrow (teacherAssignmentGate reads ctx courseNode.2) .authzUnavailable
          require assigned .resourceNotFound
          pure .all
      else if ctxAllows ctx .scoreOwnView then do
        require (r.ownerUserId = some ctx.actorId) .resourceNotFound
        pure .own
      else .error .permissionDenied : Except Denial ScoreView) = .ok view ↔
    (view = .all ∧ .scoreAllView ∈ ctx.capabilities ∧
        Covered ctx db (.attempt id) .course (reads .teacher) Db.hasActiveTeacherAssignment) ∨
      (view = .own ∧ .scoreAllView ∉ ctx.capabilities ∧ .scoreOwnView ∈ ctx.capabilities ∧
        db.OwnedBy ctx.actorId id) := by
  unfold ctxAllows
  simp only [decide_eq_true_eq]
  by_cases hall : PermissionKey.scoreAllView ∈ ctx.capabilities
  · rw [if_pos hall, all_view_ok h hscope hr]
    simp [hall]
  · rw [if_neg hall, howner, ownedBy_iff]
    by_cases hown : PermissionKey.scoreOwnView ∈ ctx.capabilities
    · rw [if_pos hown]
      simp only [bind_eq_ok, require_eq_ok, pure_eq_ok, hall, hown, false_and, and_false, false_or,
        not_false_iff, true_and]
      constructor
      · rintro ⟨-, hmine, rfl⟩
        exact ⟨rfl, hmine⟩
      · rintro ⟨rfl, hmine⟩
        exact ⟨(), hmine, rfl⟩
    · simp [hall, hown]

/-- What the score gate shows: every score to an Admin and to who is assigned to the course
of the attempt, its own score to a candidate. Who holds the first capability is never shown
its own score under the second. -/
theorem score_gate_shows (reads : Reads) (request : GateRequest) (view : ScoreView) :
    requireScoreCapability reads request = .ok view ↔
      ∃ ctx id db, request.ctx = some ctx ∧ request.resourceId .params "attemptId" = some id ∧
        reads .chain = some db ∧ db.Anchored ctx.organizationId (.attempt id) ∧
        ((view = .all ∧ .scoreAllView ∈ ctx.capabilities ∧
            Covered ctx db (.attempt id) .course (reads .teacher) Db.hasActiveTeacherAssignment) ∨
          (view = .own ∧ .scoreAllView ∉ ctx.capabilities ∧ .scoreOwnView ∈ ctx.capabilities ∧
            db.OwnedBy ctx.actorId id)) := by
  simp only [requireScoreCapability, bind_eq_ok (x := orThrow _ _), orThrow_eq_ok]
  constructor
  · rintro ⟨ctx, hctx, id, hid, h⟩
    cases hdb : reads .chain with
    | none =>
      rw [hdb, score_unavailable] at h
      cases h
    | some db =>
      rw [hdb] at h
      obtain ⟨r, hr, h⟩ := (bind_eq_ok ..).mp h
      have hv := score_verdict db id ctx.resolver
      rw [hr] at hv
      cases hv with
      | resolved ha hgood => exact ⟨ctx, id, db, hctx, hid, rfl, ha,
          (view_ok ha hgood.2.1 hgood.1 hgood.2.2).mp h⟩
  · rintro ⟨ctx, id, db, hctx, hid, hdb, ha, hview⟩
    refine ⟨ctx, hctx, id, hid, ?_⟩
    obtain ⟨r, hr, hres, hscope, howner⟩ := (score_verdict db id ctx.resolver).ok_iff.mp ha
    rw [hdb, hr, ok_bind]
    exact (view_ok ha hscope hres howner).mpr hview

end ExamSystem.Authz
