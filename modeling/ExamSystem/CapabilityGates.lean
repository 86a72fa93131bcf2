import ExamSystem.ScopeResolvers

/-!
# The gates of the routes

A gate answers before the handler of a route: it lets the request pass, or it
denies without saying more than it must.
-/

namespace ExamSystem.Authz

open Tx Accounts

/-! ## Requests and denials -/

inductive FieldValue
  | text (s : String)
  | other
  deriving DecidableEq, Repr

structure GateRequest where
  ctx : Option RuntimeRequestContext
  params : List (String × String)
  body : List (String × FieldValue)
  deriving DecidableEq, Repr

inductive Denial
  | authRequired | permissionDenied | resourceNotFound | authzUnavailable
  deriving DecidableEq, Repr

def Denial.status : Denial → Nat
  | .authRequired => 401
  | .permissionDenied => 403
  | .resourceNotFound => 404
  | .authzUnavailable => 503

def Denial.code : Denial → String
  | .authRequired => "AUTH_REQUIRED"
  | .permissionDenied => "PERMISSION_DENIED"
  | .resourceNotFound => "RESOURCE_NOT_FOUND"
  | .authzUnavailable => "AUTHZ_UNAVAILABLE"

def DenyReason.denial : DenyReason → Denial
  | .resourceNotFound => .resourceNotFound
  | .organizationMismatch | .ownershipMismatch | .brokenParentChain => .permissionDenied
  | .resolverError => .authzUnavailable

def RuntimeRequestContext.resolver (ctx : RuntimeRequestContext) : ResolverContext :=
  ⟨ctx.actorId, ctx.organizationId⟩

def ctxAllows (ctx : RuntimeRequestContext) (permission : PermissionKey) : Bool :=
  permission ∈ ctx.capabilities

inductive ResourceIdSource
  | params | body
  deriving DecidableEq, Repr

def GateRequest.record (request : GateRequest) : ResourceIdSource → List (String × FieldValue)
  | .params => request.params.map fun param => (param.1, .text param.2)
  | .body => request.body

def GateRequest.resourceId (request : GateRequest) (source : ResourceIdSource) (key : String) :
    Option String :=
  match (request.record source).lookup key with
  | some (.text id) => if id = "" then none else some id
  | _ => none

/-! ## The scoped gate -/

def resolvedNode (type : ResourceType) (scope : Scope) (resolution : ResolvedScope) : Option String :=
  match (resolution.chain.find? (·.1 = type)).filter (·.2 ≠ "") with
  | some node => some node.2
  | none => if resolution.scope = scope then some resolution.resourceId else none

def resolvedExamId : ResolvedScope → Option String := resolvedNode .exam .exam

def resolvedCourseId : ResolvedScope → Option String := resolvedNode .course .course

/-- Whether the actor has an active assignment; `none` is a lookup that failed. -/
abbrev AssignmentGate := RuntimeRequestContext → String → Option Bool

structure ScopedCapabilityInput where
  permission : PermissionKey
  resolverKey : ResourceType
  resourceIdKey : String
  resourceIdSource : ResourceIdSource
  resolvers : ResourceType → Option (ResolverContext → String → Except DenyReason ResolvedScope)
  proctorAccess : Bool
  proctorAssignment : Option AssignmentGate
  teacherAccess : Bool
  teacherAssignment : Option AssignmentGate
  graderAccess : Bool
  graderAssignment : Option AssignmentGate

def assignmentScoped (declared : Bool) (gate : Option AssignmentGate)
    (resolvedId : ResolvedScope → Option String) (ctx : RuntimeRequestContext)
    (resolution : ResolvedScope) : Except Denial Unit :=
  if declared then do
    let check ← orThrow gate .authzUnavailable
    if .admin ∈ ctx.roles then pure () else do
      let id ← orThrow ((resolvedId resolution).filter (· ≠ "")) .authzUnavailable
      let assigned ← orThrow (check ctx id) .authzUnavailable
      require assigned .resourceNotFound
  else pure ()

def buildScopedCapabilityPreHandler (input : ScopedCapabilityInput) (request : GateRequest) :
    Except Denial Unit := do
  let ctx ← orThrow request.ctx .authRequired
  require (ctxAllows ctx input.permission) .permissionDenied
  let resolve ← orThrow (input.resolvers input.resolverKey) .authzUnavailable
  let resourceId ← orThrow (request.resourceId input.resourceIdSource input.resourceIdKey)
    .authzUnavailable
  let resolution ← (resolve ctx.resolver resourceId).mapError DenyReason.denial
  assignmentScoped input.proctorAccess input.proctorAssignment resolvedExamId ctx resolution
  assignmentScoped input.teacherAccess input.teacherAssignment resolvedCourseId ctx resolution
  assignmentScoped input.graderAccess input.graderAssignment resolvedExamId ctx resolution

/-! ## The plugin -/

inductive GateRead
  | chain | proctor | teacher | grader
  deriving DecidableEq, Repr

/-- What each query of a gate finds: the rows at its moment, or a failure. -/
abbrev Reads := GateRead → Option Db

def proctorAssignmentGate (reads : Reads) : AssignmentGate := fun ctx examId =>
  (reads .proctor).map fun db => db.hasActiveProctorAssignment ctx.organizationId examId ctx.actorId

def teacherAssignmentGate (reads : Reads) : AssignmentGate := fun ctx courseId =>
  (reads .teacher).map fun db => db.hasActiveTeacherAssignment ctx.organizationId courseId ctx.actorId

def graderAssignmentGate (reads : Reads) : AssignmentGate := fun ctx examId =>
  (reads .grader).map fun db => db.hasActiveGraderAssignment ctx.organizationId examId ctx.actorId

structure ScopedRoute where
  permission : PermissionKey
  resolverKey : ResourceType
  resourceIdKey : String
  proctorAccess : Bool := false
  teacherAccess : Bool := false
  graderAccess : Bool := false
  resourceIdSource : ResourceIdSource := .params
  deriving DecidableEq, Repr

def requireScopedCapability (route : ScopedRoute) (reads : Reads) : GateRequest → Except Denial Unit :=
  buildScopedCapabilityPreHandler
    { permission := route.permission
      resolverKey := route.resolverKey
      resourceIdKey := route.resourceIdKey
      resourceIdSource := route.resourceIdSource
      resolvers := fun key => (resolvers key).map fun resolver ctx id => resolver ctx id (reads .chain)
      proctorAccess := route.proctorAccess
      proctorAssignment := if route.proctorAccess then some (proctorAssignmentGate reads) else none
      teacherAccess := route.teacherAccess
      teacherAssignment := if route.teacherAccess then some (teacherAssignmentGate reads) else none
      graderAccess := route.graderAccess
      graderAssignment := if route.graderAccess then some (graderAssignmentGate reads) else none }

/-! ## The other gates -/

def requireCapability (permission : PermissionKey) (request : GateRequest) : Except Denial Unit := do
  let ctx ← orThrow request.ctx .authRequired
  require (ctxAllows ctx permission) .permissionDenied

def requireCandidateContext : PermissionKey → GateRequest → Except Denial Unit := requireCapability

def requireOwnAttempt (permission : PermissionKey) (resourceIdKey : String) (reads : Reads)
    (request : GateRequest) :
    Except Denial Unit := do
  let ctx ← orThrow request.ctx .authRequired
  let attemptId ← orThrow (request.resourceId .params resourceIdKey) .authzUnavailable
  let resolution ← (resolveOwnAttemptScope ctx.resolver attemptId (reads .chain)).mapError
    DenyReason.denial
  require (ctxAllows ctx permission) .permissionDenied
  require (resolution.ownerUserId = some ctx.actorId) .resourceNotFound

inductive EligibilityDenialMode
  | resourceNotFound | permissionDenied
  deriving DecidableEq, Repr

def EligibilityDenialMode.denial : EligibilityDenialMode → Denial
  | .resourceNotFound => .resourceNotFound
  | .permissionDenied => .permissionDenied

def requireExamEligibility (permission : PermissionKey) (resourceIdKey : String)
    (mode : EligibilityDenialMode) (reads : Reads) (request : GateRequest) :
    Except Denial Unit := do
  let ctx ← orThrow request.ctx .authRequired
  let examId ← orThrow (request.resourceId .params resourceIdKey) .authzUnavailable
  let resolution ← (resolveExamEligibilityScope ctx.resolver examId (reads .chain)).mapError
    DenyReason.denial
  require (ctxAllows ctx permission) .permissionDenied
  require resolution.ownership.candidateProfileId.isSome mode.denial
  require (resolution.ownership.ownerUserId = some ctx.actorId) mode.denial
  require resolution.ownership.enrollmentId.isSome mode.denial

inductive ScoreView
  | all | own
  deriving DecidableEq, Repr

/-- The view of every score goes first: who holds it is not asked whether the attempt is its own. -/
def requireScoreCapability (reads : Reads) (request : GateRequest) : Except Denial ScoreView := do
  let ctx ← orThrow request.ctx .authRequired
  let attemptId ← orThrow (request.resourceId .params "attemptId") .authzUnavailable
  let resolution ← (resolveScoreScope ctx.resolver attemptId (reads .chain)).mapError DenyReason.denial
  if ctxAllows ctx .scoreAllView then
    if .admin ∈ ctx.roles then pure .all else do
      let courseNode ← orThrow (resolution.chain.find? (·.1 = .course)) .authzUnavailable
      let assigned ← orThrow (teacherAssignmentGate reads ctx courseNode.2) .authzUnavailable
      require assigned .resourceNotFound
      pure .all
  else if ctxAllows ctx .scoreOwnView then do
    require (resolution.ownerUserId = some ctx.actorId) .resourceNotFound
    pure .own
  else .error .permissionDenied

end ExamSystem.Authz
