import ExamSystem.Capabilities
import ExamSystem.Transactions
import ExamSystem.ProctorAssignments
import Mathlib.Logic.Relation

/-!
# The resolvers of a scope

A gate reduces the resource of a request to a scope: it loads the chain of its
parents, up to the organization, and denies what does not belong together.
-/

namespace ExamSystem.Authz

open Tx

/-! ## Rows -/

structure CourseRow where
  id : String
  organizationId : String
  deriving DecidableEq, Repr

structure ExamRow where
  id : String
  organizationId : String
  courseId : String
  deriving DecidableEq, Repr

structure QuestionRow where
  id : String
  organizationId : String
  courseId : String
  deriving DecidableEq, Repr

structure AttemptRow where
  id : String
  organizationId : String
  examId : String
  candidateId : String
  deriving DecidableEq, Repr

structure IncidentRow where
  id : String
  organizationId : String
  examId : String
  deriving DecidableEq, Repr

structure CandidateProfileRow where
  id : String
  organizationId : String
  userId : String
  deriving DecidableEq, Repr

structure EnrollmentRow where
  id : String
  organizationId : String
  examId : String
  candidateId : String
  deriving DecidableEq, Repr

structure TeacherCourseAssignment where
  organizationId : String
  courseId : String
  teacherUserId : String
  status : Proctors.AssignmentStatus
  deriving DecidableEq, Repr

structure GraderExamAssignment where
  organizationId : String
  examId : String
  graderUserId : String
  status : Proctors.AssignmentStatus
  deriving DecidableEq, Repr

structure Db where
  organizations : List String
  courses : Table CourseRow.id
  exams : Table ExamRow.id
  questions : Table QuestionRow.id
  attempts : Table AttemptRow.id
  incidents : Table IncidentRow.id
  profiles : Table CandidateProfileRow.id
  profilesUnique : (profiles.rows.map fun p => (p.organizationId, p.userId)).Nodup
  enrollments : List EnrollmentRow
  enrollmentsUnique : (enrollments.map fun e => (e.organizationId, e.examId, e.candidateId)).Nodup
  proctorAssignments : List Proctors.ExamProctorAssignment
  teacherCourseAssignments : List TeacherCourseAssignment
  graderExamAssignments : List GraderExamAssignment

/-! ## Queries -/

namespace Db

structure JoinedCourse where
  courseId : Option String
  courseOrganizationId : Option String
  organizationId : Option String
  deriving DecidableEq, Repr

structure JoinedExam extends JoinedCourse where
  examId : Option String
  examOrganizationId : Option String
  linkedCourseId : Option String
  deriving DecidableEq, Repr

def joinCourse (db : Db) (linkedCourseId : Option String) : JoinedCourse :=
  let course := linkedCourseId.bind db.courses.get
  { courseId := course.map (·.id)
    courseOrganizationId := course.map (·.organizationId)
    organizationId := (course.map (·.organizationId)).filter (· ∈ db.organizations) }

def joinExam (db : Db) (linkedExamId : String) : JoinedExam :=
  let exam := db.exams.get linkedExamId
  { db.joinCourse (exam.map (·.courseId)) with
    examId := exam.map (·.id)
    examOrganizationId := exam.map (·.organizationId)
    linkedCourseId := exam.map (·.courseId) }

def findCourse (db : Db) (organizationId courseId : String) : Option CourseRow :=
  (db.courses.get courseId).filter (·.organizationId = organizationId)

def findExam (db : Db) (organizationId examId : String) : Option ExamRow :=
  (db.exams.get examId).filter (·.organizationId = organizationId)

def findQuestion (db : Db) (organizationId questionId : String) : Option QuestionRow :=
  (db.questions.get questionId).filter (·.organizationId = organizationId)

def findAttempt (db : Db) (organizationId attemptId : String) : Option AttemptRow :=
  (db.attempts.get attemptId).filter (·.organizationId = organizationId)

def findIncident (db : Db) (organizationId incidentId : String) : Option IncidentRow :=
  (db.incidents.get incidentId).filter (·.organizationId = organizationId)

def findProfile (db : Db) (organizationId userId : String) : Option CandidateProfileRow :=
  db.profiles.rows.find? fun p => p.organizationId = organizationId ∧ p.userId = userId

def findEnrollment (db : Db) (organizationId examId candidateId : String) : Option EnrollmentRow :=
  db.enrollments.find? fun e => e.organizationId = organizationId ∧ e.examId = examId ∧
    e.candidateId = candidateId

/-! ## The assignment episodes -/

def hasActiveProctorAssignment (db : Db) (organizationId examId proctorUserId : String) : Bool :=
  db.proctorAssignments.any fun a => Proctors.Db.ofPair organizationId examId proctorUserId a ∧
    a.status = .active

def hasActiveTeacherAssignment (db : Db) (organizationId courseId teacherUserId : String) : Bool :=
  db.teacherCourseAssignments.any fun a =>
    a.organizationId = organizationId ∧ a.teacherUserId = teacherUserId ∧ a.courseId = courseId ∧
      a.status = .active

def hasActiveGraderAssignment (db : Db) (organizationId examId graderUserId : String) : Bool :=
  db.graderExamAssignments.any fun a =>
    a.organizationId = organizationId ∧ a.graderUserId = graderUserId ∧ a.examId = examId ∧
      a.status = .active

end Db

/-! ## Scopes -/

inductive ResourceType
  | user | candidate | course | question | exam | enrollment | attempt | answer | gradingEntry
  | score | auditLog | clientEvent
  | systemDiagnostics | incident
  deriving DecidableEq, Repr

inductive Scope
  | system | organization | course | exam | attempt | candidate | ownAttempt | ownScore
  deriving DecidableEq, Repr

structure ResolverContext where
  actorId : String
  organizationId : String
  deriving DecidableEq, Repr

structure ResolvedScope where
  scope : Scope
  organizationId : String
  resourceId : String
  chain : List (ResourceType × String)
  deriving DecidableEq, Repr

inductive DenyReason
  | organizationMismatch | brokenParentChain | resourceNotFound | ownershipMismatch | resolverError
  deriving DecidableEq, Repr

/-- A node of a parent chain. `linkedId` is left out where nothing links to the node. -/
structure ChainNode where
  type : ResourceType
  id : Option String
  linkedId : Option (Option String) := none
  deriving DecidableEq, Repr

structure LoadedAuthorizationChain where
  resourceId : String
  resourceOrganizationId : String
  organizationIds : List (Option String)
  chain : List ChainNode
  deriving DecidableEq, Repr

def materializeNode (node : ChainNode) : Option (ResourceType × String) :=
  match node.id with
  | none => none
  | some id => if id = "" ∨ (node.linkedId.isSome ∧ node.linkedId ≠ some (some id)) then none
      else some (node.type, id)

def materializeChain (nodes : List ChainNode) : Option (List (ResourceType × String)) :=
  nodes.mapM materializeNode

/-- The chain of ids, when every node is there, is the one its child links to, and belongs
to the organization of the request. -/
def verifyChain (ctx : ResolverContext) (chain : List ChainNode)
    (organizationIds : List (Option String)) :
    Except DenyReason (List (ResourceType × String)) :=
  match materializeChain chain with
  | none => .error .brokenParentChain
  | some chain =>
    if none ∈ organizationIds then .error .brokenParentChain
    else if organizationIds.any (· ≠ some ctx.organizationId) then .error .organizationMismatch
    else .ok chain

/-- What a query found; outside, `none` is a query that failed. -/
def loadChain {α : Type} (load : Option (Option α)) : Except DenyReason α := do
  let row ← orThrow load .resolverError
  orThrow row .resourceNotFound

def resolveAuthorizationChain (ctx : ResolverContext) (scope : Scope)
    (load : Option (Option LoadedAuthorizationChain)) :
    Except DenyReason ResolvedScope := do
  let loaded ← loadChain load
  let chain ← verifyChain ctx loaded.chain loaded.organizationIds
  pure ⟨scope, loaded.resourceOrganizationId, loaded.resourceId, chain⟩

/-! ## Resolvers -/

/-- A resolver runs one query; `none` is a query that failed. -/
abbrev ScopeResolver := ResolverContext → String → Option Db → Except DenyReason ResolvedScope

def createAttemptResolver : ScopeResolver := fun ctx id db =>
  resolveAuthorizationChain ctx .attempt <| db.map fun db =>
    (db.findAttempt ctx.organizationId id).map fun attempt =>
    let row := db.joinExam attempt.examId
    { resourceId := attempt.id
      resourceOrganizationId := attempt.organizationId
      organizationIds := [some attempt.organizationId, row.examOrganizationId,
        row.courseOrganizationId, row.organizationId]
      chain := [⟨.attempt, some attempt.id, none⟩, ⟨.exam, row.examId, some (some attempt.examId)⟩,
        ⟨.course, row.courseId, some row.linkedCourseId⟩] }

def createIncidentResolver : ScopeResolver := fun ctx id db =>
  resolveAuthorizationChain ctx .exam <| db.map fun db =>
    (db.findIncident ctx.organizationId id).map fun incident =>
    let row := db.joinExam incident.examId
    { resourceId := incident.id
      resourceOrganizationId := incident.organizationId
      organizationIds := [some incident.organizationId, row.examOrganizationId,
        row.courseOrganizationId, row.organizationId]
      chain := [⟨.incident, some incident.id, none⟩, ⟨.exam, row.examId, some (some incident.examId)⟩,
        ⟨.course, row.courseId, some row.linkedCourseId⟩] }

def createExamResolver : ScopeResolver := fun ctx id db =>
  resolveAuthorizationChain ctx .exam <| db.map fun db => (db.findExam ctx.organizationId id).map
    fun exam =>
    let row := db.joinCourse (some exam.courseId)
    { resourceId := exam.id
      resourceOrganizationId := exam.organizationId
      organizationIds := [some exam.organizationId, row.courseOrganizationId, row.organizationId]
      chain := [⟨.exam, some exam.id, none⟩, ⟨.course, row.courseId, some (some exam.courseId)⟩] }

def createQuestionResolver : ScopeResolver := fun ctx id db =>
  resolveAuthorizationChain ctx .course <| db.map fun db =>
    (db.findQuestion ctx.organizationId id).map fun question =>
    let row := db.joinCourse (some question.courseId)
    { resourceId := question.id
      resourceOrganizationId := question.organizationId
      organizationIds := [some question.organizationId, row.courseOrganizationId, row.organizationId]
      chain := [⟨.question, some question.id, none⟩,
        ⟨.course, row.courseId, some (some question.courseId)⟩] }

def createCourseResolver : ScopeResolver := fun ctx id db =>
  resolveAuthorizationChain ctx .course <| db.map fun db =>
    (db.findCourse ctx.organizationId id).map fun course =>
    { resourceId := course.id
      resourceOrganizationId := course.organizationId
      organizationIds := [some course.organizationId,
        (some course.organizationId).filter (· ∈ db.organizations)]
      chain := [⟨.course, some course.id, none⟩] }

def resolvers : ResourceType → Option ScopeResolver
  | .attempt => some createAttemptResolver
  | .exam => some createExamResolver
  | .course => some createCourseResolver
  | .question => some createQuestionResolver
  | .incident => some createIncidentResolver
  | _ => none

/-! ## Resolvers of a candidate's own -/

/-- The user of the profile, `null` without one. -/
structure OwnedScope extends ResolvedScope where
  ownerUserId : Option String
  deriving DecidableEq, Repr

structure ExamEligibilityOwnership where
  candidateProfileId : Option String
  ownerUserId : Option String
  enrollmentId : Option String
  deriving DecidableEq, Repr

structure ExamEligibilityResolvedScope extends ResolvedScope where
  ownership : ExamEligibilityOwnership
  deriving DecidableEq, Repr

def attemptChain (db : Db) (ctx : ResolverContext) (attempt : AttemptRow) :
    Except DenyReason (List (ResourceType × String)) :=
  let row := db.joinExam attempt.examId
  verifyChain ctx
    [⟨.attempt, some attempt.id, none⟩, ⟨.exam, row.examId, some (some attempt.examId)⟩,
      ⟨.course, row.courseId, some row.linkedCourseId⟩]
    [some attempt.organizationId, row.examOrganizationId, row.courseOrganizationId, row.organizationId]

def resolveOwnAttemptScope (ctx : ResolverContext) (attemptId : String) (db : Option Db) :
    Except DenyReason OwnedScope := do
  let row ← loadChain <| db.map fun db => (db.findAttempt ctx.organizationId attemptId).map (db, ·)
  let (db, attempt) := row
  let profile := db.profiles.get attempt.candidateId
  let chain ← attemptChain db ctx attempt
  -- a profile that is not there is for the gate to answer
  require (profile.all (·.organizationId = ctx.organizationId)) .organizationMismatch
  pure { scope := .ownAttempt, organizationId := attempt.organizationId, resourceId := attempt.id,
          chain := chain,
         ownerUserId := profile.map (·.userId) }

def resolveScoreScope (ctx : ResolverContext) (attemptId : String) (db : Option Db) :
    Except DenyReason OwnedScope := do
  let row ← loadChain <| db.map fun db => (db.findAttempt ctx.organizationId attemptId).map (db, ·)
  let (db, attempt) := row
  let chain ← attemptChain db ctx attempt
  pure { scope := .ownScore, organizationId := attempt.organizationId, resourceId := attempt.id,
          chain := chain,
         ownerUserId := (db.profiles.get attempt.candidateId).map (·.userId) }

def resolveExamEligibilityScope (ctx : ResolverContext) (examId : String) (db : Option Db) :
    Except DenyReason ExamEligibilityResolvedScope := do
  let row ← loadChain <| db.map fun db => (db.findExam ctx.organizationId examId).map (db, ·)
  let (db, exam) := row
  let course := db.joinCourse (some exam.courseId)
  let profile := db.findProfile ctx.organizationId ctx.actorId
  let enrollment := profile.bind fun p => db.findEnrollment ctx.organizationId exam.id p.id
  let chain ← verifyChain ctx [⟨.exam, some exam.id, none⟩,
    ⟨.course, course.courseId, some (some exam.courseId)⟩]
    [some exam.organizationId, course.courseOrganizationId, course.organizationId]
  require (profile.all (·.organizationId = ctx.organizationId)) .organizationMismatch
  pure { scope := .ownAttempt, organizationId := exam.organizationId, resourceId := exam.id,
          chain := chain,
         ownership := ⟨profile.map (·.id), profile.map (·.userId), enrollment.map (·.id)⟩ }

end ExamSystem.Authz
