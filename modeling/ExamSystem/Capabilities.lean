import ExamSystem.AccountRepos
import Mathlib.Data.List.Dedup
import Mathlib.Data.List.Sort
import Mathlib.Data.String.Basic

/-!
# What an account may do

The capabilities that the presets of the roles grant, and the union that a
request holds: it is read from the active role assignments of its actor.
-/

namespace ExamSystem.Authz

open Accounts

/-! ## The catalog -/

inductive PermissionKey
  | userView | userCreate | userUpdate | userDelete | userRoleAssign | userPasswordReset
  | organizationView | organizationUpdate
  | settingsView | settingsUpdate | auditLogView | candidateView | candidateCreate | candidateUpdate
  | candidateImport
  | candidateDelete | candidateFieldView | candidateFieldCreate | candidateFieldUpdate
  | candidateFieldDelete | courseView
  | courseCreate | courseUpdate | courseDelete | questionView | questionCreate | questionUpdate
  | questionDelete | questionImport
  | examView | examCreate | examUpdate | examPublish | examUnpublish | examClose | examCancel
  | examArchive | examDelete | examExtend
  | examResultPublish | examEnrollmentManage | examTake | attemptViewOwn | attemptStart
  | attemptAnswerSave | attemptSubmit
  | attemptRestore | attemptHeartbeatSend | scoreOwnView | examRoomView | attemptTimelineView
  | attemptMisconductMark
  | attemptTimeGrant | attemptForceSubmit | attemptExport | gradingQueueView | gradingDetailView
  | gradingAnswerView
  | gradingScoreWrite | gradingFinalize | gradingIdentityView | scoreAllView | scoreExport
  | systemHealthView | systemDiagnosticsView
  | systemBusinessIntegrityView | systemBusinessSummaryView | systemEmailTest | systemInfoView
  | systemAutoSubmit | systemHeartbeatScan
  | systemLifecycleReconcile | systemIncidentCreate | incidentView | incidentCreate
  | incidentInvestigate | incidentResolve
  | incidentRecoveryView | examProctorAssignmentView | examProctorAssignmentManage
  | courseTeacherAssignmentView
  | courseTeacherAssignmentManage | examGraderAssignmentView | examGraderAssignmentManage
  deriving DecidableEq, Repr

def PermissionKey.text : PermissionKey → String
  | .userView => "user.view"
  | .userCreate => "user.create"
  | .userUpdate => "user.update"
  | .userDelete => "user.delete"
  | .userRoleAssign => "user.role.assign"
  | .userPasswordReset => "user.password.reset"
  | .organizationView => "organization.view"
  | .organizationUpdate => "organization.update"
  | .settingsView => "settings.view"
  | .settingsUpdate => "settings.update"
  | .auditLogView => "audit_log.view"
  | .candidateView => "candidate.view"
  | .candidateCreate => "candidate.create"
  | .candidateUpdate => "candidate.update"
  | .candidateImport => "candidate.import"
  | .candidateDelete => "candidate.delete"
  | .candidateFieldView => "candidate_field.view"
  | .candidateFieldCreate => "candidate_field.create"
  | .candidateFieldUpdate => "candidate_field.update"
  | .candidateFieldDelete => "candidate_field.delete"
  | .courseView => "course.view"
  | .courseCreate => "course.create"
  | .courseUpdate => "course.update"
  | .courseDelete => "course.delete"
  | .questionView => "question.view"
  | .questionCreate => "question.create"
  | .questionUpdate => "question.update"
  | .questionDelete => "question.delete"
  | .questionImport => "question.import"
  | .examView => "exam.view"
  | .examCreate => "exam.create"
  | .examUpdate => "exam.update"
  | .examPublish => "exam.publish"
  | .examUnpublish => "exam.unpublish"
  | .examClose => "exam.close"
  | .examCancel => "exam.cancel"
  | .examArchive => "exam.archive"
  | .examDelete => "exam.delete"
  | .examExtend => "exam.extend"
  | .examResultPublish => "exam.result.publish"
  | .examEnrollmentManage => "exam.enrollment.manage"
  | .examTake => "exam.take"
  | .attemptViewOwn => "attempt.view_own"
  | .attemptStart => "attempt.start"
  | .attemptAnswerSave => "attempt.answer.save"
  | .attemptSubmit => "attempt.submit"
  | .attemptRestore => "attempt.restore"
  | .attemptHeartbeatSend => "attempt.heartbeat.send"
  | .scoreOwnView => "score.own.view"
  | .examRoomView => "exam_room.view"
  | .attemptTimelineView => "attempt.timeline.view"
  | .attemptMisconductMark => "attempt.misconduct.mark"
  | .attemptTimeGrant => "attempt.time.grant"
  | .attemptForceSubmit => "attempt.force_submit"
  | .attemptExport => "attempt.export"
  | .gradingQueueView => "grading.queue.view"
  | .gradingDetailView => "grading.detail.view"
  | .gradingAnswerView => "grading.answer.view"
  | .gradingScoreWrite => "grading.score.write"
  | .gradingFinalize => "grading.finalize"
  | .gradingIdentityView => "grading.identity.view"
  | .scoreAllView => "score.all.view"
  | .scoreExport => "score.export"
  | .systemHealthView => "system.health.view"
  | .systemDiagnosticsView => "system.diagnostics.view"
  | .systemBusinessIntegrityView => "system.business_integrity.view"
  | .systemBusinessSummaryView => "system.business_summary.view"
  | .systemEmailTest => "system.email.test"
  | .systemInfoView => "system.info.view"
  | .systemAutoSubmit => "system.auto_submit"
  | .systemHeartbeatScan => "system.heartbeat_scan"
  | .systemLifecycleReconcile => "system.lifecycle_reconcile"
  | .systemIncidentCreate => "system.incident.create"
  | .incidentView => "incident.view"
  | .incidentCreate => "incident.create"
  | .incidentInvestigate => "incident.investigate"
  | .incidentResolve => "incident.resolve"
  | .incidentRecoveryView => "incident.recovery.view"
  | .examProctorAssignmentView => "exam.proctor_assignment.view"
  | .examProctorAssignmentManage => "exam.proctor_assignment.manage"
  | .courseTeacherAssignmentView => "course.teacher_assignment.view"
  | .courseTeacherAssignmentManage => "course.teacher_assignment.manage"
  | .examGraderAssignmentView => "exam.grader_assignment.view"
  | .examGraderAssignmentManage => "exam.grader_assignment.manage"

def ADMIN_PERMISSIONS : List PermissionKey := [
  .userView, .userCreate, .userUpdate, .userDelete, .userRoleAssign, .userPasswordReset,
  .organizationView, .organizationUpdate, .settingsView, .settingsUpdate, .auditLogView,
  .candidateView, .candidateCreate, .candidateUpdate, .candidateImport, .candidateDelete,
  .candidateFieldView, .candidateFieldCreate, .candidateFieldUpdate, .candidateFieldDelete,
  .courseView, .courseCreate, .courseUpdate, .courseDelete, .questionView, .questionCreate,
  .questionUpdate, .questionDelete, .questionImport, .examView, .examCreate, .examUpdate,
  .examPublish, .examUnpublish, .examClose, .examCancel, .examArchive, .examDelete, .examExtend,
  .examResultPublish, .examEnrollmentManage, .examRoomView, .attemptTimelineView,
  .attemptMisconductMark, .attemptTimeGrant, .attemptForceSubmit, .attemptExport, .gradingQueueView,
  .gradingDetailView, .gradingAnswerView, .gradingScoreWrite, .gradingFinalize,
  .gradingIdentityView, .scoreAllView, .scoreExport, .systemHealthView, .systemDiagnosticsView,
  .systemBusinessIntegrityView, .systemBusinessSummaryView, .systemEmailTest, .incidentView,
  .incidentCreate, .incidentInvestigate, .incidentResolve, .incidentRecoveryView,
  .examProctorAssignmentView, .examProctorAssignmentManage, .courseTeacherAssignmentView,
  .courseTeacherAssignmentManage, .examGraderAssignmentView, .examGraderAssignmentManage]

def TEACHER_PERMISSIONS : List PermissionKey := [
  .organizationView, .candidateView, .courseView, .courseCreate, .courseUpdate, .questionView,
  .questionCreate, .questionUpdate, .questionDelete, .questionImport, .examView, .examCreate,
  .examUpdate, .examPublish, .examClose, .examEnrollmentManage, .examResultPublish, .scoreAllView]

def PROCTOR_PERMISSIONS : List PermissionKey := [
  .examRoomView, .attemptTimelineView, .incidentView, .incidentCreate, .incidentInvestigate]

def GRADER_PERMISSIONS : List PermissionKey := [
  .gradingQueueView, .gradingDetailView, .gradingAnswerView, .gradingScoreWrite]

def MAINTAINER_PERMISSIONS : List PermissionKey := [
  .systemHealthView, .systemDiagnosticsView]

def CANDIDATE_PERMISSIONS : List PermissionKey := [
  .examTake, .attemptViewOwn, .attemptStart, .attemptAnswerSave, .attemptSubmit, .attemptRestore,
  .attemptHeartbeatSend, .scoreOwnView]

/-! ## The context of a request -/

def permissionsForRole : AssignableRole → List PermissionKey
  | .admin => ADMIN_PERMISSIONS
  | .teacher => TEACHER_PERMISSIONS
  | .proctor => PROCTOR_PERMISSIONS
  | .grader => GRADER_PERMISSIONS
  | .candidate => CANDIDATE_PERMISSIONS
  | .maintainer => MAINTAINER_PERMISSIONS

/-- The presets of the active roles, each capability once, in the order of their texts. -/
def capabilitiesOf (activeRoles : List AssignableRole) : List PermissionKey :=
  (activeRoles.flatMap permissionsForRole).dedup.insertionSort fun a b => a.text ≤ b.text

structure RuntimeRequestContext where
  actorId : String
  organizationId : String
  roles : List AssignableRole
  capabilities : List PermissionKey
  deriving DecidableEq, Repr

/-- What `authenticate` attaches to a request. -/
def authenticatedContext (organizationId userId : String) (authority : AssignmentAuthority) :
    RuntimeRequestContext :=
  ⟨userId, organizationId, authority.activeRoles, capabilitiesOf authority.activeRoles⟩

def contextOf (rows : List UserRoleAssignment) (organizationId userId : String) :
    Except AuthorityFailure RuntimeRequestContext :=
  (deriveAssignmentAuthority rows organizationId userId).map
    (authenticatedContext organizationId userId)

/-! ## The union -/

theorem mem_capabilitiesOf {activeRoles : List AssignableRole} {p : PermissionKey} :
    p ∈ capabilitiesOf activeRoles ↔ ∃ r ∈ activeRoles, p ∈ permissionsForRole r := by
  unfold capabilitiesOf
  rw [List.mem_insertionSort, List.mem_dedup, List.mem_flatMap]

theorem mem_sortRolesCanonical {roles : List AssignableRole} {r : AssignableRole} :
    r ∈ sortRolesCanonical roles ↔ r ∈ roles := by
  have hall : r ∈ roleOrder := by cases r <;> decide
  simp [sortRolesCanonical, hall]

/-- The authority of a user: one primary row among the active ones, which are all its own. -/
theorem deriveAssignmentAuthority_eq_ok {rows : List UserRoleAssignment}
    {organizationId userId : String} {a : AssignmentAuthority}
    (h : deriveAssignmentAuthority rows organizationId userId = .ok a) :
    (∀ r ∈ rows, r.organizationId = organizationId ∧ r.userId = userId) ∧
    a.activeRoles = sortRolesCanonical ((rows.filter (·.isActive)).map (·.role)) ∧
    ¬(.admin ∈ a.activeRoles ∧ .maintainer ∈ a.activeRoles) := by
  unfold deriveAssignmentAuthority at h
  split at h
  · cases h
  · rename_i hown
    have hown : ∀ r ∈ rows, r.organizationId = organizationId ∧ r.userId = userId := by
      simpa [not_or] using hown
    dsimp only at h
    split at h
    · cases h
    · split at h
      · cases h
      · cases h
      · split at h
        · cases h
        · rename_i hdual
          cases h
          exact ⟨hown, by simp_all, hdual⟩

theorem contextOf_holds {rows : List UserRoleAssignment} {organizationId userId : String}
    {ctx : RuntimeRequestContext} (h : contextOf rows organizationId userId = .ok ctx)
    (p : PermissionKey) :
    p ∈ ctx.capabilities ↔ ∃ r ∈ rows, r.isActive ∧ p ∈ permissionsForRole r.role := by
  unfold contextOf at h
  obtain ⟨a, ha, rfl⟩ := (Tx.map_eq_ok ..).mp h
  obtain ⟨-, hroles, -⟩ := deriveAssignmentAuthority_eq_ok ha
  simp only [authenticatedContext, mem_capabilitiesOf, hroles, mem_sortRolesCanonical, List.mem_map,
    List.mem_filter]
  constructor
  · rintro ⟨-, ⟨r, ⟨hr, hactive⟩, rfl⟩, hp⟩
    exact ⟨r, hr, hactive, hp⟩
  · rintro ⟨r, hr, hactive, hp⟩
    exact ⟨r.role, ⟨r, ⟨hr, hactive⟩, rfl⟩, hp⟩

end ExamSystem.Authz
