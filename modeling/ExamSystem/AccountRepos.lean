import Mathlib.Data.List.MinMax
import Mathlib.Data.String.Basic
import ExamSystem.Accounts

/-!
# The account repositories

The operations on users, role assignments, reset tokens and invitations, and the
two seams that every change of authority runs in. Reads that only fetch again the
row a transaction has just written are left out.
-/

namespace ExamSystem.Accounts

open Interleaving

/-- The first row of an `ORDER BY` on an instant. -/
def firstLeast {α : Type} (f : α → Int) : List α → Option α
  | [] => none
  | a :: l =>
    match firstLeast f l with
    | none => some a
    | some b => if f b < f a then some b else some a

structure Context where
  organizationId : String
  actorId : String
  deriving DecidableEq, Repr

section
variable (iso : Isolation) (ctx : Context)

/-! ## Users -/

def ofUser (id : String) (u : User) : Bool := u.organizationId = ctx.organizationId ∧ u.id = id

def findByOrganizationAndUsername (username : String) : Action (Option User) :=
  query iso fun db => db.users.rows.find? fun u => u.organizationId = ctx.organizationId ∧
    u.username = username

def findByOrganizationAndId (id : String) : Action (Option User) :=
  query iso fun db => (db.users.get id).filter (ofUser ctx id)

def lockUsers (p : User → Bool) : Action (Option User) := do
  let rows ← modifyRows (·.users) iso (fun u => [.user u.id]) (fun _ => p) (fun _ => []) fun _ _ => none
  pure rows.head?

def lockByUsernameWithinTransaction (username : String) : Action (Option User) :=
  lockUsers iso fun u => u.organizationId = ctx.organizationId ∧ u.username = username

def lockByIdWithinTransaction (id : String) : Action (Option User) := lockUsers iso (ofUser ctx id)

def updateUsers (p : User → Bool) (patch : UserPatch) : Action (Option User) := do
  let rows ← modifyRows (·.users) iso User.keys (fun _ => p) (fun u => [.updateUser u.id patch])
    fun _ _ => none
  pure (rows.head?.map patch.set)

def updateUser (id : String) (patch : UserPatch) : Action (Option User) :=
  updateUsers iso (ofUser ctx id) patch

def userConflict (u : User) (db : Db) : Option AccountError :=
  if (db.users.get u.id).isSome then some (.uniqueViolation "users_pkey")
  else if db.users.rows.any fun v => v.organizationId = u.organizationId ∧ v.username = u.username then
    some (.uniqueViolation "users_org_username_unique")
  else none

def usernameTaken (e : AccountError) : AccountError :=
  if e = .uniqueViolation "users_org_username_unique" then .userAlreadyExists else e

def createUnique (u : User) : Action Unit := do
  let existing ← findByOrganizationAndUsername iso ctx u.username
  if existing.isSome then .fail .userAlreadyExists
  else insertRow (.insertUser u) fun db => (userConflict u db).map usernameTaken

/-- Deleting fails while a candidate profile or an invitation refers to the user. -/
def deleteUserRow (id : String) : Action Unit := do
  let _ ← modifyRows (·.users) iso User.keys (fun _ => ofUser ctx id) (fun u => [.deleteUser u.id])
    fun db rows =>
    if rows.any fun u => db.profiles.rows.any fun p => p.userId = u.id then
      some (.foreignKeyViolation "candidate_profiles_user_id_users_id_fk")
    else if rows.any fun u => db.invitations.rows.any fun i => i.createdBy = u.id then
      some (.foreignKeyViolation "staff_invitations_created_by_users_id_fk")
    else none
  pure ()

def advanceAuthEpochIfCurrent (userId : String) (expectedEpoch : Nat) : Action (Option Nat) := do
  let updated ← updateUsers iso (fun u => ofUser ctx userId u ∧ u.authEpoch = expectedEpoch)
    { advanceAuthEpoch := true }
  pure (updated.map (·.authEpoch))

def updatePasswordAndAdvanceAuthEpoch (userId passwordHash : String) : Action (Option User) :=
  updateUser iso ctx userId { passwordHash := some passwordHash, advanceAuthEpoch := true }

def advanceAuthEpoch (userId : String) : Action (Option Nat) := do
  let updated ← updateUser iso ctx userId { advanceAuthEpoch := true }
  pure (updated.map (·.authEpoch))

/-! ## Role assignments -/

def ofAssignee (userId : String) (a : UserRoleAssignment) : Bool :=
  a.organizationId = ctx.organizationId ∧ a.userId = userId

def isActivePrimary (a : UserRoleAssignment) : Bool := a.isPrimary && a.isActive

def findAssignment (id : String) : Action (Option UserRoleAssignment) :=
  query iso fun db => (db.assignments.get id).filter fun a => a.organizationId = ctx.organizationId

/-- The entry of the partial unique index of active primaries, held by another row. -/
def primaryTaken (db : Db) (a : UserRoleAssignment) : Bool :=
  isActivePrimary a && db.assignments.rows.any fun b =>
    b.id ≠ a.id ∧ b.organizationId = a.organizationId ∧ b.userId = a.userId ∧ isActivePrimary b

def updateAssignments (p : UserRoleAssignment → Bool) (patch : AssignmentPatch) :
    Action (Option UserRoleAssignment) := do
  let rows ← modifyRows (·.assignments) iso UserRoleAssignment.keys (fun _ => p)
    (fun a => [.updateAssignment a.userId a.id patch])
    fun db rows => if rows.any fun a => primaryTaken db (patch.set a) then
      some (.uniqueViolation "user_role_assignments_active_primary_unique") else none
  pure (rows.head?.map patch.set)

def assignmentConflict (a : UserRoleAssignment) (db : Db) : Option AccountError :=
  if (db.assignments.get a.id).isSome then some (.uniqueViolation "user_role_assignments_pkey")
  else if db.assignments.rows.any fun b => b.organizationId = a.organizationId ∧
    b.userId = a.userId ∧ b.role = a.role then
    some (.uniqueViolation "user_role_assignments_org_user_role_unique")
  else if primaryTaken db a then some (.uniqueViolation "user_role_assignments_active_primary_unique")
  else if (db.users.get a.userId).isNone then
    some (.foreignKeyViolation "user_role_assignments_user_id_users_id_fk")
  else none

def insertAssignment (a : UserRoleAssignment) : Action UserRoleAssignment := do
  insertRow (.insertAssignment a) (assignmentConflict a)
  pure a

structure NewRow where
  id : String
  createdAt : Int
  deriving DecidableEq, Repr

def newAssignment (new : NewRow) (userId : String) (role : AssignableRole) (isPrimary isActive : Bool) :
    UserRoleAssignment :=
  ⟨new.id, ctx.organizationId, userId, role, isPrimary, isActive, new.createdAt⟩

def demote : AssignmentPatch := { isPrimary := some false }

def promote : AssignmentPatch := { isPrimary := some true, isActive := some true }

def assignWithinTransaction (new : NewRow) (userId : String) (role : AssignableRole)
    (isPrimary isActive : Bool) :
    Action UserRoleAssignment := do
  if isPrimary && isActive then
    let _ ← updateAssignments iso (fun a => ofAssignee ctx userId a && a.isPrimary) demote
  insertAssignment (newAssignment ctx new userId role isPrimary isActive)

def ensurePrimaryAssignmentWithinTransaction (new : NewRow) (userId : String) (role : AssignableRole) :
    Action (Option UserRoleAssignment) := do
  let _ ← updateAssignments iso (fun a => ofAssignee ctx userId a && isActivePrimary a) demote
  let existing ← query iso fun db => db.assignments.rows.find? fun a =>
    ofAssignee ctx userId a && a.role = role
  match existing with
  | some e => updateAssignments iso (fun a => a.id = e.id) promote
  | none =>
    let a ← insertAssignment (newAssignment ctx new userId role true true)
    pure (some a)

def replacePrimaryRoleWithinTransaction (new : NewRow) (userId : String) (role : AssignableRole) :
    Action (Option UserRoleAssignment) := do
  let _ ← updateAssignments iso (fun a => ofAssignee ctx userId a && isActivePrimary a)
    { isActive := some false }
  ensurePrimaryAssignmentWithinTransaction iso ctx new userId role

def setPrimaryWithinTransaction (assignmentId : String) : Action (Option UserRoleAssignment) := do
  let target ← findAssignment iso ctx assignmentId
  match target with
  | none => pure none
  | some t =>
    let _ ← updateAssignments iso (fun a => ofAssignee ctx t.userId a && a.isPrimary) demote
    updateAssignments iso (fun a => a.id = assignmentId) promote

/-- The active assignment of the user that was created first; ties go to the row order. -/
def earliestActive (userId : String) (db : Db) : Option UserRoleAssignment :=
  firstLeast (·.createdAt) (db.assignments.rows.filter fun a => ofAssignee ctx userId a && a.isActive)

def promoteNextActiveForUser (userId : String) : Action Unit := do
  let next ← query iso (earliestActive ctx userId)
  match next with
  | none => pure ()
  | some n =>
    let _ ← updateAssignments iso (fun a => a.id = n.id) { isPrimary := some true }
    pure ()

def deactivateWithinTransaction (assignmentId : String) : Action (Option UserRoleAssignment) := do
  let before ← findAssignment iso ctx assignmentId
  match before with
  | none => pure none
  | some b =>
    let updated ← updateAssignments iso (fun a => a.id = assignmentId) { isActive := some false }
    if b.isPrimary then promoteNextActiveForUser iso ctx b.userId
    pure updated

def activateWithinTransaction (assignmentId : String) :
    Action (Option (UserRoleAssignment × Bool)) := do
  let before ← findAssignment iso ctx assignmentId
  match before with
  | none => pure none
  | some b =>
    if b.isActive then pure (some (b, false))
    else
      if b.isPrimary then
        let _ ← updateAssignments iso
          (fun a => ofAssignee ctx b.userId a && isActivePrimary a && !decide
            (a.id = assignmentId)) demote
      let updated ← updateAssignments iso (fun a => a.id = assignmentId) { isActive := some true }
      pure (updated.map fun a => (a, true))

def removeWithinTransaction (assignmentId : String) : Action (Option UserRoleAssignment) := do
  let before ← findAssignment iso ctx assignmentId
  match before with
  | none => pure none
  | some b =>
    let _ ← modifyRows (·.assignments) iso UserRoleAssignment.keys (fun _ a => a.id = assignmentId)
      (fun a => [.deleteAssignment a.userId a.id]) fun _ _ => none
    if b.isPrimary then promoteNextActiveForUser iso ctx b.userId
    pure (some b)

def syncUsersRoleFromPrimary (userId : String) : Action (Option AssignableRole) := do
  let primary ← query iso fun db => db.assignments.rows.find? fun a =>
    ofAssignee ctx userId a && isActivePrimary a
  match primary with
  | none => pure none
  | some p =>
    let _ ← updateUser iso ctx userId { role := some p.role }
    pure (some p.role)

/-! ## The authority of a user -/

inductive AuthorityFailure
  | noActiveAssignments | zeroPrimaryWithActive | multiplePrimary | subjectMismatch
  | dualAdminMaintainer
  deriving DecidableEq, Repr

structure AssignmentAuthority where
  primaryRole : AssignableRole
  activeRoles : List AssignableRole
  assignmentIds : List String
  deriving DecidableEq, Repr

def roleOrder : List AssignableRole := [.admin, .teacher, .proctor, .grader, .candidate, .maintainer]

def sortRolesCanonical (roles : List AssignableRole) : List AssignableRole :=
  roleOrder.filter fun r => r ∈ roles

/-- The column check admits only assignable roles, so no row has an unknown one. -/
def deriveAssignmentAuthority (rows : List UserRoleAssignment) (organizationId userId : String) :
    Except AuthorityFailure AssignmentAuthority :=
  if rows.any fun r => r.organizationId ≠ organizationId ∨
    r.userId ≠ userId then .error .subjectMismatch
  else
    let active := rows.filter (·.isActive)
    match active with
    | [] => .error .noActiveAssignments
    | _ :: _ =>
      match active.filter (·.isPrimary) with
      | [] => .error .zeroPrimaryWithActive
      | _ :: _ :: _ => .error .multiplePrimary
      | [p] =>
        let activeRoles := sortRolesCanonical (active.map (·.role))
        if .admin ∈ activeRoles ∧ .maintainer ∈ activeRoles then .error .dualAdminMaintainer
        else .ok ⟨p.role, activeRoles, active.map (·.id)⟩

def listActiveForUser (userId : String) (db : Db) : List UserRoleAssignment :=
  db.assignments.rows.filter fun a => ofAssignee ctx userId a && a.isActive

/-! ## The authority seams -/

structure ExclusionViolation where
  userId : String
  adminAssignmentId : String
  maintainerAssignmentId : String
  deriving DecidableEq, Repr

/-- The active assignments of the organization to a role, of active users. -/
def effectiveAssignments (role : AssignableRole) (db : Db) : List UserRoleAssignment :=
  db.assignments.rows.filter fun a => a.organizationId = ctx.organizationId ∧ a.isActive ∧
    a.role = role ∧ ∃ u ∈ db.users.rows, u.id = a.userId ∧ u.isActive

def findAdminMaintainerExclusionViolations (db : Db) : List ExclusionViolation :=
  (effectiveAssignments ctx .admin db).flatMap fun a =>
    ((effectiveAssignments ctx .maintainer db).filter fun m => m.userId = a.userId).map fun m =>
      ⟨a.userId, a.id, m.id⟩

def countEffectiveActiveUsersWithRole (role : AssignableRole) (db : Db) : Nat :=
  (db.users.rows.filter fun u => u.organizationId = ctx.organizationId ∧ u.isActive ∧
    ∃ a ∈ db.assignments.rows, ofAssignee ctx u.id a ∧ a.role = role ∧ a.isActive).length

def checkAdminMaintainerExclusion : Action Unit := do
  let violations ← query .readCommitted (findAdminMaintainerExclusionViolations ctx)
  match violations.argmin (·.userId) with
  | some v => .fail (.adminMaintainerExclusion v.userId v.adminAssignmentId v.maintainerAssignmentId)
  | none => pure ()

def checkEffectiveAdmin : Action Unit := do
  let effectiveAdminCount ← query .readCommitted (countEffectiveActiveUsersWithRole ctx .admin)
  if effectiveAdminCount = 0 then .fail .lastActiveAdmin else pure ()

def mutateWithAuthorityInvariants {α : Type} (mutate : Action α) : Action α := do
  Prog.lock [.authority ctx.organizationId]
  let result ← mutate
  checkAdminMaintainerExclusion ctx
  pure result

def mutateWithEffectiveAdminPostcondition {α : Type} (mutate : Action α) : Action α := do
  Prog.lock [.authority ctx.organizationId]
  let result ← mutate
  checkAdminMaintainerExclusion ctx
  checkEffectiveAdmin ctx
  pure result

/-! ## Candidate profiles -/

def findProfile (id : String) : Action (Option CandidateProfile) :=
  query iso fun db => (db.profiles.get id).filter fun p => p.organizationId = ctx.organizationId

def findByUserId (userId : String) : Action (Option CandidateProfile) :=
  query iso fun db => db.profiles.rows.find? fun p => p.organizationId = ctx.organizationId ∧
    p.userId = userId

def profileConflict (p : CandidateProfile) (db : Db) : Option AccountError :=
  if (db.profiles.get p.id).isSome then some (.uniqueViolation "candidate_profiles_pkey")
  else if db.profiles.rows.any fun q => q.organizationId = p.organizationId ∧ q.userId = p.userId then
    some (.uniqueViolation "candidate_profiles_org_user_unique")
  else if (db.users.get p.userId).isNone then
    some (.foreignKeyViolation "candidate_profiles_user_id_users_id_fk")
  else none

def createProfile (p : CandidateProfile) : Action Unit :=
  insertRow (.insertProfile p) (profileConflict p)

/-! ## Password-reset tokens -/

/-- Tokens of the user older than 30 days are pruned when a new one is issued. -/
def retentionMs : Int := 30 * 24 * 60 * 60 * 1000

def tokenConflict (t : PasswordResetToken) (db : Db) : Option AccountError :=
  if (db.tokens.get t.id).isSome ∨ (db.tokens.rows.any fun r => r.tokenHash = t.tokenHash) ∨
      (t.isOpen ∧ db.tokens.rows.any fun r => r.userId = t.userId ∧
        r.isOpen) then some .passwordResetCooldown
  else if (db.users.get t.userId).isNone then
    some (.foreignKeyViolation "password_reset_tokens_user_id_users_id_fk")
  else none

def issueWithinTransaction (new : NewRow) (userId tokenHash : String) (expiresAt now : Int) :
    Action PasswordResetToken := do
  let _ ← modifyRows (·.tokens) iso PasswordResetToken.keys (fun _ t => t.userId = userId ∧ t.isOpen)
    (fun t => [.consumeToken t.userId t.id now]) fun _ _ => none
  let _ ← modifyRows (·.tokens) iso PasswordResetToken.keys (fun _ t => t.userId = userId ∧
    t.createdAt < now - retentionMs)
    (fun t => [.deleteToken t.userId t.id]) fun _ _ => none
  let token : PasswordResetToken := ⟨new.id, ctx.organizationId, userId, tokenHash, expiresAt, none,
    new.createdAt⟩
  insertRow (.insertToken token) (tokenConflict token)
  pure token

def isOpenToken (tokenHash : String) (now : Int) (t : PasswordResetToken) : Bool :=
  t.tokenHash = tokenHash ∧ t.organizationId = ctx.organizationId ∧ t.isOpen ∧ now < t.expiresAt

def findOpenUserIdByTokenHash (tokenHash : String) (now : Int) : Action (Option String) :=
  query iso fun db => (db.tokens.rows.find? (isOpenToken ctx tokenHash now)).map (·.userId)

def consumeByTokenHashForUserWithinTransaction (tokenHash userId : String) (now : Int) :
    Action (Option PasswordResetToken) := do
  let rows ← modifyRows (·.tokens) iso PasswordResetToken.keys
    (fun db t => isOpenToken ctx tokenHash now t && t.userId = userId &&
      db.users.rows.any fun u => u.id = t.userId ∧ u.organizationId = t.organizationId ∧ u.isActive)
    (fun t => [.consumeToken t.userId t.id now]) fun _ _ => none
  pure (rows.head?.map (Write.consume now))

def getLatestCreatedAt (userId : String) : Action (Option Int) :=
  query iso fun db => (firstLeast (fun t => -t.createdAt)
    (db.tokens.rows.filter fun t => t.organizationId = ctx.organizationId ∧ t.userId = userId)).map
      (·.createdAt)

def deleteAllForUserWithinTransaction (userId : String) : Action Nat := do
  let rows ← modifyRows (·.tokens) iso PasswordResetToken.keys
    (fun _ t => t.organizationId = ctx.organizationId ∧ t.userId = userId)
    (fun t => [.deleteToken t.userId t.id]) fun _ _ => none
  pure rows.length

/-! ## Staff invitations -/

def invitationConflict (i : StaffInvitation) (db : Db) : Option AccountError :=
  if (db.invitations.get i.id).isSome ∨ (db.invitations.rows.any fun r => r.tokenHash = i.tokenHash) ∨
      (i.isOpen ∧ db.invitations.rows.any fun r => r.organizationId = i.organizationId ∧
        r.email = i.email ∧ r.isOpen) then
    some .invitationConflict
  else if (db.users.get i.createdBy).isNone then
    some (.foreignKeyViolation "staff_invitations_created_by_users_id_fk")
  else none

def updateInvitations (p : StaffInvitation → Bool) (patch : InvitationPatch) :
    Action (Option StaffInvitation) := do
  let rows ← modifyRows (·.invitations) iso StaffInvitation.keys (fun _ => p)
    (fun i => [.updateInvitation i.id patch]) fun _ _ => none
  pure (rows.head?.map patch.set)

def createInvitationWithinTransaction (id email : String) (role : AssignableRole)
    (tokenHash : String) (expiresAt now : Int) :
    Action StaffInvitation := do
  let _ ← updateInvitations iso (fun i => i.organizationId = ctx.organizationId ∧ i.email = email ∧
    i.isOpen) (.revokedAt now)
  let invitation : StaffInvitation :=
    ⟨id, ctx.organizationId, email, role, tokenHash, expiresAt, none, none, ctx.actorId⟩
  insertRow (.insertInvitation invitation) (invitationConflict invitation)
  pure invitation

def consumeByTokenHashWithinTransaction (tokenHash : String) (now : Int) :
    Action (Option StaffInvitation) :=
  updateInvitations iso (fun i => i.tokenHash = tokenHash ∧ i.organizationId = ctx.organizationId ∧
    i.isOpen ∧ now < i.expiresAt)
    (.consumedAt now)

def revokeById (id : String) (now : Int) : Action (Option StaffInvitation) :=
  updateInvitations iso (fun i => i.id = id ∧ i.organizationId = ctx.organizationId ∧ i.isOpen)
    (.revokedAt now)

end

end ExamSystem.Accounts
