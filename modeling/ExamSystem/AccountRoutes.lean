import ExamSystem.AccountRepos

/-!
# The account routes

Each route is one program: the reads before its transaction, then the
transaction. Ids, hashes, instants and the caller's context are inputs; the
permission checks before a route and the audit rows are left out.
-/

namespace ExamSystem.Accounts

open Interleaving

/-- The password hash check of the host. -/
class PasswordVerifier where
  verifyPassword : String → String → Bool

def passwordResetCooldownMs : Int := 60 * 1000

def passwordResetTtlMs : Int := 60 * 60 * 1000

def invitationTtlMs : Int := 7 * 24 * 60 * 60 * 1000

inductive ResetOutcome
  | issued | unknownUser | disabledUser | noEmail | cooldown
  deriving DecidableEq, Repr

inductive Reply
  | ok
  | created (id : String)
  | notFound
  | targetRoleNotAllowed
  | currentPasswordInvalid
  | invitationInvalid
  | passwordResetInvalid
  | resetRequested (outcome : ResetOutcome)
  | notAdmin
  deriving DecidableEq, Repr

/-! ## Users and candidates -/

structure CreateUser where
  username : String
  passwordHash : String
  name : String
  role : AssignableRole
  email : Option String
  deriving DecidableEq, Repr

structure UpdateUser where
  name : Option String := none
  role : Option AssignableRole := none
  isActive : Option Bool := none
  email : Option (Option String) := none
  deriving DecidableEq, Repr

structure CreateCandidate where
  username : String
  passwordHash : String
  name : String
  email : Option String
  deriving DecidableEq, Repr

structure UpdateCandidate where
  name : Option String := none
  isActive : Option Bool := none
  email : Option (Option String) := none
  deriving DecidableEq, Repr

section
variable (ctx : Context)

/-- `POST /users` -/
def createUser (id : String) (new : NewRow) (data : CreateUser) : Action Reply := do
  let user : User := ⟨id, ctx.organizationId, data.username, data.passwordHash, data.name,
    data.role, true, data.email, 0⟩
  mutateWithAuthorityInvariants ctx do
    createUnique .readCommitted ctx user
    let _ ← assignWithinTransaction .readCommitted ctx new user.id data.role true true
  pure (.created user.id)

/-- The role step of an update: a role other than the one read before replaces the primary. -/
def replaceChangedRole (id : String) (new : NewRow) (role : Option AssignableRole)
    (current : AssignableRole) : Action Unit :=
  match role with
  | none => pure ()
  | some newRole =>
    if newRole = current then pure ()
    else do
      let _ ← replacePrimaryRoleWithinTransaction .readCommitted ctx new id newRole
      pure ()

/-- The deactivation step: sessions and reset tokens die with the account's activity. -/
def revokeDeactivated (id : String) (isActive : Option Bool) (current : Bool) : Action Unit :=
  if isActive = some false ∧ current = true then do
    let _ ← advanceAuthEpoch .readCommitted ctx id
    let _ ← deleteAllForUserWithinTransaction .readCommitted ctx id
    pure ()
  else pure ()

def updateUserMutation (id : String) (new : NewRow) (data : UpdateUser) (target : User) :
    Action (Option User) := do
  let updated ← updateUser .readCommitted ctx id
    { name := data.name, isActive := data.isActive, email := data.email }
  match updated with
  | none => pure none
  | some _ =>
    replaceChangedRole ctx id new data.role target.role
    revokeDeactivated ctx id data.isActive target.isActive
    let _ ← syncUsersRoleFromPrimary .readCommitted ctx id
    findByOrganizationAndId .readCommitted ctx id

/-- `PATCH /users/:id` -/
def updateUserRoute (id : String) (new : NewRow) (data : UpdateUser) : Action Reply :=
  if id = ctx.actorId ∧ data.isActive = some false then .fail .cannotDisableSelf
  else do
    let target ← findByOrganizationAndId .readCommitted ctx id
    match target with
    | none => pure .notFound
    | some target =>
      let finalUser ← mutateWithEffectiveAdminPostcondition ctx
        (updateUserMutation ctx id new data target)
      pure (if finalUser.isSome then .ok else .notFound)

/-- `POST /users/:id/reset-password` -/
def resetPassword (id passwordHash : String) : Action Reply := do
  let target ← findByOrganizationAndId .readCommitted ctx id
  if target.isNone then pure .notFound
  else
    let candidateProfile ← findByUserId .readCommitted ctx id
    if candidateProfile.isNone then pure .targetRoleNotAllowed
    else
      let iso ← beginRepeatableRead
      let updated ← updatePasswordAndAdvanceAuthEpoch iso ctx id passwordHash
      pure (if updated.isSome then .ok else .notFound)

/-- The `reset-admin-password` script. -/
def resetAdminPassword (username passwordHash : String) : Action Reply := do
  let user ← findByOrganizationAndUsername .readCommitted ctx username
  match user with
  | none => pure .notFound
  | some user =>
    let activeAssignments ← query .readCommitted (listActiveForUser ctx user.id)
    if activeAssignments.any fun a => a.role = .admin then
      let iso ← beginRepeatableRead
      let _ ← updatePasswordAndAdvanceAuthEpoch iso ctx user.id passwordHash
      pure .ok
    else pure .notAdmin

/-- `DELETE /users/:id` -/
def deleteUser (id : String) : Action Reply := do
  let target ← findByOrganizationAndId .readCommitted ctx id
  if target.isNone then pure .notFound
  else
    mutateWithEffectiveAdminPostcondition ctx (deleteUserRow .readCommitted ctx id)
    pure .ok

/-- `POST /candidates`, and a new row of an import. -/
def createCandidate (id : String) (new : NewRow) (profileId : String) (data : CreateCandidate) :
    Action Reply := do
  let user : User :=
    ⟨id, ctx.organizationId, data.username, data.passwordHash, data.name, .candidate, true,
      data.email, 0⟩
  let iso ← beginRepeatableRead
  createUnique iso ctx user
  let _ ← assignWithinTransaction iso ctx new user.id .candidate true true
  createProfile ⟨profileId, ctx.organizationId, user.id⟩
  pure (.created profileId)

/-- `PATCH /candidates/:id`, and an import row of an existing candidate. -/
def updateCandidate (id : String) (data : UpdateCandidate) : Action Reply := do
  let candidate ← findProfile .readCommitted ctx id
  match candidate with
  | none => pure .notFound
  | some candidate =>
    let iso ← beginRepeatableRead
    if data.name.isSome ∨ data.isActive.isSome ∨ data.email.isSome then
      let _ ← updateUser iso ctx candidate.userId
        { name := data.name, isActive := data.isActive, email := data.email }
    let changed ← findProfile iso ctx id
    pure (if changed.isSome then .ok else .notFound)

/-! ## Role assignments -/

/-- `POST /users/:id/role-assignments` -/
def assignRole (new : NewRow) (id : String) (role : AssignableRole) (isPrimary : Bool) :
    Action Reply := do
  let target ← findByOrganizationAndId .readCommitted ctx id
  if target.isNone then pure .notFound
  else
    let created ← mutateWithAuthorityInvariants ctx do
      let assignment ← assignWithinTransaction .readCommitted ctx new id role isPrimary true
      if assignment.isPrimary then
        let _ ← syncUsersRoleFromPrimary .readCommitted ctx id
      pure assignment
    pure (.created created.id)

/-- `PATCH /role-assignments/:assignmentId` with `isPrimary: true` -/
def promoteAssignment (assignmentId : String) : Action Reply := do
  let promoted ← mutateWithAuthorityInvariants ctx do
    let value ← setPrimaryWithinTransaction .readCommitted ctx assignmentId
    match value with
    | none => pure none
    | some value =>
      let _ ← syncUsersRoleFromPrimary .readCommitted ctx value.userId
      pure (some value)
  if promoted.isSome then pure .ok else .fail .notFound

/-- `PATCH /role-assignments/:assignmentId` with `isActive: true` -/
def activateAssignment (assignmentId : String) : Action Reply := do
  let activated ← mutateWithAuthorityInvariants ctx do
    let result ← activateWithinTransaction .readCommitted ctx assignmentId
    match result with
    | none => pure none
    | some (value, changed) =>
      if changed ∧ value.isPrimary then
        let _ ← syncUsersRoleFromPrimary .readCommitted ctx value.userId
      pure (some value)
  if activated.isSome then pure .ok else .fail .notFound

/-- `PATCH /role-assignments/:assignmentId` with `isActive: false` -/
def deactivateAssignment (assignmentId : String) : Action Reply := do
  let targetAssignment ← findAssignment .readCommitted ctx assignmentId
  if targetAssignment.isNone then .fail .notFound
  else
    mutateWithEffectiveAdminPostcondition ctx do
      let result ← deactivateWithinTransaction .readCommitted ctx assignmentId
      match result with
      | none => pure ()
      | some result =>
        if result.isPrimary then
          let _ ← syncUsersRoleFromPrimary .readCommitted ctx result.userId
    pure .ok

/-- `DELETE /role-assignments/:assignmentId` -/
def removeAssignment (assignmentId : String) : Action Reply := do
  let targetAssignment ← findAssignment .readCommitted ctx assignmentId
  if targetAssignment.isNone then .fail .notFound
  else
    mutateWithEffectiveAdminPostcondition ctx do
      let result ← removeWithinTransaction .readCommitted ctx assignmentId
      match result with
      | none => pure ()
      | some result =>
        if result.isPrimary then
          let _ ← syncUsersRoleFromPrimary .readCommitted ctx result.userId
    pure .ok

/-! ## Staff invitations -/

/-- `POST /invitations` -/
def createInvitation (id email : String) (role : AssignableRole) (tokenHash : String) (now : Int) :
    Action Reply := do
  let iso ← beginRepeatableRead
  let invitation ← createInvitationWithinTransaction iso ctx id email role tokenHash
    (now + invitationTtlMs) now
  pure (.created invitation.id)

/-- `DELETE /invitations/:id` -/
def revokeInvitation (id : String) (now : Int) : Action Reply := do
  let iso ← beginRepeatableRead
  let revoked ← revokeById iso ctx id now
  pure (if revoked.isSome then .ok else .notFound)

structure AcceptInvitation where
  tokenHash : String
  username : String
  name : String
  passwordHash : String
  deriving DecidableEq, Repr

/-- `POST /invitations/accept` -/
def acceptInvitation (id : String) (new : NewRow) (data : AcceptInvitation) (now : Int) :
    Action Reply := do
  let created ← mutateWithAuthorityInvariants ctx do
    let invitation ← consumeByTokenHashWithinTransaction .readCommitted ctx data.tokenHash now
    match invitation with
    | none => pure none
    | some invitation =>
      let user : User :=
        ⟨id, ctx.organizationId, data.username, data.passwordHash, data.name, invitation.role, true,
          some invitation.email, 0⟩
      createUnique .readCommitted ctx user
      let _ ← assignWithinTransaction .readCommitted ctx new user.id invitation.role true true
      pure (some user)
  match created with
  | none => pure .invitationInvalid
  | some user => pure (.created user.id)

/-! ## Passwords and sessions -/

/-- The readings of the clock by a reset request: for the cooldown, for the
expiry and for the supersede. -/
structure ResetClock where
  cooldown : Int
  expiry : Int
  issue : Int
  deriving DecidableEq, Repr

/-- `POST /password-reset/request` -/
def requestPasswordReset (new : NewRow) (username tokenHash : String) (clock : ResetClock) :
      Action Reply := do
  let locked ← lockByUsernameWithinTransaction .readCommitted ctx username
  match locked with
  | none => pure (.resetRequested .unknownUser)
  | some user =>
    if !user.isActive then pure (.resetRequested .disabledUser)
    else if user.email.isNone then pure (.resetRequested .noEmail)
    else
      let latest ← getLatestCreatedAt .readCommitted ctx user.id
      if latest.any fun createdAt => clock.cooldown - createdAt < passwordResetCooldownMs then
        pure (.resetRequested .cooldown)
      else
        let _ ← issueWithinTransaction .readCommitted ctx new user.id tokenHash
          (clock.expiry + passwordResetTtlMs) clock.issue
        pure (.resetRequested .issued)

/-- `POST /password-reset/consume`; the clock is read once to identify the token
and once to consume it. -/
def consumePasswordReset (tokenHash passwordHash : String) (identifiedAt consumedAt : Int) :
    Action Reply := do
  let identified ← findOpenUserIdByTokenHash .readCommitted ctx tokenHash identifiedAt
  match identified with
  | none => pure .passwordResetInvalid
  | some userId =>
    let locked ← lockByIdWithinTransaction .readCommitted ctx userId
    match locked with
    | none => pure .passwordResetInvalid
    | some user =>
      if !user.isActive then pure .passwordResetInvalid
      else
        let consumed ← consumeByTokenHashForUserWithinTransaction .readCommitted ctx tokenHash
          userId consumedAt
        match consumed with
        | none => pure .passwordResetInvalid
        | some token =>
          let updated ← updatePasswordAndAdvanceAuthEpoch .readCommitted ⟨token.organizationId,
            token.userId⟩ token.userId passwordHash
          pure (if updated.isSome then .ok else .passwordResetInvalid)

/-- `POST /logout` with a valid token of the actor, issued under `authEpoch`. -/
def logout (authEpoch : Nat) : Action Reply := do
  let _ ← advanceAuthEpochIfCurrent .readCommitted ctx ctx.actorId authEpoch
  pure .ok

/-- `PATCH /me/password` -/
def changePassword [PasswordVerifier] (currentPassword passwordHash : String) : Action Reply := do
  let user ← findByOrganizationAndId .readCommitted ctx ctx.actorId
  match user with
  | none => pure .notFound
  | some user =>
    if PasswordVerifier.verifyPassword currentPassword user.passwordHash then
      let iso ← beginRepeatableRead
      let updated ← updatePasswordAndAdvanceAuthEpoch iso ctx user.id passwordHash
      pure (if updated.isSome then .ok else .notFound)
    else pure .currentPasswordInvalid

/-- `PATCH /me/profile` -/
def updateProfile (name : String) : Action Reply := do
  let updated ← updateUser .readCommitted ctx ctx.actorId { name := some name }
  pure (if updated.isSome then .ok else .notFound)

end

/-! ## Requests -/

inductive AccountCommand
  | createUser (id : String) (new : NewRow) (data : CreateUser)
  | updateUser (id : String) (new : NewRow) (data : UpdateUser)
  | resetPassword (id passwordHash : String)
  | resetAdminPassword (username passwordHash : String)
  | deleteUser (id : String)
  | createCandidate (id : String) (new : NewRow) (profileId : String) (data : CreateCandidate)
  | updateCandidate (id : String) (data : UpdateCandidate)
  | assignRole (new : NewRow) (id : String) (role : AssignableRole) (isPrimary : Bool)
  | promoteAssignment (assignmentId : String)
  | activateAssignment (assignmentId : String)
  | deactivateAssignment (assignmentId : String)
  | removeAssignment (assignmentId : String)
  | createInvitation (id email : String) (role : AssignableRole) (tokenHash : String) (now : Int)
  | revokeInvitation (id : String) (now : Int)
  | acceptInvitation (id : String) (new : NewRow) (data : AcceptInvitation) (now : Int)
  | requestPasswordReset (new : NewRow) (username tokenHash : String) (clock : ResetClock)
  | consumePasswordReset (tokenHash passwordHash : String) (identifiedAt consumedAt : Int)
  | logout (authEpoch : Nat)
  | changePassword (currentPassword passwordHash : String)
  | updateProfile (name : String)
  deriving DecidableEq, Repr

structure Request where
  ctx : Context
  command : AccountCommand
  deriving DecidableEq, Repr

def Request.program [PasswordVerifier] (r : Request) : Action Reply :=
  match r.command with
  | .createUser id new data => createUser r.ctx id new data
  | .updateUser id new data => updateUserRoute r.ctx id new data
  | .resetPassword id passwordHash => resetPassword r.ctx id passwordHash
  | .resetAdminPassword username passwordHash => resetAdminPassword r.ctx username passwordHash
  | .deleteUser id => deleteUser r.ctx id
  | .createCandidate id new profileId data => createCandidate r.ctx id new profileId data
  | .updateCandidate id data => updateCandidate r.ctx id data
  | .assignRole new id role isPrimary => assignRole r.ctx new id role isPrimary
  | .promoteAssignment assignmentId => promoteAssignment r.ctx assignmentId
  | .activateAssignment assignmentId => activateAssignment r.ctx assignmentId
  | .deactivateAssignment assignmentId => deactivateAssignment r.ctx assignmentId
  | .removeAssignment assignmentId => removeAssignment r.ctx assignmentId
  | .createInvitation id email role tokenHash now => createInvitation r.ctx id email role tokenHash now
  | .revokeInvitation id now => revokeInvitation r.ctx id now
  | .acceptInvitation id new data now => acceptInvitation r.ctx id new data now
  | .requestPasswordReset new username tokenHash clock =>
    requestPasswordReset r.ctx new username tokenHash clock
  | .consumePasswordReset tokenHash passwordHash identifiedAt consumedAt =>
    consumePasswordReset r.ctx tokenHash passwordHash identifiedAt consumedAt
  | .logout authEpoch => logout r.ctx authEpoch
  | .changePassword currentPassword passwordHash => changePassword r.ctx currentPassword passwordHash
  | .updateProfile name => updateProfile r.ctx name

abbrev AccountMachine := Machine Db Write LockKey AccountError Request Reply

abbrev AccountCommit := Commit Db LockKey Request Reply

end ExamSystem.Accounts
