import ExamSystem.AccountRuns
import ExamSystem.Outcomes

/-!
# Sessions of accounts

A login issues a token with the epoch of the account, and a request is
authenticated by comparing the two. Logouts, credential changes and
deactivations are the account commands; the run interleaves all of them.
-/

namespace ExamSystem.Accounts

open Interleaving

structure JwtPayload where
  actorId : String
  organizationId : String
  authEpoch : Nat
  deriving DecidableEq, Repr

inductive SessionReply
  | loggedIn (payload : JwtPayload)
  | authenticated (actorId : String) (authority : AssignmentAuthority)
  | authRequired
  | invalidCredentials
  | authzUnavailable
  | route (reply : Reply)
  | updated (reply : Reply) (read : Option User)
  deriving DecidableEq, Repr

def ASSIGNABLE_LOGIN_ROLES : List AssignableRole :=
  [.admin, .teacher, .proctor, .grader, .candidate, .maintainer]

def loadAssignmentAuthority (ctx : Context) (userId : String) :
    Action (Except AuthorityFailure AssignmentAuthority) :=
  query .readCommitted fun db => deriveAssignmentAuthority
    (listActiveForUser ctx userId db) ctx.organizationId userId

/-- `POST /login` -/
def login [PasswordVerifier] (organizationId username password : String) : Action SessionReply := do
  let user ← findByOrganizationAndUsername .readCommitted ⟨organizationId, "anonymous"⟩ username
  match user with
  | none => pure .invalidCredentials
  | some user =>
    if user.isActive && PasswordVerifier.verifyPassword password user.passwordHash then
      let authority ← loadAssignmentAuthority ⟨user.organizationId, user.id⟩ user.id
      match authority with
      | .error .noActiveAssignments => pure .invalidCredentials
      | .error .dualAdminMaintainer => pure .invalidCredentials
      | .error _ => pure .authzUnavailable
      | .ok authority =>
        if authority.primaryRole ∈ ASSIGNABLE_LOGIN_ROLES then
          pure (.loggedIn
            { actorId := user.id, organizationId := user.organizationId, authEpoch := user.authEpoch })
        else pure .invalidCredentials
    else pure .invalidCredentials

/-- The check of a token before every protected route. -/
def authenticate (payload : JwtPayload) : Action SessionReply := do
  let user ← findByOrganizationAndId .readCommitted ⟨payload.organizationId,
    payload.actorId⟩ payload.actorId
  match user with
  | none => pure .authRequired
  | some user =>
    if !user.isActive then pure .authRequired
    else if payload.authEpoch ≠ user.authEpoch then pure .authRequired
    else
      let authority ← loadAssignmentAuthority ⟨user.organizationId, user.id⟩ user.id
      match authority with
      | .error .noActiveAssignments => pure .authRequired
      | .error _ => pure .authzUnavailable
      | .ok authority => pure (.authenticated user.id authority)

/-- `PATCH /users/:id`, with the account as it was read before the transaction. -/
def readAndUpdateUser (ctx : Context) (id : String) (new : NewRow) (data : UpdateUser) :
    Action (Reply × Option User) :=
  if id = ctx.actorId ∧ data.isActive = some false then .fail .cannotDisableSelf
  else do
    let target ← findByOrganizationAndId .readCommitted ctx id
    match target with
    | none => pure (.notFound, none)
    | some target =>
      let finalUser ← mutateWithEffectiveAdminPostcondition ctx
        (updateUserMutation ctx id new data target)
      pure (if finalUser.isSome then .ok else .notFound, some target)

theorem readAndUpdateUser_route (ctx : Context) (id : String) (new : NewRow) (data : UpdateUser) :
    (readAndUpdateUser ctx id new data >>= fun r => .done r.1) = updateUserRoute ctx id new data := by
  unfold readAndUpdateUser updateUserRoute
  split
  · rfl
  · rw [Prog.bind_assoc]
    congr 1
    funext target
    cases target with
    | none => rfl
    | some target =>
      dsimp only
      rw [Prog.bind_assoc]
      congr 1

/-! ## Requests -/

inductive SessionCommand
  | login (username password : String)
  | authenticate (payload : JwtPayload)
  | logout (payload : JwtPayload)
  | changePassword (currentPassword passwordHash : String)
  | requestPasswordReset (new : NewRow) (username tokenHash : String) (clock : ResetClock)
  | consumePasswordReset (tokenHash passwordHash : String) (identifiedAt consumedAt : Int)
  | resetPassword (id passwordHash : String)
  | resetAdminPassword (username passwordHash : String)
  | updateUser (id : String) (new : NewRow) (data : UpdateUser)
  | updateCandidate (id : String) (data : UpdateCandidate)
  deriving DecidableEq, Repr

structure SessionRequest where
  requestId : Nat
  ctx : Context
  command : SessionCommand
  deriving DecidableEq, Repr

/-- The account command of a request. A logout acts for the token it presents. -/
def SessionRequest.account (r : SessionRequest) : Option Request :=
  match r.command with
  | .login _ _ | .authenticate _ => none
  | .logout payload => some ⟨⟨payload.organizationId, payload.actorId⟩, .logout payload.authEpoch⟩
  | .changePassword currentPassword passwordHash =>
    some ⟨r.ctx, .changePassword currentPassword passwordHash⟩
  | .requestPasswordReset new username tokenHash clock =>
    some ⟨r.ctx, .requestPasswordReset new username tokenHash clock⟩
  | .consumePasswordReset tokenHash passwordHash identifiedAt consumedAt =>
    some ⟨r.ctx, .consumePasswordReset tokenHash passwordHash identifiedAt consumedAt⟩
  | .resetPassword id passwordHash => some ⟨r.ctx, .resetPassword id passwordHash⟩
  | .resetAdminPassword username passwordHash => some ⟨r.ctx, .resetAdminPassword username passwordHash⟩
  | .updateUser id new data => some ⟨r.ctx, .updateUser id new data⟩
  | .updateCandidate id data => some ⟨r.ctx, .updateCandidate id data⟩

def answer (p : Action Reply) : Action SessionReply := p >>= fun reply => .done (.route reply)

def SessionRequest.program [PasswordVerifier] (r : SessionRequest) : Action SessionReply :=
  match r.command with
  | .login username password => login r.ctx.organizationId username password
  | .authenticate payload => authenticate payload
  | .logout payload => answer (logout ⟨payload.organizationId, payload.actorId⟩ payload.authEpoch)
  | .changePassword currentPassword passwordHash =>
    answer (changePassword r.ctx currentPassword passwordHash)
  | .requestPasswordReset new username tokenHash clock =>
    answer (requestPasswordReset r.ctx new username tokenHash clock)
  | .consumePasswordReset tokenHash passwordHash identifiedAt consumedAt =>
    answer (consumePasswordReset r.ctx tokenHash passwordHash identifiedAt consumedAt)
  | .resetPassword id passwordHash => answer (resetPassword r.ctx id passwordHash)
  | .resetAdminPassword username passwordHash => answer (resetAdminPassword r.ctx username passwordHash)
  | .updateUser id new data => readAndUpdateUser r.ctx id new data >>= fun r => .done (.updated r.1 r.2)
  | .updateCandidate id data => answer (updateCandidate r.ctx id data)

abbrev SessionMachine := Machine Db Write LockKey AccountError SessionRequest SessionReply

abbrev SessionCommit := Commit Db LockKey SessionRequest SessionReply

def sessionRun [PasswordVerifier] (db : Db) (es : List (Event SessionRequest)) : SessionMachine :=
  Machine.run SessionRequest.program (Machine.idle db) es

/-! ## Revocation -/

def Deactivates (c : SessionCommit) (userId : String) : Prop :=
  ∃ u v, c.before.users.get userId = some u ∧ u.isActive = true ∧
    c.after.users.get userId = some v ∧ v.isActive = false

def ChangesCredential (c : SessionCommit) (userId : String) : Prop :=
  ∃ u v, c.before.users.get userId = some u ∧ c.after.users.get userId = some v ∧
    u.passwordHash ≠ v.passwordHash

def ConsumesToken (c : SessionCommit) (userId tokenHash : String) : Prop :=
  ∃ passwordHash identifiedAt now k t, c.request.command = .consumePasswordReset tokenHash
    passwordHash identifiedAt now ∧
    c.reply = .route .ok ∧ c.before.tokens.get k = some t ∧ t.tokenHash = tokenHash ∧ t.userId = userId

def IssuesToken (c : SessionCommit) (userId tokenHash : String) : Prop :=
  ∃ new username clock t, c.request.command = .requestPasswordReset new username tokenHash clock ∧
    c.reply = .route (.resetRequested .issued) ∧ c.after.tokens.get new.id = some t ∧
    t.tokenHash = tokenHash ∧ t.userId = userId

section
variable [PasswordVerifier]

def SentWithToken (db : Db) (es : List (Event SessionRequest)) (r : SessionRequest)
    (payload : JwtPayload) : Prop :=
  ∃ es₀, es₀ <+: es ∧ (∃ l ∈ (sessionRun db es₀).history, l.reply = .loggedIn payload) ∧
    (sessionRun db es₀).NotInFlight r

/-- The commit ends the sessions of the payload: a change of the password, a
deactivation, or a logout that presents the payload. -/
def EndsSession (db : Db) (es : List (Event SessionRequest)) (c : SessionCommit)
    (payload : JwtPayload) : Prop :=
  ChangesCredential c payload.actorId ∨ Deactivates c payload.actorId ∨
    c.request.command = .logout payload ∧ SentWithToken db es c.request payload

/-- Revocation over a run: a token issued in its first part and revoked in its
second is not accepted by a check that starts in its third, and a reset token
consumed after a deactivation was issued after it. -/
structure PermanentlyRevoked (db : Db) (es : List (Event SessionRequest)) : Prop where
  sessions : ∀ es₁ es₂ es₃, es = es₁ ++ es₂ ++ es₃ → ∀ l ∈ (sessionRun db es₁).history,
    ∀ payload, l.reply = .loggedIn payload →
    ∀ c ∈ (sessionRun db (es₁ ++ es₂)).history.drop (sessionRun db es₁).history.length,
    EndsSession db es₁ c payload →
    ∀ a ∈ (sessionRun db es).history.drop (sessionRun db (es₁ ++ es₂)).history.length,
      a.request.command = .authenticate payload →
      (sessionRun db (es₁ ++ es₂)).NotInFlight a.request → a.reply = .authRequired
  tokens : ∀ cs c ds d fs userId tokenHash, (sessionRun db es).history = cs ++ c :: ds ++ d :: fs →
    Deactivates c userId →
    ConsumesToken d userId tokenHash → ∃ e ∈ ds, IssuesToken e userId tokenHash

end

/-- A candidate update does not deactivate an active account, and a user update
that deactivates one had read it as active. -/
def RevokesWhatItDisables (c : SessionCommit) : Prop :=
  match c.request.command with
  | .updateCandidate id data => data.isActive = some false → ∀ p u, c.before.profiles.get id = some p →
    p.organizationId = c.request.ctx.organizationId → c.before.users.get p.userId = some u →
    u.isActive = false
  | .updateUser id _ data => data.isActive = some false → ∀ u, c.before.users.get id = some u →
      u.isActive = true →
    ∀ reply target, c.reply = .updated reply (some target) → target.isActive = true
  | _ => True

end ExamSystem.Accounts
