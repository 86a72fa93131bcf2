import ExamSystem.Table
import ExamSystem.ProofOutline

/-!
# The store of accounts

Users, role assignments, candidate profiles, password-reset tokens and staff
invitations, with the statements the repositories send. An `UPDATE` or `DELETE`
finds its rows in a snapshot, waits for their locks and looks at them again: a
READ COMMITTED statement works on the rows that still match, a REPEATABLE READ
one fails when a row has changed. A row locks its key and its index entries.
-/

namespace ExamSystem.Accounts

open Interleaving

/-! ## Rows -/

inductive AssignableRole
  | admin | teacher | proctor | grader | candidate | maintainer
  deriving DecidableEq, Repr

structure User where
  id : String
  organizationId : String
  username : String
  passwordHash : String
  name : String
  role : AssignableRole
  isActive : Bool
  email : Option String
  authEpoch : Nat
  deriving DecidableEq, Repr

structure UserRoleAssignment where
  id : String
  organizationId : String
  userId : String
  role : AssignableRole
  isPrimary : Bool
  isActive : Bool
  createdAt : Int
  deriving DecidableEq, Repr

structure CandidateProfile where
  id : String
  organizationId : String
  userId : String
  deriving DecidableEq, Repr

structure PasswordResetToken where
  id : String
  organizationId : String
  userId : String
  tokenHash : String
  expiresAt : Int
  consumedAt : Option Int
  createdAt : Int
  deriving DecidableEq, Repr

structure StaffInvitation where
  id : String
  organizationId : String
  email : String
  role : AssignableRole
  tokenHash : String
  expiresAt : Int
  consumedAt : Option Int
  revokedAt : Option Int
  createdBy : String
  deriving DecidableEq, Repr

def PasswordResetToken.isOpen (t : PasswordResetToken) : Bool := t.consumedAt.isNone

def StaffInvitation.isOpen (i : StaffInvitation) : Bool := i.consumedAt.isNone && i.revokedAt.isNone

structure Db where
  users : Table User.id
  assignments : Table UserRoleAssignment.id
  profiles : Table CandidateProfile.id
  tokens : Table PasswordResetToken.id
  invitations : Table StaffInvitation.id
  deriving DecidableEq

/-! ## Errors and locks -/

inductive AccountError
  | notFound
  | cannotDisableSelf
  | adminMaintainerExclusion (userId adminAssignmentId maintainerAssignmentId : String)
  | lastActiveAdmin
  | userAlreadyExists
  | invitationConflict
  | passwordResetCooldown
  | uniqueViolation (index : String)
  | foreignKeyViolation (constraint : String)
  | serializationFailure
  deriving DecidableEq, Repr

/-- What a statement locks: the advisory lock of an organization, rows, and the
entries of unique indexes. -/
inductive LockKey
  | authority (organizationId : String)
  | user (id : String)
  | username (organizationId username : String)
  | assignment (id : String)
  | assignmentRole (organizationId userId : String) (role : AssignableRole)
  | activePrimary (organizationId userId : String)
  | profile (id : String)
  | profileUser (organizationId userId : String)
  | token (id : String)
  | tokenHash (tokenHash : String)
  | openToken (userId : String)
  | invitation (id : String)
  | invitationHash (tokenHash : String)
  | openInvitation (organizationId email : String)
  deriving DecidableEq, Repr

def User.keys (u : User) : List LockKey := [.user u.id, .username u.organizationId u.username]

def UserRoleAssignment.keys (a : UserRoleAssignment) : List LockKey :=
  [.assignment a.id, .assignmentRole a.organizationId a.userId a.role,
    .activePrimary a.organizationId a.userId]

def CandidateProfile.keys (p : CandidateProfile) : List LockKey :=
  [.profile p.id, .profileUser p.organizationId p.userId]

def PasswordResetToken.keys (t : PasswordResetToken) : List LockKey :=
  [.token t.id, .tokenHash t.tokenHash, .openToken t.userId]

def StaffInvitation.keys (i : StaffInvitation) : List LockKey :=
  [.invitation i.id, .invitationHash i.tokenHash, .openInvitation i.organizationId i.email]

/-! ## Writes -/

/-- The columns an `UPDATE users` sets. -/
structure UserPatch where
  name : Option String := none
  isActive : Option Bool := none
  email : Option (Option String) := none
  role : Option AssignableRole := none
  passwordHash : Option String := none
  advanceAuthEpoch : Bool := false
  deriving DecidableEq, Repr

def UserPatch.set (p : UserPatch) (u : User) : User :=
  { u with
    name := p.name.getD u.name
    isActive := p.isActive.getD u.isActive
    email := p.email.getD u.email
    role := p.role.getD u.role
    passwordHash := p.passwordHash.getD u.passwordHash
    authEpoch := if p.advanceAuthEpoch then u.authEpoch + 1 else u.authEpoch }

/-- The columns an `UPDATE user_role_assignments` sets. -/
structure AssignmentPatch where
  isPrimary : Option Bool := none
  isActive : Option Bool := none
  deriving DecidableEq, Repr

def AssignmentPatch.set (p : AssignmentPatch) (a : UserRoleAssignment) : UserRoleAssignment :=
  { a with isPrimary := p.isPrimary.getD a.isPrimary, isActive := p.isActive.getD a.isActive }

inductive InvitationPatch
  | consumedAt (now : Int)
  | revokedAt (now : Int)
  deriving DecidableEq, Repr

def InvitationPatch.set (p : InvitationPatch) (i : StaffInvitation) : StaffInvitation :=
  match p with
  | .consumedAt t => { i with consumedAt := some t }
  | .revokedAt t => { i with revokedAt := some t }

/-- The row versions a statement writes, one row a write. A write of an assignment
or a token names the user its row belongs to. -/
inductive Write
  | insertUser (u : User)
  | updateUser (id : String) (patch : UserPatch)
  | deleteUser (id : String)
  | insertAssignment (a : UserRoleAssignment)
  | updateAssignment (userId id : String) (patch : AssignmentPatch)
  | deleteAssignment (userId id : String)
  | insertProfile (p : CandidateProfile)
  | insertToken (t : PasswordResetToken)
  | consumeToken (userId id : String) (now : Int)
  | deleteToken (userId id : String)
  | insertInvitation (i : StaffInvitation)
  | updateInvitation (id : String) (patch : InvitationPatch)
  deriving DecidableEq, Repr

namespace Write

def onUsers (w : Write) (t : Table User.id) : Table User.id :=
  match w with
  | insertUser u => t.put u
  | updateUser id patch => t.update (fun u => u.id = id) patch.set fun _ => rfl
  | deleteUser id => t.remove fun u => u.id = id
  | _ => t

def onAssignments (w : Write) (t : Table UserRoleAssignment.id) : Table UserRoleAssignment.id :=
  match w with
  | insertAssignment a => t.put a
  | updateAssignment userId id patch =>
    t.update (fun a => a.userId = userId ∧ a.id = id) patch.set fun _ => rfl
  | deleteAssignment userId id => t.remove fun a => a.userId = userId ∧ a.id = id
  | deleteUser id => t.remove fun a => a.userId = id
  | _ => t

def onProfiles (w : Write) (t : Table CandidateProfile.id) : Table CandidateProfile.id :=
  match w with
  | insertProfile p => t.put p
  | _ => t

def consume (now : Int) (t : PasswordResetToken) : PasswordResetToken :=
  { t with consumedAt := some now }

def onTokens (w : Write) (t : Table PasswordResetToken.id) : Table PasswordResetToken.id :=
  match w with
  | insertToken r => t.put r
  | consumeToken userId id now => t.update (fun r => r.userId = userId ∧ r.id = id)
      (consume now) fun _ => rfl
  | deleteToken userId id => t.remove fun r => r.userId = userId ∧ r.id = id
  | deleteUser id => t.remove fun r => r.userId = id
  | _ => t

theorem set_id (p : InvitationPatch) (i : StaffInvitation) : (p.set i).id = i.id := by cases p <;> rfl

def onInvitations (w : Write) (t : Table StaffInvitation.id) : Table StaffInvitation.id :=
  match w with
  | insertInvitation i => t.put i
  | updateInvitation id patch => t.update (fun i => i.id = id) patch.set (set_id patch)
  | _ => t

def apply (db : Db) (w : Write) : Db :=
  { users := w.onUsers db.users
    assignments := w.onAssignments db.assignments
    profiles := w.onProfiles db.profiles
    tokens := w.onTokens db.tokens
    invitations := w.onInvitations db.invitations }

def keys : Write → List LockKey
  | insertUser u => u.keys
  | updateUser id _ => [.user id]
  | deleteUser id => [.user id]
  | insertAssignment a => a.keys
  | updateAssignment _ id _ => [.assignment id]
  | deleteAssignment _ id => [.assignment id]
  | insertProfile p => p.keys
  | insertToken t => t.keys
  | consumeToken _ id _ => [.token id]
  | deleteToken _ id => [.token id]
  | insertInvitation i => i.keys
  | updateInvitation id _ => [.invitation id]

end Write

/-- The foreign keys between the modelled tables. The shared lock that a foreign
key takes on the row it refers to is not modelled: the check is made again at
the commit. -/
def Db.intact (db : Db) : Bool :=
  db.assignments.rows.all (fun a => (db.users.get a.userId).isSome) &&
  db.profiles.rows.all (fun p => (db.users.get p.userId).isSome) &&
  db.tokens.rows.all (fun t => (db.users.get t.userId).isSome)

instance : Journal Db Write LockKey where
  apply := Write.apply
  keys := Write.keys
  intact := Db.intact

/-! ## Statements -/

abbrev Action := Prog Db Write LockKey AccountError

/-- A READ COMMITTED statement takes its own snapshot, a REPEATABLE READ one
uses that of its transaction. -/
inductive Isolation
  | readCommitted
  | repeatableRead (snapshot : Db)

def Isolation.snapshot : Isolation → Action Db
  | .readCommitted => Prog.select id
  | .repeatableRead snap => pure snap

def Isolation.isRepeatable : Isolation → Bool
  | .readCommitted => false
  | .repeatableRead _ => true

def beginRepeatableRead : Action Isolation := do
  let snap ← Prog.select id
  pure (.repeatableRead snap)

def query {α : Type} (iso : Isolation) (q : Db → α) : Action α := do
  let snap ← iso.snapshot
  pure (q snap)

section
variable {α : Type} {key : α → String} (table : Db → Table key)

/-- The rows found, as they are now, that still match. -/
def again (p : α → Bool) (found : List α) (t : Table key) : List α :=
  (found.filterMap fun r => t.get (key r)).filter p

/-- An `UPDATE`, a `DELETE` or a `SELECT … FOR UPDATE` on the rows that `p`
selects. It returns the rows it works on as they were before. -/
def modifyRows [DecidableEq α] (iso : Isolation) (rowKeys : α → List LockKey) (p : Db → α → Bool)
    (write : α → List Write) (check : Db → List α → Option AccountError) : Action (List α) := do
  let snap ← iso.snapshot
  let found := (table snap).rows.filter (p snap)
  .stmt (fun _ => found.flatMap rowKeys)
    (fun db => (again (p db) found (table db)).flatMap write) fun db =>
    let rows := again (p db) found (table db)
    if iso.isRepeatable ∧ ∃ r ∈ found, (table db).get (key r) ≠ some r then .fail .serializationFailure
    else match check db rows with
      | some e => .fail e
      | none => .done rows

/-- An `INSERT`: it waits for the entries it makes, then the constraints are checked. -/
def insertRow (w : Write) (check : Db → Option AccountError) : Action Unit :=
  .stmt (fun _ => w.keys) (fun db => if (check db).isNone then [w] else []) fun db =>
    match check db with
    | some e => .fail e
    | none => .done ()

end

end ExamSystem.Accounts
