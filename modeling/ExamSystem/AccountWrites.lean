import ExamSystem.AccountRoutes

/-!
# What a write does to a row, and what a command may write

A write is described by what it leaves at each key of each table, so a log acts
on a row as the composition of its writes. `mayWrite` says once which writes each
command may make; every frame fact about a command is read off it.
-/

namespace ExamSystem.Accounts

open Interleaving

/-! ## Rows -/

namespace Write

def userAt (w : Write) (k : String) (o : Option User) : Option User :=
  match w with
  | insertUser u => if k = u.id then some u else o
  | updateUser id patch => if k = id then o.map patch.set else o
  | deleteUser id => if k = id then none else o
  | _ => o

def assignmentAt (w : Write) (k : String) (o : Option UserRoleAssignment) : Option UserRoleAssignment :=
  match w with
  | insertAssignment a => if k = a.id then some a else o
  | updateAssignment userId id patch => if k = id then o.map fun a =>
    if a.userId = userId then patch.set a else a else o
  | deleteAssignment userId id => if k = id then o.filter fun a => a.userId ≠ userId else o
  | deleteUser id => o.filter fun a => a.userId ≠ id
  | _ => o

def tokenAt (w : Write) (k : String) (o : Option PasswordResetToken) : Option PasswordResetToken :=
  match w with
  | insertToken t => if k = t.id then some t else o
  | consumeToken userId id now => if k = id then o.map fun t =>
    if t.userId = userId then consume now t else t else o
  | deleteToken userId id => if k = id then o.filter fun t => t.userId ≠ userId else o
  | deleteUser id => o.filter fun t => t.userId ≠ id
  | _ => o

def invitationAt (w : Write) (k : String) (o : Option StaffInvitation) : Option StaffInvitation :=
  match w with
  | insertInvitation i => if k = i.id then some i else o
  | updateInvitation id patch => if k = id then o.map patch.set else o
  | _ => o

def profileAt (w : Write) (k : String) (o : Option CandidateProfile) : Option CandidateProfile :=
  match w with
  | insertProfile p => if k = p.id then some p else o
  | _ => o

end Write

section
variable (db : Db) (w : Write) (k : String)

theorem get_users : (Journal.apply db w).users.get k = w.userAt k (db.users.get k) := by
  cases w with
  | insertUser u => exact Table.get_put db.users u k
  | updateUser id patch =>
    refine (Table.get_update_at db.users (fun u => u.id = id) (fun _ => true) patch.set id (by simp)
        (fun _ => rfl) k).trans ?_
    simp [Write.userAt]
  | deleteUser id =>
    refine (Table.get_remove_at db.users (fun u => u.id = id) (fun _ => true) id (by simp) k).trans ?_
    simp [Write.userAt]
  | _ => rfl

theorem get_assignments :
    (Journal.apply db w).assignments.get k = w.assignmentAt k (db.assignments.get k) := by
  cases w with
  | insertAssignment a => exact Table.get_put db.assignments a k
  | updateAssignment userId id patch =>
    refine (Table.get_update_at db.assignments (fun a => a.userId = userId ∧ a.id = id)
        (fun a => a.userId = userId) patch.set id
      (by simp [and_comm]) (fun _ => rfl) k).trans ?_
    simp [Write.assignmentAt]
  | deleteAssignment userId id =>
    refine (Table.get_remove_at db.assignments (fun a => a.userId = userId ∧ a.id = id)
        (fun a => a.userId = userId) id
      (by simp [and_comm]) k).trans ?_
    simp [Write.assignmentAt]
  | deleteUser id =>
    refine (Table.get_remove db.assignments _ k).trans ?_
    simp [Write.assignmentAt]
  | _ => rfl

theorem get_tokens : (Journal.apply db w).tokens.get k = w.tokenAt k (db.tokens.get k) := by
  cases w with
  | insertToken t => exact Table.get_put db.tokens t k
  | consumeToken userId id now =>
    refine (Table.get_update_at db.tokens (fun t => t.userId = userId ∧ t.id = id)
        (fun t => t.userId = userId) (Write.consume now) id
      (by simp [and_comm]) (fun _ => rfl) k).trans ?_
    simp [Write.tokenAt]
  | deleteToken userId id =>
    refine (Table.get_remove_at db.tokens (fun t => t.userId = userId ∧ t.id = id)
        (fun t => t.userId = userId) id
      (by simp [and_comm]) k).trans ?_
    simp [Write.tokenAt]
  | deleteUser id =>
    refine (Table.get_remove db.tokens _ k).trans ?_
    simp [Write.tokenAt]
  | _ => rfl

theorem get_invitations :
    (Journal.apply db w).invitations.get k = w.invitationAt k (db.invitations.get k) := by
  cases w with
  | insertInvitation i => exact Table.get_put db.invitations i k
  | updateInvitation id patch =>
    refine (Table.get_update_at db.invitations (fun i => i.id = id) (fun _ => true) patch.set id
        (by simp) (Write.set_id patch) k).trans ?_
    simp [Write.invitationAt]
  | _ => rfl

theorem get_profiles : (Journal.apply db w).profiles.get k = w.profileAt k (db.profiles.get k) := by
  cases w with
  | insertProfile p => exact Table.get_put db.profiles p k
  | _ => rfl

end

/-! ## Writes of the repository operations -/

section
variable {P : Write → Prop} {iso : Isolation} {ctx : Context} {α : Type}

theorem emits_snapshot : iso.snapshot.Emits P := by
  cases iso with
  | readCommitted => exact Prog.emits_select id
  | repeatableRead snap => exact trivial

theorem emits_query (q : Db → α) : (query iso q).Emits P :=
  Prog.emits_bind emits_snapshot fun _ => trivial

theorem emits_beginRepeatableRead : beginRepeatableRead.Emits P :=
  Prog.emits_bind (Prog.emits_select id) fun _ => trivial

theorem of_mem_again {key : α → String} {t : Table key} {p : α → Bool} {found : List α} {r : α}
    (h : r ∈ again p found t) :
    p r = true ∧ t.get (key r) = some r := by
  obtain ⟨h, hp⟩ := List.mem_filter.mp h
  obtain ⟨x, _, hx⟩ := List.mem_filterMap.mp h
  exact ⟨hp, Table.get_of_mem (Table.mem_of_get hx)⟩

theorem emits_modifyRows {key : α → String} {table : Db → Table key} [DecidableEq α]
    {rowKeys : α → List LockKey} {p : Db → α → Bool} {write : α → List Write}
    {check : Db → List α → Option AccountError} (h : ∀ db r, p db r = true → ∀ w ∈ write r, P w) :
    (modifyRows table iso rowKeys p write check).Emits P := by
  apply Prog.emits_bind emits_snapshot
  intro snap db
  constructor
  · intro w hw
    obtain ⟨r, hr, hw⟩ := List.mem_flatMap.mp hw
    exact h db r (of_mem_again hr).1 w hw
  · dsimp only
    split
    · exact trivial
    · split <;> exact trivial

theorem emits_insertRow {w : Write} {check : Db → Option AccountError} (h : P w) :
    (insertRow w check).Emits P := by
  intro db
  constructor
  · intro v hv
    dsimp only at hv
    split at hv
    · rw [List.mem_singleton.mp hv]; exact h
    · cases hv
  · dsimp only
    split <;> exact trivial

theorem emits_lockUsers {p : User → Bool} : (lockUsers iso p).Emits P :=
  Prog.emits_bind (emits_modifyRows fun _ _ _ w hw => by cases hw) fun _ => trivial

theorem emits_updateUsers {p : User → Bool} {patch : UserPatch}
    (h : ∀ u, p u = true → P (.updateUser u.id patch)) :
    (updateUsers iso p patch).Emits P := by
  refine Prog.emits_bind (emits_modifyRows ?_) fun _ => trivial
  intro _ u hu w hw
  rw [List.mem_singleton.mp hw]
  exact h u hu

theorem ofUser_id {id : String} {u : User} (h : ofUser ctx id u = true) : u.id = id := by
  simp only [ofUser, decide_eq_true_eq] at h
  exact h.2

theorem emits_updateUser {id : String} {patch : UserPatch} (h : P (.updateUser id patch)) :
    (updateUser iso ctx id patch).Emits P :=
  emits_updateUsers fun u hu => by rw [ofUser_id hu]; exact h

theorem emits_createUnique {u : User} (h : P (.insertUser u)) : (createUnique iso ctx u).Emits P := by
  apply Prog.emits_bind (emits_query _)
  intro existing
  split
  · exact trivial
  · exact emits_insertRow h

theorem emits_deleteUserRow {id : String} (h : P (.deleteUser id)) :
    (deleteUserRow iso ctx id).Emits P := by
  refine Prog.emits_bind (emits_modifyRows ?_) fun _ => trivial
  intro _ u hu w hw
  rw [List.mem_singleton.mp hw, ofUser_id hu]
  exact h

theorem emits_updateAssignments {p : UserRoleAssignment → Bool} {patch : AssignmentPatch}
    (h : ∀ a, p a = true → P (.updateAssignment a.userId a.id patch)) :
    (updateAssignments iso p patch).Emits P := by
  refine Prog.emits_bind (emits_modifyRows ?_) fun _ => trivial
  intro _ a ha w hw
  rw [List.mem_singleton.mp hw]
  exact h a ha

theorem emits_insertAssignment {a : UserRoleAssignment} (h : P (.insertAssignment a)) :
    (insertAssignment a).Emits P :=
  Prog.emits_bind (emits_insertRow h) fun _ => trivial

theorem ofAssignee_userId {userId : String} {a : UserRoleAssignment}
    (h : ofAssignee ctx userId a = true) : a.userId = userId := by
  simp only [ofAssignee, decide_eq_true_eq] at h
  exact h.2

section
variable {new : NewRow} {userId assignmentId : String} {role : AssignableRole}
    {isPrimary isActive : Bool}

theorem emits_assign (hd : ∀ k, P (.updateAssignment userId k demote))
    (hi : P (.insertAssignment (newAssignment ctx new userId role isPrimary isActive))) :
    (assignWithinTransaction iso ctx new userId role isPrimary isActive).Emits P := by
  have hdemote : (updateAssignments iso (fun a => ofAssignee ctx userId a && a.isPrimary)
      demote).Emits P := by
    apply emits_updateAssignments
    intro a ha
    rw [ofAssignee_userId (Bool.and_eq_true_iff.mp ha).1]
    exact hd a.id
  unfold assignWithinTransaction
  split
  · exact Prog.emits_bind hdemote fun _ => emits_insertAssignment hi
  · exact emits_insertAssignment hi

theorem emits_ensurePrimary (hd : ∀ k, P (.updateAssignment userId k demote))
    (hp : ∀ u k, P (.updateAssignment u k promote))
    (hi : P (.insertAssignment (newAssignment ctx new userId role true true))) :
    (ensurePrimaryAssignmentWithinTransaction iso ctx new userId role).Emits P := by
  refine Prog.emits_bind (emits_updateAssignments ?_) fun _ => Prog.emits_bind (emits_query _) ?_
  · intro a ha
    rw [ofAssignee_userId (Bool.and_eq_true_iff.mp ha).1]
    exact hd a.id
  · intro existing
    cases existing with
    | some e => exact emits_updateAssignments fun a _ => hp a.userId a.id
    | none => exact Prog.emits_bind (emits_insertAssignment hi) fun _ => trivial

theorem emits_replacePrimary (hf : ∀ k, P (.updateAssignment userId k { isActive := some false }))
    (hd : ∀ k, P (.updateAssignment userId k demote)) (hp : ∀ u k, P (.updateAssignment u k promote))
    (hi : P (.insertAssignment (newAssignment ctx new userId role true true))) :
    (replacePrimaryRoleWithinTransaction iso ctx new userId role).Emits P := by
  refine Prog.emits_bind (emits_updateAssignments ?_) fun _ => emits_ensurePrimary hd hp hi
  intro a ha
  rw [ofAssignee_userId (Bool.and_eq_true_iff.mp ha).1]
  exact hf a.id

theorem emits_setPrimary (hd : ∀ u k, P (.updateAssignment u k demote))
    (hp : ∀ u, P (.updateAssignment u assignmentId promote)) :
    (setPrimaryWithinTransaction iso ctx assignmentId).Emits P := by
  apply Prog.emits_bind (emits_query _)
  intro target
  cases target with
  | none => exact trivial
  | some t =>
    refine Prog.emits_bind (emits_updateAssignments fun a _ => hd a.userId a.id) fun _ =>
      emits_updateAssignments ?_
    intro a ha
    rw [show a.id = assignmentId by simpa using ha]
    exact hp a.userId

theorem emits_promoteNext (h : ∀ u k, P (.updateAssignment u k { isPrimary := some true })) :
    (promoteNextActiveForUser iso ctx userId).Emits P := by
  apply Prog.emits_bind (emits_query _)
  intro next
  cases next with
  | none => exact trivial
  | some n => exact Prog.emits_bind (emits_updateAssignments fun a _ => h a.userId a.id) fun _ =>
    trivial

theorem emits_deactivate (hf : ∀ u, P (.updateAssignment u assignmentId { isActive := some false }))
    (hn : ∀ u k, P (.updateAssignment u k { isPrimary := some true })) :
    (deactivateWithinTransaction iso ctx assignmentId).Emits P := by
  apply Prog.emits_bind (emits_query _)
  intro before
  cases before with
  | none => exact trivial
  | some b =>
    refine Prog.emits_bind (emits_updateAssignments ?_) fun updated => ?_
    · intro a ha
      rw [show a.id = assignmentId by simpa using ha]
      exact hf a.userId
    · split
      · exact Prog.emits_bind (emits_promoteNext hn) fun _ => trivial
      · exact trivial

theorem emits_activate (hd : ∀ u k, P (.updateAssignment u k demote))
    (ht : ∀ u, P (.updateAssignment u assignmentId { isActive := some true })) :
    (activateWithinTransaction iso ctx assignmentId).Emits P := by
  have hactivate : (updateAssignments iso (fun a => decide (a.id = assignmentId))
      { isActive := some true }).Emits P := by
    apply emits_updateAssignments
    intro a ha
    rw [show a.id = assignmentId by simpa using ha]
    exact ht a.userId
  apply Prog.emits_bind (emits_query _)
  intro before
  cases before with
  | none => exact trivial
  | some b =>
    dsimp only
    split
    · exact trivial
    · split
      · exact Prog.emits_bind (emits_updateAssignments fun a _ => hd a.userId a.id) fun _ =>
          Prog.emits_bind hactivate fun _ => trivial
      · exact Prog.emits_bind hactivate fun _ => trivial

theorem emits_remove (hr : ∀ u, P (.deleteAssignment u assignmentId))
    (hn : ∀ u k, P (.updateAssignment u k { isPrimary := some true })) :
    (removeWithinTransaction iso ctx assignmentId).Emits P := by
  apply Prog.emits_bind (emits_query _)
  intro before
  cases before with
  | none => exact trivial
  | some b =>
    refine Prog.emits_bind (emits_modifyRows ?_) fun _ => ?_
    · intro _ a ha w hw
      rw [List.mem_singleton.mp hw, show a.id = assignmentId by simpa using ha]
      exact hr a.userId
    · split
      · exact Prog.emits_bind (emits_promoteNext hn) fun _ => trivial
      · exact trivial

theorem emits_sync (h : ∀ r, P (.updateUser userId { role := some r })) :
    (syncUsersRoleFromPrimary iso ctx userId).Emits P := by
  apply Prog.emits_bind (emits_query _)
  intro primary
  cases primary with
  | none => exact trivial
  | some p => exact Prog.emits_bind (emits_updateUser (h p.role)) fun _ => trivial

end

theorem emits_exclusion : (checkAdminMaintainerExclusion ctx).Emits P := by
  apply Prog.emits_bind (emits_query _)
  intro violations
  split <;> exact trivial

theorem emits_effectiveAdmin : (checkEffectiveAdmin ctx).Emits P := by
  apply Prog.emits_bind (emits_query _)
  intro count
  split <;> exact trivial

theorem emits_authorityInvariants {mutate : Action α} (h : mutate.Emits P) :
    (mutateWithAuthorityInvariants ctx mutate).Emits P :=
  Prog.emits_bind (Prog.emits_lock _) fun _ => Prog.emits_bind h fun _ =>
    Prog.emits_bind emits_exclusion fun _ => trivial

theorem emits_effectiveAdminPostcondition {mutate : Action α} (h : mutate.Emits P) :
    (mutateWithEffectiveAdminPostcondition ctx mutate).Emits P :=
  Prog.emits_bind (Prog.emits_lock _) fun _ => Prog.emits_bind h fun _ =>
    Prog.emits_bind emits_exclusion fun _ => Prog.emits_bind emits_effectiveAdmin fun _ => trivial

theorem emits_updateInvitations {p : StaffInvitation → Bool} {patch : InvitationPatch}
    (h : ∀ i, p i = true → P (.updateInvitation i.id patch)) :
    (updateInvitations iso p patch).Emits P := by
  refine Prog.emits_bind (emits_modifyRows ?_) fun _ => trivial
  intro _ i hi w hw
  rw [List.mem_singleton.mp hw]
  exact h i hi

theorem emits_consumeToken {tokenHash userId : String} {now : Int}
    (h : ∀ k, P (.consumeToken userId k now)) :
    (consumeByTokenHashForUserWithinTransaction iso ctx tokenHash userId now).Emits P := by
  refine Prog.emits_bind (emits_modifyRows ?_) fun _ => trivial
  intro _ t ht w hw
  rw [List.mem_singleton.mp hw, show t.userId = userId by simp at ht; exact ht.1.2]
  exact h t.id

theorem emits_deleteTokens {userId : String} (h : ∀ k, P (.deleteToken userId k)) :
    (deleteAllForUserWithinTransaction iso ctx userId).Emits P := by
  refine Prog.emits_bind (emits_modifyRows ?_) fun _ => trivial
  intro _ t ht w hw
  rw [List.mem_singleton.mp hw, show t.userId = userId by simp at ht; exact ht.2]
  exact h t.id

theorem emits_issue {new : NewRow} {userId tokenHash : String} {expiresAt now : Int}
    (hc : ∀ k, P (.consumeToken userId k now)) (hd : ∀ k, P (.deleteToken userId k))
    (hi : P (.insertToken ⟨new.id, ctx.organizationId, userId, tokenHash, expiresAt, none,
          new.createdAt⟩)) :
    (issueWithinTransaction iso ctx new userId tokenHash expiresAt now).Emits P := by
  refine Prog.emits_bind (emits_modifyRows ?_) fun _ => Prog.emits_bind (emits_modifyRows ?_) fun _ =>
    Prog.emits_bind (emits_insertRow hi) fun _ => trivial
  · intro _ t ht w hw
    rw [List.mem_singleton.mp hw, show t.userId = userId by simp at ht; exact ht.1]
    exact hc t.id
  · intro _ t ht w hw
    rw [List.mem_singleton.mp hw, show t.userId = userId by simp at ht; exact ht.1]
    exact hd t.id

end

/-! ## Writes of the commands -/

def AccountCommand.mayWrite (ctx : Context) (c : AccountCommand) (w : Write) : Prop :=
  match c with
  | .createUser id new data =>
    w = .insertUser ⟨id, ctx.organizationId, data.username, data.passwordHash, data.name, data.role,
      true, data.email, 0⟩ ∨
      (∃ k, w = .updateAssignment id k demote) ∨
      w = .insertAssignment (newAssignment ctx new id data.role true true)
  | .updateUser id new data =>
    w = .updateUser id { name := data.name, isActive := data.isActive, email := data.email } ∨
      w = .updateUser id { advanceAuthEpoch := true } ∨ (∃ r, w = .updateUser id { role := some r }) ∨
      (∃ k, w = .updateAssignment id k { isActive := some false }) ∨
      (∃ k, w = .updateAssignment id k demote) ∨
      (∃ u k, w = .updateAssignment u k promote) ∨
      (∃ r, w = .insertAssignment (newAssignment ctx new id r true true)) ∨
      ∃ k, w = .deleteToken id k
  | .resetPassword id passwordHash =>
    w = .updateUser id { passwordHash := some passwordHash, advanceAuthEpoch := true }
  | .resetAdminPassword _ passwordHash =>
    ∃ id, w = .updateUser id { passwordHash := some passwordHash, advanceAuthEpoch := true }
  | .deleteUser id => w = .deleteUser id
  | .createCandidate id new profileId data =>
    w = .insertUser ⟨id, ctx.organizationId, data.username, data.passwordHash, data.name,
      .candidate, true, data.email, 0⟩ ∨
      (∃ k, w = .updateAssignment id k demote) ∨
      w = .insertAssignment (newAssignment ctx new id .candidate true true) ∨
      w = .insertProfile ⟨profileId, ctx.organizationId, id⟩
  | .updateCandidate _ data =>
    ∃ id, w = .updateUser id { name := data.name, isActive := data.isActive, email := data.email }
  | .assignRole new id role isPrimary =>
    (∃ k, w = .updateAssignment id k demote) ∨
      w = .insertAssignment (newAssignment ctx new id role isPrimary true) ∨
      ∃ r, w = .updateUser id { role := some r }
  | .promoteAssignment assignmentId =>
    (∃ u k, w = .updateAssignment u k demote) ∨ (∃ u, w = .updateAssignment u assignmentId promote) ∨
      ∃ u r, w = .updateUser u { role := some r }
  | .activateAssignment assignmentId =>
    (∃ u k, w = .updateAssignment u k demote) ∨
      (∃ u, w = .updateAssignment u assignmentId { isActive := some true }) ∨
      ∃ u r, w = .updateUser u { role := some r }
  | .deactivateAssignment assignmentId =>
    (∃ u, w = .updateAssignment u assignmentId { isActive := some false }) ∨
      (∃ u k, w = .updateAssignment u k { isPrimary := some true }) ∨
      ∃ u r, w = .updateUser u { role := some r }
  | .removeAssignment assignmentId =>
    (∃ u, w = .deleteAssignment u assignmentId) ∨
      (∃ u k, w = .updateAssignment u k { isPrimary := some true }) ∨
      ∃ u r, w = .updateUser u { role := some r }
  | .createInvitation id email role tokenHash now =>
    (∃ k, w = .updateInvitation k (.revokedAt now)) ∨
      w = .insertInvitation ⟨id, ctx.organizationId, email, role, tokenHash, now + invitationTtlMs,
        none, none, ctx.actorId⟩
  | .revokeInvitation id now => w = .updateInvitation id (.revokedAt now)
  | .acceptInvitation id new _ now =>
    (∃ k, w = .updateInvitation k (.consumedAt now)) ∨ (∃ u, w = .insertUser u ∧ u.id = id ∧
      u.organizationId = ctx.organizationId) ∨
      (∃ k, w = .updateAssignment id k demote) ∨
      ∃ r, w = .insertAssignment (newAssignment ctx new id r true true)
  | .requestPasswordReset _ _ _ clock =>
    (∃ u k, w = .consumeToken u k clock.issue) ∨ (∃ u k, w = .deleteToken u k) ∨ ∃ t, w = .insertToken t
  | .consumePasswordReset _ passwordHash _ consumedAt =>
    (∃ u k, w = .consumeToken u k consumedAt) ∨
      ∃ u, w = .updateUser u { passwordHash := some passwordHash, advanceAuthEpoch := true }
  | .logout _ => w = .updateUser ctx.actorId { advanceAuthEpoch := true }
  | .changePassword _ passwordHash =>
    ∃ u, w = .updateUser u { passwordHash := some passwordHash, advanceAuthEpoch := true }
  | .updateProfile name => w = .updateUser ctx.actorId { name := some name }

section
variable (ctx : Context)

theorem emits_createUser (id : String) (new : NewRow) (data : CreateUser) :
    (createUser ctx id new data).Emits ((AccountCommand.createUser id new data).mayWrite ctx) := by
  refine Prog.emits_bind (emits_authorityInvariants ?_) fun _ => trivial
  refine Prog.emits_bind (emits_createUnique ?_) fun _ => Prog.emits_bind
    (emits_assign ?_ ?_) fun _ => trivial
  · exact .inl rfl
  · exact fun k => .inr (.inl ⟨k, rfl⟩)
  · exact .inr (.inr rfl)

theorem emits_updateUserMutation (id : String) (new : NewRow) (data : UpdateUser) (target : User) :
    (updateUserMutation ctx id new data target).Emits
      ((AccountCommand.updateUser id new data).mayWrite ctx) := by
  refine Prog.emits_bind (emits_updateUser (.inl rfl)) fun updated => ?_
  cases updated with
  | none => exact trivial
  | some _ =>
    refine Prog.emits_bind ?_ fun _ => Prog.emits_bind ?_ fun _ => Prog.emits_bind
      (emits_sync ?_) fun _ => emits_query _
    · unfold replaceChangedRole
      split
      · exact trivial
      · split
        · exact trivial
        · refine Prog.emits_bind (emits_replacePrimary ?_ ?_ ?_ ?_) fun _ => trivial
          · exact fun k => .inr (.inr (.inr (.inl ⟨k, rfl⟩)))
          · exact fun k => .inr (.inr (.inr (.inr (.inl ⟨k, rfl⟩))))
          · exact fun u k => .inr (.inr (.inr (.inr (.inr (.inl ⟨u, k, rfl⟩)))))
          · exact .inr (.inr (.inr (.inr (.inr (.inr (.inl ⟨_, rfl⟩))))))
    · unfold revokeDeactivated
      split
      · refine Prog.emits_bind (Prog.emits_bind (emits_updateUser (.inr (.inl rfl))) fun _ =>
            trivial) fun _ =>
          Prog.emits_bind (emits_deleteTokens ?_) fun _ => trivial
        exact fun k => .inr (.inr (.inr (.inr (.inr (.inr (.inr ⟨k, rfl⟩))))))
      · exact trivial
    · exact fun r => .inr (.inr (.inl ⟨r, rfl⟩))

theorem emits_updateUserRoute (id : String) (new : NewRow) (data : UpdateUser) :
    (updateUserRoute ctx id new data).Emits ((AccountCommand.updateUser id new data).mayWrite ctx) := by
  unfold updateUserRoute
  split
  · exact trivial
  · apply Prog.emits_bind (emits_query _)
    intro target
    cases target with
    | none => exact trivial
    | some target =>
      exact Prog.emits_bind
        (emits_effectiveAdminPostcondition (emits_updateUserMutation ctx id new data target))
        fun _ => trivial

theorem emits_resetPassword (id passwordHash : String) :
    (resetPassword ctx id passwordHash).Emits
      ((AccountCommand.resetPassword id passwordHash).mayWrite ctx) := by
  apply Prog.emits_bind (emits_query _)
  intro target
  split
  · exact trivial
  · apply Prog.emits_bind (emits_query _)
    intro profile
    split
    · exact trivial
    · exact Prog.emits_bind emits_beginRepeatableRead fun _ => Prog.emits_bind
        (emits_updateUser rfl) fun _ => trivial

theorem emits_resetAdminPassword (username passwordHash : String) :
    (resetAdminPassword ctx username passwordHash).Emits
        ((AccountCommand.resetAdminPassword username passwordHash).mayWrite ctx) := by
  apply Prog.emits_bind (emits_query _)
  intro user
  cases user with
  | none => exact trivial
  | some user =>
    apply Prog.emits_bind (emits_query _)
    intro active
    split
    · exact Prog.emits_bind emits_beginRepeatableRead fun _ => Prog.emits_bind
        (emits_updateUser ⟨user.id, rfl⟩) fun _ => trivial
    · exact trivial

theorem emits_deleteUser (id : String) :
    (deleteUser ctx id).Emits ((AccountCommand.deleteUser id).mayWrite ctx) := by
  apply Prog.emits_bind (emits_query _)
  intro target
  split
  · exact trivial
  · exact Prog.emits_bind (emits_effectiveAdminPostcondition (emits_deleteUserRow rfl)) fun _ => trivial

theorem emits_createCandidate (id : String) (new : NewRow) (profileId : String)
    (data : CreateCandidate) :
    (createCandidate ctx id new profileId data).Emits
        ((AccountCommand.createCandidate id new profileId data).mayWrite ctx) := by
  refine Prog.emits_bind emits_beginRepeatableRead fun iso => Prog.emits_bind
    (emits_createUnique ?_) fun _ =>
    Prog.emits_bind (emits_assign ?_ ?_) fun _ => Prog.emits_bind (emits_insertRow ?_) fun _ => trivial
  · exact .inl rfl
  · exact fun k => .inr (.inl ⟨k, rfl⟩)
  · exact .inr (.inr (.inl rfl))
  · exact .inr (.inr (.inr rfl))

theorem emits_updateCandidate (id : String) (data : UpdateCandidate) :
    (updateCandidate ctx id data).Emits ((AccountCommand.updateCandidate id data).mayWrite ctx) := by
  apply Prog.emits_bind (emits_query _)
  intro candidate
  cases candidate with
  | none => exact trivial
  | some candidate =>
    apply Prog.emits_bind emits_beginRepeatableRead
    intro iso
    dsimp only
    split
    · exact Prog.emits_bind (emits_updateUser ⟨candidate.userId, rfl⟩) fun _ => Prog.emits_bind
          (emits_query _) fun _ => trivial
    · exact Prog.emits_bind (emits_query _) fun _ => trivial

theorem emits_assignRole (new : NewRow) (id : String) (role : AssignableRole) (isPrimary : Bool) :
    (assignRole ctx new id role isPrimary).Emits
        ((AccountCommand.assignRole new id role isPrimary).mayWrite ctx) := by
  apply Prog.emits_bind (emits_query _)
  intro target
  split
  · exact trivial
  · refine Prog.emits_bind (emits_authorityInvariants ?_) fun _ => trivial
    refine Prog.emits_bind (emits_assign ?_ ?_) fun a => ?_
    · exact fun k => .inl ⟨k, rfl⟩
    · exact .inr (.inl rfl)
    · split
      · exact Prog.emits_bind (emits_sync fun r => .inr (.inr ⟨r, rfl⟩)) fun _ => trivial
      · exact trivial

theorem emits_promoteAssignment (assignmentId : String) :
    (promoteAssignment ctx assignmentId).Emits
      ((AccountCommand.promoteAssignment assignmentId).mayWrite ctx) := by
  refine Prog.emits_bind (emits_authorityInvariants ?_) fun promoted => ?_
  · refine Prog.emits_bind (emits_setPrimary ?_ ?_) fun value => ?_
    · exact fun u k => .inl ⟨u, k, rfl⟩
    · exact fun u => .inr (.inl ⟨u, rfl⟩)
    · cases value with
      | none => exact trivial
      | some value =>
        exact Prog.emits_bind (emits_sync fun r => .inr (.inr ⟨value.userId, r, rfl⟩)) fun _ =>
          trivial
  · split <;> exact trivial

theorem emits_activateAssignment (assignmentId : String) :
    (activateAssignment ctx assignmentId).Emits
      ((AccountCommand.activateAssignment assignmentId).mayWrite ctx) := by
  refine Prog.emits_bind (emits_authorityInvariants ?_) fun activated => ?_
  · refine Prog.emits_bind (emits_activate ?_ ?_) fun result => ?_
    · exact fun u k => .inl ⟨u, k, rfl⟩
    · exact fun u => .inr (.inl ⟨u, rfl⟩)
    · cases result with
      | none => exact trivial
      | some result =>
        dsimp only
        split
        · exact Prog.emits_bind (emits_sync fun r => .inr (.inr ⟨result.1.userId, r, rfl⟩)) fun _ =>
            trivial
        · exact trivial
  · split <;> exact trivial

theorem emits_deactivateAssignment (assignmentId : String) :
    (deactivateAssignment ctx assignmentId).Emits
      ((AccountCommand.deactivateAssignment assignmentId).mayWrite ctx) := by
  apply Prog.emits_bind (emits_query _)
  intro target
  split
  · exact trivial
  · refine Prog.emits_bind (emits_effectiveAdminPostcondition ?_) fun _ => trivial
    refine Prog.emits_bind (emits_deactivate ?_ ?_) fun result => ?_
    · exact fun u => .inl ⟨u, rfl⟩
    · exact fun u k => .inr (.inl ⟨u, k, rfl⟩)
    · cases result with
      | none => exact trivial
      | some result =>
        dsimp only
        split
        · exact Prog.emits_bind (emits_sync fun r => .inr (.inr ⟨result.userId, r, rfl⟩)) fun _ =>
            trivial
        · exact trivial

theorem emits_removeAssignment (assignmentId : String) :
    (removeAssignment ctx assignmentId).Emits
      ((AccountCommand.removeAssignment assignmentId).mayWrite ctx) := by
  apply Prog.emits_bind (emits_query _)
  intro target
  split
  · exact trivial
  · refine Prog.emits_bind (emits_effectiveAdminPostcondition ?_) fun _ => trivial
    refine Prog.emits_bind (emits_remove ?_ ?_) fun result => ?_
    · exact fun u => .inl ⟨u, rfl⟩
    · exact fun u k => .inr (.inl ⟨u, k, rfl⟩)
    · cases result with
      | none => exact trivial
      | some result =>
        dsimp only
        split
        · exact Prog.emits_bind (emits_sync fun r => .inr (.inr ⟨result.userId, r, rfl⟩)) fun _ =>
            trivial
        · exact trivial

theorem emits_createInvitation (id email : String) (role : AssignableRole) (tokenHash : String)
    (now : Int) :
    (createInvitation ctx id email role tokenHash now).Emits
      ((AccountCommand.createInvitation id email role tokenHash now).mayWrite ctx) := by
  refine Prog.emits_bind emits_beginRepeatableRead fun iso => Prog.emits_bind ?_ fun _ => trivial
  refine Prog.emits_bind (emits_updateInvitations ?_) fun _ => Prog.emits_bind
    (emits_insertRow ?_) fun _ => trivial
  · exact fun i _ => .inl ⟨i.id, rfl⟩
  · exact .inr rfl

theorem emits_revokeInvitation (id : String) (now : Int) :
    (revokeInvitation ctx id now).Emits ((AccountCommand.revokeInvitation id now).mayWrite ctx) := by
  refine Prog.emits_bind emits_beginRepeatableRead fun iso => Prog.emits_bind
    (emits_updateInvitations ?_) fun _ => trivial
  intro i hi
  rw [show i.id = id by simp at hi; exact hi.1]
  exact rfl

theorem emits_acceptInvitation (id : String) (new : NewRow) (data : AcceptInvitation) (now : Int) :
    (acceptInvitation ctx id new data now).Emits
      ((AccountCommand.acceptInvitation id new data now).mayWrite ctx) := by
  refine Prog.emits_bind (emits_authorityInvariants ?_) fun created => ?_
  · refine Prog.emits_bind (emits_updateInvitations ?_) fun invitation => ?_
    · exact fun i _ => .inl ⟨i.id, rfl⟩
    · cases invitation with
      | none => exact trivial
      | some invitation =>
        refine Prog.emits_bind (emits_createUnique ?_) fun _ => Prog.emits_bind
          (emits_assign ?_ ?_) fun _ => trivial
        · exact .inr (.inl ⟨_, rfl, rfl, rfl⟩)
        · exact fun k => .inr (.inr (.inl ⟨k, rfl⟩))
        · exact .inr (.inr (.inr ⟨invitation.role, rfl⟩))
  · cases created <;> exact trivial

theorem emits_requestPasswordReset (new : NewRow) (username tokenHash : String) (clock : ResetClock) :
    (requestPasswordReset ctx new username tokenHash clock).Emits
      ((AccountCommand.requestPasswordReset new username tokenHash clock).mayWrite ctx) := by
  apply Prog.emits_bind emits_lockUsers
  intro locked
  cases locked with
  | none => exact trivial
  | some user =>
    dsimp only
    split
    · exact trivial
    · split
      · exact trivial
      · apply Prog.emits_bind (emits_query _)
        intro latest
        split
        · exact trivial
        · refine Prog.emits_bind (emits_issue ?_ ?_ ?_) fun _ => trivial
          · exact fun k => .inl ⟨user.id, k, rfl⟩
          · exact fun k => .inr (.inl ⟨user.id, k, rfl⟩)
          · exact .inr (.inr ⟨_, rfl⟩)

theorem emits_consumePasswordReset (tokenHash passwordHash : String) (identifiedAt consumedAt : Int) :
    (consumePasswordReset ctx tokenHash passwordHash identifiedAt consumedAt).Emits
      ((AccountCommand.consumePasswordReset tokenHash passwordHash identifiedAt consumedAt).mayWrite
          ctx) := by
  apply Prog.emits_bind (emits_query _)
  intro identified
  cases identified with
  | none => exact trivial
  | some userId =>
    apply Prog.emits_bind emits_lockUsers
    intro locked
    cases locked with
    | none => exact trivial
    | some user =>
      dsimp only
      split
      · exact trivial
      · refine Prog.emits_bind (emits_consumeToken fun k => .inl ⟨userId, k, rfl⟩) fun consumed => ?_
        cases consumed with
        | none => exact trivial
        | some token => exact Prog.emits_bind (emits_updateUser (.inr ⟨token.userId, rfl⟩)) fun _ =>
          trivial

theorem emits_logout (authEpoch : Nat) :
    (logout ctx authEpoch).Emits ((AccountCommand.logout authEpoch).mayWrite ctx) := by
  refine Prog.emits_bind (Prog.emits_bind (emits_updateUsers ?_) fun _ => trivial) fun _ => trivial
  intro u hu
  rw [ofUser_id (by simp at hu; exact hu.1)]
  exact rfl

theorem emits_changePassword [PasswordVerifier] (currentPassword passwordHash : String) :
    (changePassword ctx currentPassword passwordHash).Emits
        ((AccountCommand.changePassword currentPassword passwordHash).mayWrite ctx) := by
  apply Prog.emits_bind (emits_query _)
  intro user
  cases user with
  | none => exact trivial
  | some user =>
    dsimp only
    split
    · exact Prog.emits_bind emits_beginRepeatableRead fun _ => Prog.emits_bind
        (emits_updateUser ⟨user.id, rfl⟩) fun _ => trivial
    · exact trivial

theorem emits_updateProfile (name : String) :
    (updateProfile ctx name).Emits ((AccountCommand.updateProfile name).mayWrite ctx) :=
  Prog.emits_bind (emits_updateUser rfl) fun _ => trivial

end

theorem program_emits [PasswordVerifier] (r : Request) :
    r.program.Emits (r.command.mayWrite r.ctx) := by
  obtain ⟨ctx, command⟩ := r
  cases command with
  | createUser id new data => exact emits_createUser ctx id new data
  | updateUser id new data => exact emits_updateUserRoute ctx id new data
  | resetPassword id passwordHash => exact emits_resetPassword ctx id passwordHash
  | resetAdminPassword username passwordHash => exact emits_resetAdminPassword ctx username passwordHash
  | deleteUser id => exact emits_deleteUser ctx id
  | createCandidate id new profileId data => exact emits_createCandidate ctx id new profileId data
  | updateCandidate id data => exact emits_updateCandidate ctx id data
  | assignRole new id role isPrimary => exact emits_assignRole ctx new id role isPrimary
  | promoteAssignment assignmentId => exact emits_promoteAssignment ctx assignmentId
  | activateAssignment assignmentId => exact emits_activateAssignment ctx assignmentId
  | deactivateAssignment assignmentId => exact emits_deactivateAssignment ctx assignmentId
  | removeAssignment assignmentId => exact emits_removeAssignment ctx assignmentId
  | createInvitation id email role tokenHash now =>
    exact emits_createInvitation ctx id email role tokenHash now
  | revokeInvitation id now => exact emits_revokeInvitation ctx id now
  | acceptInvitation id new data now => exact emits_acceptInvitation ctx id new data now
  | requestPasswordReset new username tokenHash clock =>
    exact emits_requestPasswordReset ctx new username tokenHash clock
  | consumePasswordReset tokenHash passwordHash identifiedAt consumedAt =>
    exact emits_consumePasswordReset ctx tokenHash passwordHash identifiedAt consumedAt
  | logout authEpoch => exact emits_logout ctx authEpoch
  | changePassword currentPassword passwordHash =>
    exact emits_changePassword ctx currentPassword passwordHash
  | updateProfile name => exact emits_updateProfile ctx name

end ExamSystem.Accounts
