import ExamSystem.AccountLocks

/-!
# What the account commands commit

For the commands on invitations and on reset tokens: the log that each commits
and what holds of the committed state it is applied to, whatever the other
transactions did between its statements.
-/

namespace ExamSystem.Accounts

open Interleaving

/-- What the unique indexes, the check and the foreign keys say of a committed store. -/
structure Coherent (db : Db) : Prop where
  intact : db.intact = true
  openInvitations : ∀ i j x y, db.invitations.get i = some x → db.invitations.get j = some y →
    x.isOpen = true → y.isOpen = true →
    x.organizationId = y.organizationId → x.email = y.email → i = j
  invitationHashes : ∀ i j x y, db.invitations.get i = some x → db.invitations.get j = some y →
    x.tokenHash = y.tokenHash → i = j
  exclusive : ∀ i x, db.invitations.get i = some x → x.consumedAt = none ∨ x.revokedAt = none
  openTokens : ∀ i j x y, db.tokens.get i = some x → db.tokens.get j = some y → x.isOpen = true →
    y.isOpen = true → x.userId = y.userId → i = j
  tokenHashes : ∀ i j x y, db.tokens.get i = some x → db.tokens.get j = some y →
    x.tokenHash = y.tokenHash → i = j

/-! ## A new account -/

theorem userConflict_none {u : User} {db : Db} (h : userConflict u db = none) :
    db.users.get u.id = none ∧ ∀ k v, db.users.get k = some v →
    ¬ (v.organizationId = u.organizationId ∧ v.username = u.username) := by
  unfold userConflict at h
  split at h
  · cases h
  case isFalse hid =>
    split at h
    · cases h
    case isFalse hname =>
      refine ⟨by simpa using hid, fun k v hv hsame => hname ?_⟩
      exact List.any_eq_true.mpr ⟨v, Table.mem_of_get hv, by simpa using hsame⟩

theorem assignee_exists {db : Db} (h : db.intact = true) {k : String} {a : UserRoleAssignment}
    (ha : db.assignments.get k = some a) :
    ∃ u, db.users.get a.userId = some u := by
  simp only [Db.intact, Bool.and_eq_true, List.all_eq_true] at h
  exact Option.isSome_iff_exists.mp (h.1.1 a (Table.mem_of_get ha))

theorem assignmentConflict_none {a : UserRoleAssignment} {db : Db}
    (h : assignmentConflict a db = none) :
    db.assignments.get a.id = none := by
  unfold assignmentConflict at h
  split at h
  · cases h
  case isFalse hid => simpa using hid

/-- A user that a transaction inserts has no assignment before its first one. -/
theorem wp_newAccount {β : Type} {Q : β → List LockKey → List Write → Db → Prop}
    {held : List LockKey} {log : List Write} {s : Db} {ctx : Context} {u : User} {new : NewRow}
    {role : AssignableRole} {f : UserRoleAssignment → Action β}
    (hlog : ∀ s : Db, (applyAll s log).users = s.users ∧
      (applyAll s log).assignments = s.assignments)
    (h : ∀ s', Protected held s s' → Coherent s' → s'.users.get u.id = none →
      (∀ k v, s'.users.get k = some v → ¬ (v.organizationId = u.organizationId ∧
          v.username = u.username)) → s'.assignments.get new.id = none →
      ∀ K, (∀ k ∈ u.keys ++ (newAssignment ctx new u.id role true true).keys ++ held, k ∈ K) →
      (f (newAssignment ctx new u.id role true true)).wp Protected Coherent Q K
        (log ++ [.insertUser u, .insertAssignment (newAssignment ctx new u.id role true true)]) s') :
    (createUnique .readCommitted ctx u >>= fun _ => assignWithinTransaction .readCommitted ctx new
        u.id role true true >>= f).wp
      Protected Coherent Q held log s := by
  apply wp_createUnique
  intro s₁ h₁ _ s₂ h₂ _ hconflict
  obtain ⟨hfresh, hname⟩ := userConflict_none hconflict
  rw [(hlog s₂).1] at hfresh
  rw [(hlog s₂).1] at hname
  have hview : ∀ t : Db, (applyAll t (log ++ [.insertUser u])).assignments = t.assignments := by
    intro t
    rw [applyAll_append]
    exact (hlog t).2
  rw [assignWithinTransaction, if_pos (show (true && true) = true from rfl), Prog.bind_assoc]
  apply wp_updateAssignments
  intro s₃ h₃ hc₃ s₄ h₄ _ found rows hfound hrows
  have hnone₃ : s₃.users.get u.id = none := (h₃.users u.id (by simp [User.keys])).trans hfresh
  have hempty : found = [] := by
    rw [hfound, hview, List.filter_eq_nil_iff]
    intro a ha hp
    obtain ⟨v, hv⟩ := assignee_exists hc₃.intact (Table.get_of_mem ha)
    rw [ofAssignee_userId (Bool.and_eq_true_iff.mp hp).1, hnone₃] at hv
    cases hv
  rw [hempty] at hrows
  rw [hempty, show rows = [] from hrows]
  apply wp_insertAssignment
  intro s₅ h₅ hc₅ hinsert
  simp only [List.flatMap_nil, List.append_nil, List.nil_append] at h₅ hinsert ⊢
  have hfree : s₅.assignments.get new.id = none := by
    rw [← hview s₅]
    exact assignmentConflict_none hinsert
  have h₂₅ : Protected (u.keys ++ u.keys ++ held) s₂ s₅ := h₃.trans (h₄.trans h₅)
  have hheld : Protected held s s₅ :=
    h₁.trans (h₂.trans (h₂₅.mono fun k hk => List.mem_append_right _ hk))
  rw [List.append_assoc log]
  refine h s₅ hheld hc₅ ((h₂₅.users u.id (by simp [User.keys])).trans hfresh) ?_ hfree _ ?_
  · intro k v hv hsame
    obtain ⟨w, hw, ho, hn⟩ := h₂₅.usernames k v (by simp [User.keys, hsame.1, hsame.2]) hv
    exact hname k w hw ⟨ho.trans hsame.1, hn.trans hsame.2⟩
  · intro k hk
    simp only [List.mem_append] at hk ⊢
    tauto

/-! ## Creating and revoking -/

def openAt (organizationId email : String) (i : StaffInvitation) : Prop :=
  i.organizationId = organizationId ∧ i.email = email ∧ i.isOpen = true

def newInvitation (ctx : Context) (id email : String) (role : AssignableRole) (tokenHash : String)
    (now : Int) : StaffInvitation :=
  ⟨id, ctx.organizationId, email, role, tokenHash, now + invitationTtlMs, none, none, ctx.actorId⟩

/-- A created invitation: every open one at its address is revoked with it. -/
structure Supersedes (ctx : Context) (id email : String) (role : AssignableRole)
    (tokenHash : String) (now : Int) (a : Reply) (log : List Write) (db : Db) : Prop where
  reply : a = .created id
  writes : ∃ ids : List String, (∀ k, k ∈ ids ↔ ∃ x, db.invitations.get k = some x ∧
    openAt ctx.organizationId email x) ∧
    log = ids.map (fun k => .updateInvitation k (.revokedAt now)) ++
      [.insertInvitation (newInvitation ctx id email role tokenHash now)]
  fresh : db.invitations.get id = none
  freshHash : ∀ k x, db.invitations.get k = some x → x.tokenHash ≠ tokenHash

def Revokes (ctx : Context) (id : String) (now : Int) (a : Reply) (log : List Write) (db : Db) : Prop :=
  (a = .notFound ∧ log = []) ∨
    a = .ok ∧ log = [.updateInvitation id (.revokedAt now)] ∧
      ∃ x, db.invitations.get id = some x ∧ x.isOpen = true ∧ x.organizationId = ctx.organizationId

section
variable {log : List Write} {db : Db} {k : String}

theorem invitations_after_revokes {ids : List String} {patch : InvitationPatch} (hk : k ∉ ids) :
    (applyAll db (ids.map fun k => Write.updateInvitation k patch)).invitations.get k =
      db.invitations.get k := by
  apply invitations_unlocked
  intro w hw
  obtain ⟨j, hj, rfl⟩ := List.mem_map.mp hw
  simp only [Write.keys, List.mem_singleton, LockKey.invitation.injEq]
  exact fun he => hk (he ▸ hj)

theorem invitation_kept {x : StaffInvitation} (hlog : ∀ w ∈ log, ∀ i, w ≠ .insertInvitation i)
    (h : db.invitations.get k = some x) :
    ∃ y, (applyAll db log).invitations.get k = some y ∧ y.tokenHash = x.tokenHash := by
  refine applyAll_invariant (P := fun (s : Db) => ∃ y, s.invitations.get k = some y ∧
    y.tokenHash = x.tokenHash) ?_ ⟨x, h, rfl⟩
  intro w hw s ⟨y, hy, hyx⟩
  rw [get_invitations, hy]
  cases w with
  | insertInvitation i => exact absurd rfl (hlog _ hw i)
  | updateInvitation id patch =>
    by_cases hk : k = id
    · refine ⟨patch.set y, by simp [Write.invitationAt, hk], ?_⟩
      rw [← hyx]
      cases patch <;> rfl
    · exact ⟨y, by simp [Write.invitationAt, hk], hyx⟩
  | _ => exact ⟨y, rfl, hyx⟩

theorem invitationConflict_none {i : StaffInvitation} (h : invitationConflict i db = none) :
    db.invitations.get i.id = none ∧ (∀ k x, db.invitations.get k = some x →
      x.tokenHash ≠ i.tokenHash) ∧
      (i.isOpen = true → ∀ k x, db.invitations.get k = some x →
        ¬ openAt i.organizationId i.email x) := by
  unfold invitationConflict at h
  split at h
  · cases h
  case isFalse hc =>
    simp only [not_or, not_and, Option.isSome_iff_ne_none, ne_eq, not_not, List.any_eq_true,
      decide_eq_true_eq, not_exists] at hc
    refine ⟨hc.1, fun k x hx => hc.2.1 x (Table.mem_of_get hx), fun ho k x hx hat => ?_⟩
    exact hc.2.2 ho x (Table.mem_of_get hx) hat.1 hat.2.1 hat.2.2

end

/-- An accepted insert after the rows `ids` were closed. -/
theorem supersedes_of_insert {ctx : Context} {id email : String} {role : AssignableRole}
    {tokenHash : String} {now : Int} {ids : List String} {s t : Db} {K : List LockKey}
    (hids : ∀ k ∈ ids, ∃ x, s.invitations.get k = some x ∧ t.invitations.get k = some x ∧
      openAt ctx.organizationId email x)
    (h : Protected ((newInvitation ctx id email role tokenHash now).keys ++ K) s t)
    (hcheck : invitationConflict (newInvitation ctx id email role tokenHash now)
        (applyAll s (ids.map fun k => Write.updateInvitation k (.revokedAt now))) = none) :
    Supersedes ctx id email role tokenHash now (.created id)
      (ids.map (fun k => .updateInvitation k (.revokedAt now)) ++
          [.insertInvitation (newInvitation ctx id email role tokenHash now)]) t := by
  obtain ⟨hfresh, hhash, hnone⟩ := invitationConflict_none hcheck
  have hclosing : ∀ w ∈ ids.map (fun k => Write.updateInvitation k (.revokedAt now)),
      ∀ i, w ≠ .insertInvitation i := by
    intro w hw i he
    obtain ⟨k, _, hk⟩ := List.mem_map.mp hw
    rw [he] at hk
    cases hk
  have hid : id ∉ ids := by
    intro hm
    obtain ⟨x, hx, _⟩ := hids id hm
    obtain ⟨y, hy, _⟩ := invitation_kept hclosing hx
    exact absurd (hy.symm.trans hfresh) (by simp)
  refine ⟨rfl, ⟨ids, fun k => ⟨fun hk => ?_, fun ⟨x, hx, hat⟩ => ?_⟩, rfl⟩, ?_, ?_⟩
  · obtain ⟨x, _, hx, hat⟩ := hids k hk
    exact ⟨x, hx, hat⟩
  · by_contra hk
    have hkey : LockKey.openInvitation x.organizationId x.email ∈
        (newInvitation ctx id email role tokenHash now).keys ++ K := by
      simp [newInvitation, StaffInvitation.keys, hat.1, hat.2.1]
    have hs := h.openInvitations k x hkey hx hat.2.2
    refine hnone rfl k x ?_ hat
    rw [invitations_after_revokes hk]
    exact hs
  · rw [h.invitations id (by simp [newInvitation, StaffInvitation.keys]),
      ← invitations_after_revokes hid]
    exact hfresh
  · intro k x hx he
    obtain ⟨y, hy, hyx⟩ := h.invitationHashes k x (by simp [newInvitation, StaffInvitation.keys, he]) hx
    obtain ⟨z, hz, hzy⟩ := invitation_kept hclosing hy
    exact hhash k z hz (hzy.trans (hyx.trans he))

theorem createInvitation_wp (ctx : Context) (id email : String) (role : AssignableRole)
    (tokenHash : String) (now : Int) (s : Db) :
    (createInvitation ctx id email role tokenHash now).wp Protected Coherent
      (fun a _ log s => Supersedes ctx id email role tokenHash now a log s) [] [] s := by
  apply wp_beginRepeatableRead
  intro s₁ _ _
  rw [createInvitationWithinTransaction, Prog.bind_assoc]
  apply wp_updateInvitations_repeatable
  intro s₂ _ _ found hfound hsame
  simp only [applyAll_nil, List.nil_append] at hfound hsame ⊢
  rw [Prog.bind_assoc]
  refine wp_insert fun s₃ h₂₃ _ hcheck => ?_
  intro s₄ h₃₄ _
  have hlog : (found.flatMap fun i => [Write.updateInvitation i.id (.revokedAt now)]) =
      (found.map fun i => i.id).map fun k => .updateInvitation k (.revokedAt now) := by
    rw [← List.map_eq_flatMap, List.map_map]
    rfl
  rw [hlog] at hcheck ⊢
  rw [List.append_assoc] at h₃₄
  refine supersedes_of_insert ?_ h₃₄ hcheck
  intro k hk
  obtain ⟨i, hi, rfl⟩ := List.mem_map.mp hk
  have hat : openAt ctx.organizationId email i := by
    rw [hfound] at hi
    simpa [openAt] using (List.mem_filter.mp hi).2
  have hmem : ∀ {K : List LockKey}, LockKey.invitation i.id ∈ found.flatMap StaffInvitation.keys ++
    K := fun {K} =>
    List.mem_append_left K (List.mem_flatMap.mpr ⟨i, hi, List.mem_cons_self⟩)
  have hs₃ : s₃.invitations.get i.id = some i := by
    rw [h₂₃.invitations i.id (by rw [List.append_assoc]; exact hmem)]
    exact hsame i hi
  refine ⟨i, hs₃, ?_, hat⟩
  rw [h₃₄.invitations i.id ?_]
  · exact hs₃
  · simp only [List.append_assoc, List.mem_append]
    exact .inr (.inr (.inl (List.mem_flatMap.mpr ⟨i, hi, List.mem_cons_self⟩)))

theorem revokeInvitation_wp (ctx : Context) (id : String) (now : Int) (s : Db) :
    (revokeInvitation ctx id now).wp Protected Coherent
      (fun a _ log s => Revokes ctx id now a log s) [] [] s := by
  apply wp_beginRepeatableRead
  intro s₁ _ _
  apply wp_updateInvitations_repeatable
  intro s₂ _ _ found hfound hsame
  simp only [applyAll_nil, List.nil_append] at hfound hsame ⊢
  intro s₃ h₂₃ _
  have hrow : ∀ i ∈ found, i.id = id ∧ i.organizationId = ctx.organizationId ∧ i.isOpen = true := by
    intro i hi
    rw [hfound] at hi
    simpa using (List.mem_filter.mp hi).2
  have hn : (found.map StaffInvitation.id).Nodup := hfound ▸ Table.filter_nodup s₁.invitations _
  rcases Table.at_most_one hn fun i hi => (hrow i hi).1 with rfl | ⟨x, rfl, hx⟩
  · exact .inl ⟨rfl, rfl⟩
  · have hx := hrow x (List.mem_singleton.mpr rfl)
    refine .inr ⟨rfl, by simp [hx.1], x, ?_, hx.2.2, hx.2.1⟩
    rw [← hx.1, h₂₃.invitations x.id (by simp [StaffInvitation.keys])]
    exact hsame x (List.mem_singleton.mpr rfl)

/-! ## Accepting -/

def invitedUser (ctx : Context) (id : String) (data : AcceptInvitation) (x : StaffInvitation) : User :=
  ⟨id, ctx.organizationId, data.username, data.passwordHash, data.name, x.role, true, some x.email, 0⟩

/-- An accept that answers with an account consumes one invitation that is open,
unexpired and of its token, and writes the account with its assignment. -/
structure Joins (ctx : Context) (id : String) (new : NewRow) (data : AcceptInvitation) (now : Int)
    (x : StaffInvitation) (a : Reply) (log : List Write) (db : Db) : Prop where
  reply : a = .created id
  writes : log = [.updateInvitation x.id (.consumedAt now), .insertUser (invitedUser ctx id data x),
    .insertAssignment (newAssignment ctx new id x.role true true)]
  invitation : db.invitations.get x.id = some x
  tokenHash : x.tokenHash = data.tokenHash
  organization : x.organizationId = ctx.organizationId
  isOpen : x.isOpen = true
  unexpired : now < x.expiresAt
  freshUser : db.users.get id = none
  freshUsername : ∀ k u, db.users.get k = some u → ¬ (u.organizationId = ctx.organizationId ∧
    u.username = data.username)
  freshAssignment : db.assignments.get new.id = none

/-- An accept joins, or answers that the invitation is invalid and writes nothing. -/
def Accepts (ctx : Context) (id : String) (new : NewRow) (data : AcceptInvitation) (now : Int)
    (a : Reply) (log : List Write) (db : Db) : Prop :=
  (a = .invitationInvalid ∧ log = []) ∨ ∃ x, Joins ctx id new data now x a log db

theorem acceptInvitation_wp (ctx : Context) (id : String) (new : NewRow) (data : AcceptInvitation)
    (now : Int) (s : Db) :
    (acceptInvitation ctx id new data now).wp Protected Coherent
      (fun a _ log s => Accepts ctx id new data now a log s) [] [] s := by
  apply wp_authorityInvariants
  intro s₀ _ _
  rw [Prog.bind_assoc]
  apply wp_updateInvitations
  intro s₁ _ hc₁ s₂ _ _ found rows hfound hrows
  simp only [applyAll_nil, List.nil_append] at hfound hrows ⊢
  have hmatch : ∀ i, (i ∈ found ∨ i ∈ rows) → i.tokenHash = data.tokenHash ∧
      i.organizationId = ctx.organizationId ∧ i.isOpen = true ∧ now < i.expiresAt := by
    intro i hi
    rw [hfound, hrows] at hi
    rcases hi with hi | hi
    · simpa using (List.mem_filter.mp hi).2
    · simpa using (mem_again hi).2.1
  have hone : rows = [] ∨ ∃ x, rows = [x] := by
    rw [hrows, hfound]
    apply again_unique
    intro x y hx hy hpx hpy
    simp only [decide_eq_true_eq] at hpx hpy
    exact hc₁.invitationHashes _ _ x y hx hy (hpx.1.trans hpy.1.symm)
  rcases hone with rfl | ⟨x, rfl⟩
  · apply wp_exclusion
    intro s₃ _ _ _ s₄ _ _
    exact .inl ⟨rfl, rfl⟩
  · obtain ⟨hx₂, _, y, hy, hyx⟩ :=
      mem_again (r := x) (by rw [← hrows]; exact List.mem_singleton.mpr rfl)
    have hx := hmatch x (.inr (List.mem_singleton.mpr rfl))
    have hlocked : ∀ {K : List LockKey},
      LockKey.invitation x.id ∈ found.flatMap StaffInvitation.keys ++ K := fun {K} =>
      List.mem_append_left K (List.mem_flatMap.mpr ⟨y, hy, by rw [← hyx]; exact List.mem_cons_self⟩)
    simp only [List.head?_cons, Option.map_some, Prog.bind_assoc]
    refine wp_newAccount (fun _ => ⟨rfl, rfl⟩) fun s₃ h₃ _ hfresh hname hfree K hK => ?_
    apply wp_exclusion
    intro s₄ h₄ _ _ s₅ h₅ _
    have h₃₅ := h₄.trans h₅
    have hinvitation : s₅.invitations.get x.id = some x := by
      rw [h₃₅.invitations x.id
          (hK _ (List.mem_append_right _ (by rw [List.append_assoc]; exact hlocked))),
        h₃.invitations x.id (by rw [List.append_assoc]; exact hlocked)]
      exact hx₂
    have hnoUser : s₅.users.get id = none := by
      rw [h₃₅.users id (hK _ (by simp [User.keys]))]
      exact hfresh
    have hnoName : ∀ k u, s₅.users.get k = some u → ¬ (u.organizationId = ctx.organizationId ∧
        u.username = data.username) := by
      intro k u hu hsame
      obtain ⟨v, hv, ho, hn⟩ := h₃₅.usernames k u (hK _ (by simp [User.keys, hsame.1, hsame.2])) hu
      exact hname k v hv ⟨ho.trans hsame.1, hn.trans hsame.2⟩
    have hnoAssignment : s₅.assignments.get new.id = none := by
      rw [Option.eq_none_iff_forall_ne_some]
      intro a ha
      rw [h₃₅.assignments new.id a (hK _ (by simp [UserRoleAssignment.keys, newAssignment])) ha]
        at hfree
      cases hfree
    exact .inr ⟨x, rfl, rfl, hinvitation, hx.1, hx.2.1, hx.2.2.1, hx.2.2.2, hnoUser, hnoName,
      hnoAssignment⟩

/-! ## Reset tokens -/

theorem wp_lockUsers {β : Type} {Q : β → List LockKey → List Write → Db → Prop}
    {held : List LockKey} {log : List Write} {s : Db} {p : User → Bool} {f : Option User → Action β}
    (hlog : ∀ s : Db, (applyAll s log).users = s.users)
    (h : ∀ s' o K, Protected held s s' → Coherent s' → (∀ k ∈ held, k ∈ K) →
      (∀ u, o = some u → s'.users.get u.id = some u ∧ p u = true ∧ .user u.id ∈ K) →
      (f o).wp Protected Coherent Q K log s') :
    (lockUsers .readCommitted p >>= f).wp Protected Coherent Q held log s := by
  rw [lockUsers, Prog.bind_assoc]
  refine wp_modify fun s₁ h₁ _ s₂ h₂ hc₂ found rows hfound hrows _ => ?_
  have hnil : (rows.flatMap fun _ : User => ([] : List Write)) = [] := by simp
  rw [hnil, List.append_nil]
  refine h s₂ rows.head? _ (h₁.trans h₂) hc₂ (fun k hk => List.mem_append_right _ hk) ?_
  intro u hu
  obtain ⟨hget, hp, v, hv, hvu⟩ := mem_again (hrows ▸ List.mem_of_head? hu)
  rw [hlog] at hget
  refine ⟨hget, hp, ?_⟩
  rw [List.append_assoc]
  exact List.mem_append_left _ (List.mem_flatMap.mpr ⟨v,
      hv, by rw [← hvu]; exact List.mem_singleton.mpr rfl⟩)

/-- An update of a user whose row is locked finds it. -/
theorem wp_updateUser_locked {β : Type} {Q : β → List LockKey → List Write → Db → Prop}
    {held : List LockKey} {log : List Write} {s : Db} {ctx : Context} {u : User} {patch : UserPatch}
    {f : Option User → Action β} (hlog : ∀ s : Db, (applyAll s log).users = s.users)
    (hu : s.users.get u.id = some u) (hof : u.organizationId = ctx.organizationId)
    (hheld : .user u.id ∈ held)
    (h : ∀ s' K, Protected held s s' → Coherent s' → (∀ k ∈ held, k ∈ K) →
      (f (some (patch.set u))).wp Protected Coherent Q K (log ++ [.updateUser u.id patch]) s') :
    (updateUser .readCommitted ctx u.id patch >>= f).wp Protected Coherent Q held log s := by
  rw [updateUser, updateUsers, Prog.bind_assoc]
  refine wp_modify fun s₁ h₁ _ s₂ h₂ hc₂ found rows hfound hrows _ => ?_
  rw [hlog] at hfound hrows
  have hp : ofUser ctx u.id u = true := by simp [ofUser, hof]
  have hu₁ : s₁.users.get u.id = some u := (h₁.users u.id hheld).trans hu
  have hu₂ : s₂.users.get u.id = some u := (h₂.users u.id hheld).trans hu₁
  have hfound : found = [u] := by
    rw [hfound]
    exact Table.filter_unique hu₁ hp fun x _ hx => ofUser_id hx
  have hrows : rows = [u] := by
    rw [hrows, hfound]
    simp [again, hu₂, hp]
  subst hrows
  exact h s₂ _ (h₁.trans h₂) hc₂ fun k hk => List.mem_append_right _ hk

section
variable {log : List Write} {db : Db} {k : String}

theorem token_kept {z : PasswordResetToken} (hinsert : ∀ w ∈ log, ∀ t, w ≠ .insertToken t)
    (hdelete : ∀ w ∈ log, w ≠ .deleteToken z.userId k ∧ w ≠ .deleteUser z.userId)
    (h : db.tokens.get k = some z) :
    ∃ y, (applyAll db log).tokens.get k = some y ∧ y.userId = z.userId ∧ y.tokenHash = z.tokenHash := by
  refine applyAll_invariant (P := fun (s : Db) => ∃ y, s.tokens.get k = some y ∧
    y.userId = z.userId ∧ y.tokenHash = z.tokenHash)
    ?_ ⟨z, h, rfl, rfl⟩
  intro w hw s ⟨y, hy, hu, hh⟩
  rw [get_tokens, hy]
  cases w with
  | insertToken t => exact absurd rfl (hinsert _ hw t)
  | consumeToken userId id now =>
    by_cases hk : k = id
    · by_cases hyu : y.userId = userId
      · exact ⟨Write.consume now y, by simp [Write.tokenAt, hk, hyu], hu, hh⟩
      · exact ⟨y, by simp [Write.tokenAt, hk, hyu], hu, hh⟩
    · exact ⟨y, by simp [Write.tokenAt, hk], hu, hh⟩
  | deleteToken userId id =>
    refine ⟨y, ?_, hu, hh⟩
    by_cases hk : k = id
    · have hne : y.userId ≠ userId := by
        intro he
        apply (hdelete _ hw).1
        rw [hk, ← hu, he]
      simp [Write.tokenAt, hk, hne]
    · simp [Write.tokenAt, hk]
  | deleteUser id =>
    have hne : y.userId ≠ id := by
      intro he
      apply (hdelete _ hw).2
      rw [← hu, he]
    exact ⟨y, by simp [Write.tokenAt, hne], hu, hh⟩
  | _ => exact ⟨y, rfl, hu, hh⟩

theorem tokenConflict_none {t : PasswordResetToken} (h : tokenConflict t db = none) :
    (∀ k x, db.tokens.get k = some x → x.tokenHash ≠ t.tokenHash) ∧
      (t.isOpen = true → ∀ k x, db.tokens.get k = some x → x.userId = t.userId → x.isOpen = false) := by
  unfold tokenConflict at h
  split at h
  · cases h
  case isFalse hc =>
    simp only [not_or, not_and, List.any_eq_true, decide_eq_true_eq, not_exists] at hc
    refine ⟨fun k x hx => hc.2.1 x (Table.mem_of_get hx), fun ho k x hx hu => ?_⟩
    exact Bool.eq_false_iff.mpr (hc.2.2 ho x (Table.mem_of_get hx) hu)

end

def newToken (ctx : Context) (new : NewRow) (userId tokenHash : String) (clock : ResetClock) :
    PasswordResetToken :=
  ⟨new.id, ctx.organizationId, userId, tokenHash, clock.expiry + passwordResetTtlMs, none,
    new.createdAt⟩

/-- The writes before the insert of an issued token: the open ones of its user are
consumed and the stale ones deleted. -/
def supersede (userId : String) (now : Int) (closed dropped : List String) : List Write :=
  closed.map (fun k => .consumeToken userId k now) ++ dropped.map fun k => .deleteToken userId k

/-- An issued token: it goes to an active account, and it is its only open one. -/
structure Issues (ctx : Context) (new : NewRow) (username tokenHash : String) (clock : ResetClock)
    (u : User) (a : Reply) (log : List Write) (db : Db) : Prop where
  reply : a = .resetRequested .issued
  writes : ∃ closed dropped, log = supersede u.id clock.issue closed dropped ++
    [.insertToken (newToken ctx new u.id tokenHash clock)]
  user : db.users.get u.id = some u
  isActive : u.isActive = true
  organization : u.organizationId = ctx.organizationId
  username : u.username = username
  onlyOpen : ∀ k x, (applyAll db log).tokens.get k = some x → x.userId = u.id →
    x.isOpen = true → k = new.id
  onlyHash : ∀ k x, (applyAll db log).tokens.get k = some x → x.tokenHash = tokenHash → k = new.id

/-- A reset request issues a token, or answers why not and writes nothing. -/
def Requests (ctx : Context) (new : NewRow) (username tokenHash : String) (clock : ResetClock)
    (a : Reply) (log : List Write) (db : Db) : Prop :=
  (∃ o, o ≠ .issued ∧ a = .resetRequested o ∧ log = []) ∨
    ∃ u, Issues ctx new username tokenHash clock u a log db

/-- An accepted insert of a token after the user's tokens were superseded. -/
theorem issues_of_insert {ctx : Context} {new : NewRow} {tokenHash : String} {clock : ResetClock}
    {u : User} {closed dropped : List String} {s t : Db} {K : List LockKey}
    (huser : t.users.get u.id = some u) (hactive : u.isActive = true)
    (horg : u.organizationId = ctx.organizationId) (hu : .user u.id ∈ K)
    (hdropped : ∀ k ∈ dropped, .token k ∈ K)
    (h : Protected ((newToken ctx new u.id tokenHash clock).keys ++ K) s t)
    (hcheck : tokenConflict (newToken ctx new u.id tokenHash clock)
        (applyAll s (supersede u.id clock.issue closed dropped)) = none) :
    Issues ctx new u.username tokenHash clock u (.resetRequested .issued)
      (supersede u.id clock.issue closed dropped ++
          [.insertToken (newToken ctx new u.id tokenHash clock)]) t := by
  obtain ⟨hhash, hopen⟩ := tokenConflict_none hcheck
  have hinsert : ∀ w ∈ supersede u.id clock.issue closed dropped, ∀ t, w ≠ .insertToken t := by
    intro w hw t he
    simp [he, supersede] at hw
  have hbefore : ∀ k x, k ≠ new.id → (applyAll t (supersede u.id clock.issue closed dropped ++
      [.insertToken (newToken ctx new u.id tokenHash clock)])).tokens.get k = some x →
      (applyAll t (supersede u.id clock.issue closed dropped)).tokens.get k = some x := by
    intro k x hk hx
    rw [applyAll_append, applyAll_cons, applyAll_nil, get_tokens] at hx
    simpa [Write.tokenAt, newToken, hk] using hx
  refine ⟨rfl, ⟨closed, dropped, rfl⟩, huser, hactive, horg, rfl, ?_, ?_⟩
  · intro k x hx hxu hxo
    by_contra hk
    have hx := hbefore k x hk hx
    rcases token_origin hx with ⟨y, hy, _, _, hyx⟩ | ⟨y, hy, _⟩
    · obtain rfl := hyx hxo
      have hs := h.openTokens k y (by simp [newToken, PasswordResetToken.keys, hxu]) hy hxo
      have hv : (applyAll s (supersede u.id clock.issue closed dropped)).tokens.get k = some y := by
        rw [tokens_congr (hs.trans hy.symm)]
        exact hx
      exact Bool.eq_false_iff.mp (hopen rfl k y hv hxu) hxo
    · exact hinsert _ hy y rfl
  · intro k x hx hxh
    by_contra hk
    have hx := hbefore k x hk hx
    rcases token_origin hx with ⟨y, hy, _, hyx, _⟩ | ⟨y, hy, _⟩
    · obtain ⟨z, hz, hzy⟩ := h.tokenHashes k y (by simp [newToken, PasswordResetToken.keys,
          hyx, hxh]) hy
      by_cases hdrop : k ∈ dropped ∧ z.userId = u.id
      · have hzt := h.tokens k z (List.mem_append_right _ (hdropped k hdrop.1))
          (List.mem_append_right _ (hdrop.2 ▸ hu)) hz
        have hv : (applyAll s (supersede u.id clock.issue closed dropped)).tokens.get k = some x := by
          rw [tokens_congr (hz.trans hzt.symm)]
          exact hx
        exact hhash k x hv hxh
      · have hkeep : ∀ w ∈ supersede u.id clock.issue closed dropped, w ≠ .deleteToken z.userId k ∧
            w ≠ .deleteUser z.userId := by
          intro w hw
          simp only [supersede, List.mem_append, List.mem_map] at hw
          rcases hw with ⟨j, _, rfl⟩ | ⟨j, hj, rfl⟩
          · simp
          · refine ⟨fun he => hdrop ?_, by simp⟩
            simp only [Write.deleteToken.injEq] at he
            exact ⟨he.2 ▸ hj, he.1.symm⟩
        obtain ⟨v, hv, _, hvz⟩ := token_kept hinsert hkeep hz
        exact hhash k v hv (hvz.trans (hzy.trans (hyx.trans hxh)))
    · exact hinsert _ hy y rfl

theorem writes_of_owned {rows : List PasswordResetToken} {userId : String}
    (write : String → String → Write) (h : ∀ t ∈ rows, t.userId = userId) :
    (rows.flatMap fun t => [write t.userId t.id]) = (rows.map fun t => t.id).map (write userId) := by
  rw [← List.map_eq_flatMap, List.map_map]
  refine List.map_congr_left fun t ht => ?_
  rw [h t ht]
  rfl

theorem requestPasswordReset_wp (ctx : Context) (new : NewRow) (username tokenHash : String)
    (clock : ResetClock) (s : Db) :
    (requestPasswordReset ctx new username tokenHash clock).wp Protected Coherent
      (fun a _ log s => Requests ctx new username tokenHash clock a log s) [] [] s := by
  refine wp_lockUsers (fun _ => rfl) fun s₁ locked K h₁ hc₁ _ hlocked => ?_
  cases locked with
  | none => exact fun _ _ _ => .inl ⟨.unknownUser, by simp, rfl, rfl⟩
  | some user =>
    obtain ⟨huser, hof, hkey⟩ := hlocked user rfl
    simp only [decide_eq_true_eq] at hof
    by_cases hactive : user.isActive = true
    · simp only [hactive, Bool.not_true, Bool.false_eq_true, if_false]
      by_cases hemail : user.email.isNone = true
      · simp only [hemail, if_true]
        exact fun _ _ _ => .inl ⟨.noEmail, by simp, rfl, rfl⟩
      · simp only [hemail, Bool.false_eq_true, if_false]
        apply wp_query
        intro s₂ h₂ _
        split
        · exact fun _ _ _ => .inl ⟨.cooldown, by simp, rfl, rfl⟩
        · rw [issueWithinTransaction]
          simp only [Prog.bind_assoc]
          refine wp_modify fun s₃ h₃ _ s₄ h₄ _ found rows _ hrows _ =>
            wp_modify fun s₅ h₅ _ s₆ h₆ _ stale old _ hold _ => ?_
          refine wp_insert fun s₇ h₇ _ hcheck => ?_
          intro s₈ h₈ _
          have hclosed : ∀ t ∈ rows, t.userId = user.id := by
            intro t ht
            have hp := (mem_again (hrows ▸ ht)).2.1
            simp only [decide_eq_true_eq] at hp
            exact hp.1
          have hdropped : ∀ t ∈ old, t.userId = user.id := by
            intro t ht
            have hp := (mem_again (hold ▸ ht)).2.1
            simp only [decide_eq_true_eq] at hp
            exact hp.1
          have hlog : rows.flatMap (fun t => [Write.consumeToken t.userId t.id clock.issue]) ++
              old.flatMap (fun t => [.deleteToken t.userId t.id]) =
              supersede user.id clock.issue (rows.map fun t => t.id) (old.map fun t => t.id) := by
            rw [writes_of_owned (fun u k => .consumeToken u k clock.issue) hclosed,
              writes_of_owned .deleteToken hdropped]
            rfl
          have huser₈ : s₈.users.get user.id = some user := by
            rw [h₈.users user.id (by simp [hkey]), h₇.users user.id (by simp [hkey]),
              h₆.users user.id (by simp [hkey]),
              h₅.users user.id (by simp [hkey]), h₄.users user.id hkey, h₃.users user.id hkey,
              h₂.users user.id hkey]
            exact huser
          rw [List.append_assoc] at h₈
          simp only [List.nil_append] at hcheck ⊢
          rw [hlog] at hcheck ⊢
          refine .inr ⟨user, ?_⟩
          rw [← hof.2]
          refine issues_of_insert huser₈ hactive hof.1 (by simp [hkey]) ?_ h₈ hcheck
          intro k hk
          obtain ⟨t, ht, rfl⟩ := List.mem_map.mp hk
          have hwrite : LockKey.token t.id ∈
              (old.flatMap fun t => [Write.deleteToken t.userId t.id]).flatMap Write.keys :=
            List.mem_flatMap.mpr ⟨.deleteToken t.userId t.id,
              List.mem_flatMap.mpr ⟨t, ht, by simp⟩, by simp [Write.keys]⟩
          simp only [List.mem_append]
          exact .inr (.inl (.inr hwrite))
    · simp only [hactive, Bool.not_false, if_true]
      exact fun _ _ _ => .inl ⟨.disabledUser, by simp, rfl, rfl⟩

/-- A consumption that answers `ok` consumes one open token of an active account of
its organization, and writes the password with a new epoch. -/
structure Redeems (ctx : Context) (tokenHash passwordHash : String) (now : Int)
    (t : PasswordResetToken) (u : User) (a : Reply)
    (log : List Write) (db : Db) : Prop where
  reply : a = .ok
  writes : log = [.consumeToken u.id t.id now, .updateUser u.id
    { passwordHash := some passwordHash, advanceAuthEpoch := true }]
  token : db.tokens.get t.id = some t
  tokenHash : t.tokenHash = tokenHash
  isOpen : t.isOpen = true
  unexpired : now < t.expiresAt
  owner : t.userId = u.id
  user : db.users.get u.id = some u
  isActive : u.isActive = true
  tokenOrganization : t.organizationId = ctx.organizationId
  organization : u.organizationId = ctx.organizationId

/-- A consumption redeems a token, or answers that the token is invalid and writes nothing. -/
def Consumes (ctx : Context) (tokenHash passwordHash : String) (now : Int) (a : Reply)
    (log : List Write) (db : Db) : Prop :=
  (a = .passwordResetInvalid ∧ log = []) ∨ ∃ t u, Redeems ctx tokenHash passwordHash now t u a log db

theorem consumePasswordReset_wp (ctx : Context) (tokenHash passwordHash : String)
    (identifiedAt consumedAt : Int) (s : Db) :
    (consumePasswordReset ctx tokenHash passwordHash identifiedAt consumedAt).wp Protected Coherent
      (fun a _ log s => Consumes ctx tokenHash passwordHash consumedAt a log s) [] [] s := by
  apply wp_query
  intro s₁ _ _
  generalize (((applyAll s₁ ([] : List Write)).tokens.rows.find?
        (isOpenToken ctx tokenHash identifiedAt)).map (·.userId)) = identified
  cases identified with
  | none => exact fun _ _ _ => .inl ⟨rfl, rfl⟩
  | some userId =>
    refine wp_lockUsers (fun _ => rfl) fun s₂ locked K h₂ hc₂ _ hlocked => ?_
    cases locked with
    | none => exact fun _ _ _ => .inl ⟨rfl, rfl⟩
    | some user =>
      obtain ⟨huser, hof, hkey⟩ := hlocked user rfl
      simp only [ofUser, decide_eq_true_eq] at hof
      by_cases hactive : user.isActive = true
      · simp only [hactive, Bool.not_true, Bool.false_eq_true, if_false]
        rw [consumeByTokenHashForUserWithinTransaction, Prog.bind_assoc]
        refine wp_modify fun s₃ h₃ hc₃ s₄ h₄ _ found rows hfound hrows _ => ?_
        simp only [applyAll_nil, List.nil_append] at hfound hrows ⊢
        have hmatch : ∀ t ∈ rows, s₄.tokens.get t.id = some t ∧
            isOpenToken ctx tokenHash consumedAt t = true ∧ t.userId = user.id ∧
            .token t.id ∈ found.flatMap PasswordResetToken.keys := by
          intro t ht
          obtain ⟨hget, hp, x, hx, hxt⟩ := mem_again (hrows ▸ ht)
          simp only [Bool.and_eq_true, decide_eq_true_eq] at hp
          exact ⟨hget, hp.1.1, hp.1.2.trans hof.2.symm,
            List.mem_flatMap.mpr ⟨x, hx, by rw [← hxt]; exact List.mem_cons_self⟩⟩
        have hone : rows = [] ∨ ∃ t, rows = [t] := by
          rw [hrows, hfound]
          apply again_unique
          intro x y hx hy hpx hpy
          simp only [isOpenToken, Bool.and_eq_true, decide_eq_true_eq] at hpx hpy
          exact hc₃.tokenHashes _ _ x y hx hy (hpx.1.1.1.trans hpy.1.1.1.symm)
        rcases hone with rfl | ⟨t, rfl⟩
        · exact fun _ _ _ => .inl ⟨rfl, rfl⟩
        · obtain ⟨hget, hopen, howner, htoken⟩ := hmatch t (List.mem_singleton.mpr rfl)
          simp only [isOpenToken, decide_eq_true_eq] at hopen
          simp only [List.head?_cons, Option.map_some, Prog.pure_eq, Prog.done_bind]
          rw [updatePasswordAndAdvanceAuthEpoch,
            show (Write.consume consumedAt t).userId = user.id from howner]
          have huser₄ : s₄.users.get user.id = some user := by
            rw [h₄.users user.id hkey, h₃.users user.id hkey]
            exact huser
          refine wp_updateUser_locked (u := user) (fun _ => rfl) huser₄
            (hof.1.trans hopen.2.1.symm) ?_ fun s₅ K' h₅ _ hK' => ?_
          · exact List.mem_append_right _ hkey
          · intro s₆ h₆ _
            have h₄₆ := h₅.trans (h₆.mono hK')
            have hlock := List.mem_append_left
              ([t].flatMap (fun t => [Write.consumeToken t.userId t.id consumedAt])
                |>.flatMap Write.keys)
              htoken
            refine .inr ⟨t, user, rfl, ?_, ?_, hopen.1, hopen.2.2.1, hopen.2.2.2, howner, ?_,
              hactive, hopen.2.1, hof.1⟩
            · simp [howner]
            · refine h₄₆.tokens t.id t (List.mem_append_left _ hlock) (List.mem_append_right _ ?_) hget
              rw [howner]
              exact hkey
            · exact (h₄₆.users user.id (List.mem_append_right _ hkey)).trans huser₄
      · simp only [hactive, Bool.not_false, if_true]
        exact fun _ _ _ => .inl ⟨rfl, rfl⟩

end ExamSystem.Accounts
