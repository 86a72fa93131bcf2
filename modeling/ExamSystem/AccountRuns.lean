import ExamSystem.AccountCommits

/-!
# Runs of the account machine

The outline of the account commands: the committed states stay coherent, a
commit respects the keys of the others, and each command commits what
`AccountCommits` says of it.
-/

namespace ExamSystem.Accounts

open Interleaving

/-! ## Which command writes what -/

section
variable {ctx : Context} {c : AccountCommand}

theorem mayWrite_insertInvitation {i : StaffInvitation} (h : c.mayWrite ctx (.insertInvitation i)) :
    ∃ id email role tokenHash now, c = .createInvitation id email role tokenHash now := by
  cases c <;> simp_all [AccountCommand.mayWrite]

theorem mayWrite_updateInvitation {k : String} {patch : InvitationPatch}
    (h : c.mayWrite ctx (.updateInvitation k patch)) :
    (∃ id email role tokenHash now, c = .createInvitation id email role tokenHash now) ∨
      (∃ id now, c = .revokeInvitation id now) ∨
      ∃ id new data now, c = .acceptInvitation id new data now := by
  cases c <;> simp_all [AccountCommand.mayWrite]

theorem mayWrite_insertToken {t : PasswordResetToken} (h : c.mayWrite ctx (.insertToken t)) :
    ∃ new username tokenHash clock, c = .requestPasswordReset new username tokenHash clock := by
  cases c <;> simp_all [AccountCommand.mayWrite]

end

/-! ## The outline -/

def Request.Commits (r : Request) (a : Reply) (log : List Write) (db : Db) : Prop :=
  match r.command with
  | .createInvitation id email role tokenHash now =>
    Supersedes r.ctx id email role tokenHash now a log db
  | .revokeInvitation id now => Revokes r.ctx id now a log db
  | .acceptInvitation id new data now => Accepts r.ctx id new data now a log db
  | .requestPasswordReset new username tokenHash clock =>
    Requests r.ctx new username tokenHash clock a log db
  | .consumePasswordReset tokenHash passwordHash _ consumedAt =>
    Consumes r.ctx tokenHash passwordHash consumedAt a log db
  | _ => True

theorem program_wp [PasswordVerifier] (r : Request) (s : Db) :
    r.program.wp Protected Coherent (fun a _ log s => r.Commits a log s ∧
      ∀ w ∈ log, r.command.mayWrite r.ctx w) [] [] s := by
  refine wp_emits (program_emits r) (by simp) ?_
  obtain ⟨ctx, command⟩ := r
  cases command with
  | createInvitation id email role tokenHash now =>
    exact createInvitation_wp ctx id email role tokenHash now s
  | revokeInvitation id now => exact revokeInvitation_wp ctx id now s
  | acceptInvitation id new data now => exact acceptInvitation_wp ctx id new data now s
  | requestPasswordReset new username tokenHash clock =>
    exact requestPasswordReset_wp ctx new username tokenHash clock s
  | consumePasswordReset tokenHash passwordHash identifiedAt consumedAt =>
    exact consumePasswordReset_wp ctx tokenHash passwordHash identifiedAt consumedAt s
  | _ => exact wp_true _

section
variable {r : Request} {a : Reply} {log : List Write} {db : Db}

theorem invitations_untouched (hi : ∀ i, .insertInvitation i ∉ log)
    (hu : ∀ k p, .updateInvitation k p ∉ log) (k : String) :
    (applyAll db log).invitations.get k = db.invitations.get k := by
  refine applyAll_invariant (P := fun (s : Db) => s.invitations.get k = db.invitations.get k) ?_ rfl
  intro w hw s hs
  rw [get_invitations, hs]
  cases w with
  | insertInvitation i => exact absurd hw (hi i)
  | updateInvitation id patch => exact absurd hw (hu id patch)
  | _ => rfl

theorem invitations_revoked {ids : List String} {now : Int} {k : String} {x : StaffInvitation}
    (hk : k ∈ ids) (h : db.invitations.get k = some x) :
    (applyAll db (ids.map fun k => Write.updateInvitation k (.revokedAt now))).invitations.get k =
      some (InvitationPatch.set (.revokedAt now) x) := by
  induction ids generalizing db x with
  | nil => cases hk
  | cons j ids ih =>
    rw [List.map_cons, applyAll_cons]
    by_cases hj : k = j
    · have hset : (Journal.apply db (Write.updateInvitation j (.revokedAt now))).invitations.get k =
          some (InvitationPatch.set (.revokedAt now) x) := by
        rw [get_invitations, h]
        simp [Write.invitationAt, hj]
      by_cases hids : k ∈ ids
      · rw [ih hids hset]
        rfl
      · rw [invitations_after_revokes hids]
        exact hset
    · refine ih (by simpa [hj] using hk) ?_
      rw [get_invitations, h]
      simp [Write.invitationAt, hj]

/-- What a commit does to one invitation: nothing, closing an open one, or creating an open one. -/
inductive InvitationStep : Option StaffInvitation → Option StaffInvitation → Prop
  | same (o : Option StaffInvitation) : InvitationStep o o
  | closed (x : StaffInvitation) (patch : InvitationPatch) (h : x.isOpen = true) : InvitationStep
      (some x) (some (patch.set x))
  | created (x : StaffInvitation) (h : x.isOpen = true) : InvitationStep none (some x)

theorem step_of_update {k : String} {x : StaffInvitation} {patch : InvitationPatch}
    (hx : db.invitations.get x.id = some x) (ho : x.isOpen = true)
    (h : (applyAll db log).invitations.get k = Write.invitationAt (.updateInvitation x.id patch) k
        (db.invitations.get k)) :
    InvitationStep (db.invitations.get k) ((applyAll db log).invitations.get k) := by
  rw [h]
  by_cases hk : k = x.id
  · subst hk
    rw [hx]
    simp only [Write.invitationAt, if_true, Option.map_some]
    exact .closed x patch ho
  · simp only [Write.invitationAt, hk, if_false]
    exact .same _

theorem commits_invitation (hc : r.Commits a log db) (hw : ∀ w ∈ log, r.command.mayWrite r.ctx w)
    (k : String) :
    InvitationStep (db.invitations.get k) ((applyAll db log).invitations.get k) := by
  obtain ⟨ctx, command⟩ := r
  by_cases htouch : (∀ i, .insertInvitation i ∉ log) ∧ ∀ k p, .updateInvitation k p ∉ log
  · rw [invitations_untouched htouch.1 htouch.2]
    exact .same _
  · have hcommand : (∃ id email role tokenHash now,
        command = .createInvitation id email role tokenHash now) ∨
          (∃ id now, command = .revokeInvitation id now) ∨
          ∃ id new data now, command = .acceptInvitation id new data now := by
      by_contra hne
      refine htouch ⟨fun i hi => hne ?_, fun k p hp => hne ?_⟩
      · exact .inl (mayWrite_insertInvitation (hw _ hi))
      · exact mayWrite_updateInvitation (hw _ hp)
    rcases hcommand with ⟨id, email, role, tokenHash, now, rfl⟩ | ⟨id, now, rfl⟩ |
      ⟨id, new, data, now, rfl⟩
    · have hc : Supersedes ctx id email role tokenHash now a log db := hc
      obtain ⟨ids, hids, rfl⟩ := hc.writes
      rw [applyAll_append, applyAll_cons, applyAll_nil, get_invitations]
      by_cases hk : k = id
      · subst hk
        rw [hc.fresh]
        simp only [Write.invitationAt, newInvitation, if_true]
        exact .created _ rfl
      · simp only [Write.invitationAt, newInvitation, hk, if_false]
        by_cases hm : k ∈ ids
        · obtain ⟨x, hx, hat⟩ := (hids k).mp hm
          rw [invitations_revoked hm hx, hx]
          exact .closed x _ hat.2.2
        · rw [invitations_after_revokes hm]
          exact .same _
    · rcases hc with ⟨_, rfl⟩ | ⟨_, rfl, x, hx, ho, _⟩
      · exact .same _
      · have hid := Table.key_get hx
        exact step_of_update (x := x) (hid ▸ hx) ho (by rw [hid]; exact get_invitations db _ k)
    · rcases hc with ⟨_, rfl⟩ | ⟨x, hj⟩
      · exact .same _
      · rw [hj.writes]
        refine step_of_update hj.invitation hj.isOpen
          (show _ = Write.invitationAt (.updateInvitation x.id (.consumedAt now)) k
              (db.invitations.get k) from ?_)
        simp only [applyAll_cons, applyAll_nil, get_invitations, Write.invitationAt]

theorem inserted_invitation (hc : r.Commits a log db) (hw : ∀ w ∈ log, r.command.mayWrite r.ctx w)
    {x : StaffInvitation} (hx : .insertInvitation x ∈ log) :
    ∃ email role tokenHash now, Supersedes r.ctx x.id email role tokenHash now a log db ∧
      x.organizationId = r.ctx.organizationId ∧ x.email = email ∧ x.tokenHash = tokenHash := by
  obtain ⟨ctx, command⟩ := r
  obtain ⟨id, email, role, tokenHash, now, rfl⟩ := mayWrite_insertInvitation (hw _ hx)
  have hx := hw _ hx
  simp only [AccountCommand.mayWrite, reduceCtorEq, exists_false, Write.insertInvitation.injEq,
    false_or] at hx
  subst hx
  exact ⟨email, role, tokenHash, now, hc, rfl, rfl, rfl⟩

theorem inserted_token (hc : r.Commits a log db) {x : PasswordResetToken}
    (hw : ∀ w ∈ log, r.command.mayWrite r.ctx w) (hx : .insertToken x ∈ log) :
    ∃ new username clock u, r.command = .requestPasswordReset new username x.tokenHash clock ∧
      Issues r.ctx new username x.tokenHash clock u a log db ∧ x.userId = u.id := by
  obtain ⟨ctx, command⟩ := r
  obtain ⟨new, username, tokenHash, clock, rfl⟩ := mayWrite_insertToken (hw _ hx)
  rcases hc with ⟨_, _, _, rfl⟩ | ⟨u, hu⟩
  · cases hx
  · obtain ⟨closed, dropped, hlog⟩ := hu.writes
    have hx : x = newToken ctx new u.id tokenHash clock := by
      rw [hlog] at hx
      simpa [supersede] using hx
    subst hx
    exact ⟨new, username, clock, u, rfl, hu, rfl⟩

theorem supersedes_only {ctx : Context} {id email : String} {role : AssignableRole}
    {tokenHash : String} {now : Int} (h : Supersedes ctx id email role tokenHash now a log db)
    {k : String} {x : StaffInvitation} (hx : (applyAll db log).invitations.get k = some x)
    (hat : openAt ctx.organizationId email x) : k = id := by
  obtain ⟨ids, hids, rfl⟩ := h.writes
  rw [applyAll_append, applyAll_cons, applyAll_nil, get_invitations] at hx
  by_contra hk
  simp only [Write.invitationAt, newInvitation, hk, if_false] at hx
  by_cases hm : k ∈ ids
  · obtain ⟨y, hy, _⟩ := (hids k).mp hm
    rw [invitations_revoked hm hy, Option.some.injEq] at hx
    rw [← hx] at hat
    simp [openAt, InvitationPatch.set, StaffInvitation.isOpen] at hat
  · rw [invitations_after_revokes hm] at hx
    exact hm ((hids k).mpr ⟨x, hx, hat⟩)

theorem commits_coherent (h : Coherent db) (hc : r.Commits a log db)
    (hw : ∀ w ∈ log, r.command.mayWrite r.ctx w) (hintact : (applyAll db log).intact = true) :
    Coherent (applyAll db log) where
  intact := hintact
  openInvitations i j x y hx hy hxo hyo ho he := by
    rcases invitation_origin hx with ⟨x', hx', _, _, _, hxx⟩ | ⟨x', hx', hid, _, _, _, hxx⟩
    · rcases invitation_origin hy with ⟨y', hy', _, _, _, hyy⟩ | ⟨y', hy', hid, _, _, _, hyy⟩
      · rw [hxx hxo] at hx'
        rw [hyy hyo] at hy'
        exact h.openInvitations i j x y hx' hy' hxo hyo ho he
      · obtain ⟨email, role, tokenHash, now, hs, horg, hemail, _⟩ := inserted_invitation hc hw hy'
        rw [hyy hyo] at horg hemail
        rw [← hid]
        exact supersedes_only hs hx ⟨ho.trans horg, he.trans hemail, hxo⟩
    · obtain ⟨email, role, tokenHash, now, hs, horg, hemail, _⟩ := inserted_invitation hc hw hx'
      rw [hxx hxo] at horg hemail
      rw [← hid]
      exact (supersedes_only hs hy ⟨ho ▸ horg, he ▸ hemail, hyo⟩).symm
  invitationHashes i j x y hx hy hh := by
    rcases invitation_origin hx with ⟨x', hx', _, _, hxh, _⟩ | ⟨x', hx', hxid, _, _, hxh, _⟩
    · rcases invitation_origin hy with ⟨y', hy', _, _, hyh, _⟩ | ⟨y', hy', _, _, _, hyh, _⟩
      · exact h.invitationHashes i j x' y' hx' hy' (hxh.trans (hh.trans hyh.symm))
      · obtain ⟨email, role, tokenHash, now, hs, _, _, hth⟩ := inserted_invitation hc hw hy'
        exact absurd (hxh.trans (hh.trans (hyh.symm.trans hth))) (hs.freshHash i x' hx')
    · obtain ⟨email, role, tokenHash, now, hs, _, _, hth⟩ := inserted_invitation hc hw hx'
      rcases invitation_origin hy with ⟨y', hy', _, _, hyh, _⟩ | ⟨y', hy', hyid, _, _, _⟩
      · exact absurd (hyh.trans (hh.symm.trans (hxh.symm.trans hth))) (hs.freshHash j y' hy')
      · obtain ⟨_, _, _, _, hs', _⟩ := inserted_invitation hc hw hy'
        have hid : Reply.created x'.id = .created y'.id := hs.reply.symm.trans hs'.reply
        rw [← hxid, ← hyid]
        exact Reply.created.inj hid
  exclusive i x hx := by
    have hstep := commits_invitation hc hw i
    rw [hx] at hstep
    cases ho : db.invitations.get i with
    | none =>
      rw [ho] at hstep
      cases hstep with
      | created _ hopen => simp [StaffInvitation.isOpen] at hopen; exact .inl hopen.1
    | some y =>
      rw [ho] at hstep
      cases hstep with
      | same => exact h.exclusive i x ho
      | closed _ patch hopen =>
        simp only [StaffInvitation.isOpen, Bool.and_eq_true, Option.isNone_iff_eq_none] at hopen
        cases patch with
        | consumedAt t => exact .inr hopen.2
        | revokedAt t => exact .inl hopen.1
  openTokens i j x y hx hy hxo hyo hu := by
    rcases token_origin hx with ⟨x', hx', _, _, hxx⟩ | ⟨x', hx', _, _, _, hxx⟩
    · rcases token_origin hy with ⟨y', hy', _, _, hyy⟩ | ⟨y', hy', _, _, _, hyy⟩
      · rw [hxx hxo] at hx'
        rw [hyy hyo] at hy'
        exact h.openTokens i j x y hx' hy' hxo hyo hu
      · obtain ⟨_, _, _, u, _, hi, hyu⟩ := inserted_token hc hw hy'
        rw [hyy hyo] at hyu
        rw [hi.onlyOpen i x hx (hu.trans hyu) hxo, hi.onlyOpen j y hy hyu hyo]
    · obtain ⟨_, _, _, u, _, hi, hxu⟩ := inserted_token hc hw hx'
      rw [hxx hxo] at hxu
      rw [hi.onlyOpen i x hx hxu hxo, hi.onlyOpen j y hy (hu.symm.trans hxu) hyo]
  tokenHashes i j x y hx hy hh := by
    rcases token_origin hx with ⟨x', hx', _, hxh, _⟩ | ⟨x', hx', _, _, hxh, _⟩
    · rcases token_origin hy with ⟨y', hy', _, hyh, _⟩ | ⟨y', hy', _, _, hyh, _⟩
      · exact h.tokenHashes i j x' y' hx' hy' (hxh.trans (hh.trans hyh.symm))
      · obtain ⟨_, _, _, u, _, hi, _⟩ := inserted_token hc hw hy'
        rw [hi.onlyHash i x hx (hh.trans hyh.symm), hi.onlyHash j y hy hyh.symm]
    · obtain ⟨_, _, _, u, _, hi, _⟩ := inserted_token hc hw hx'
      rw [hi.onlyHash i x hx hxh.symm, hi.onlyHash j y hy (hh.symm.trans hxh.symm)]

end

def accounts [PasswordVerifier] : Outline (Request.program) (fun _ : AccountCommit => True) where
  Inv := Coherent
  Rely := Protected
  Post r a _ log s := r.Commits a log s ∧ ∀ w ∈ log, r.command.mayWrite r.ctx w
  refl := Protected.refl
  trans _ _ _ _ := Protected.trans
  start r s _ := program_wp r s
  commit c held log hb hp ha hk ho hi _ := by
    rw [ha] at hi ⊢
    refine ⟨commits_coherent hb hp.1 hp.2 hi,
      fun K hK => Protected.of_unlocked fun w hw k hkw hkK => ?_⟩
    exact ho k (hk w hw k hkw) (hK k hkK)

def accountRun [PasswordVerifier] (db : Db) (es : List (Event Request)) : AccountMachine :=
  Machine.run Request.program (Machine.idle db) es

section
variable [PasswordVerifier] {db : Db}

theorem accountRun_commit (h : Coherent db) (es : List (Event Request)) {c : AccountCommit}
    (hc : c ∈ (accountRun db es).history) :
    Coherent c.before ∧ Coherent c.after ∧
      ∃ log, c.request.Commits c.reply log c.before ∧
        (∀ w ∈ log, c.request.command.mayWrite c.request.ctx w) ∧
        c.after = applyAll c.before log := by
  obtain ⟨_, hcommits, _⟩ := accounts.sound h es fun _ _ => trivial
  obtain ⟨hb, ha, _, held, log, hp, he⟩ := hcommits c hc
  exact ⟨hb, ha, log, hp.1, hp.2, he⟩

theorem accountRun_coherent (h : Coherent db) (es : List (Event Request)) :
    Coherent (accountRun db es).committed :=
  (accounts.sound h es fun _ _ => trivial).1

theorem accountRun_path (db : Db) (es : List (Event Request)) :
    Path db (accountRun db es).history (accountRun db es).committed := by
  obtain ⟨cs, hh, hp⟩ := run_commits Request.program es (Machine.idle db)
  rw [show (accountRun db es).history = cs from hh]
  exact hp

theorem accountRun_append (db : Db) (es es' : List (Event Request)) :
    ∃ cs, (accountRun db (es ++ es')).history = (accountRun db es).history ++ cs ∧
      Path (accountRun db es).committed cs (accountRun db (es ++ es')).committed := by
  have happend : accountRun db (es ++ es') = Machine.run Request.program (accountRun db es) es' :=
    List.foldl_append
  rw [happend]
  exact run_commits Request.program es' (accountRun db es)

end

/-! ## A small store -/

@[reducible] def plainPasswords : PasswordVerifier := ⟨fun password hash => password = hash⟩

def ada : User := ⟨"ada", "org", "ada", "secret", "Ada", .admin, true, some "ada@org", 0⟩

def staffed : Db where
  users := ⟨[ada], by decide⟩
  assignments := ⟨[⟨"ada-admin", "org", "ada", .admin, true, true, 0⟩], by decide⟩
  profiles := Table.empty
  tokens := Table.empty
  invitations := Table.empty

theorem staffed_coherent : Coherent staffed where
  intact := by decide
  openInvitations i j x y h := by cases h
  invitationHashes i j x y h := by cases h
  exclusive i x h := by cases h
  openTokens i j x y h := by cases h
  tokenHashes i j x y h := by cases h

/-- A request that runs with no other transaction in between, in `n` statements. -/
def alone (i : Nat) (r : Request) (n : Nat) : List (Event Request) :=
  .start r :: List.replicate (n + 1) (.advance i)

end ExamSystem.Accounts
