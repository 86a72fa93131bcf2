import ExamSystem.AccountRuns

/-!
# The lifecycle of staff invitations

An invitation is created open, is closed once, and stays as it was closed. The
one accept that consumes it makes its account; every other accept writes nothing.
-/

namespace ExamSystem.Accounts

open Interleaving

/-- The commit makes the account of the invitation `x`, and nothing else. -/
structure AccountMade (c : AccountCommit) (id : String) (new : NewRow) (data : AcceptInvitation)
    (now : Int) (x : StaffInvitation) : Prop where
  reply : c.reply = .created id
  invitation : c.before.invitations.get x.id = some x
  token : x.tokenHash = data.tokenHash ∧ x.organizationId = c.request.ctx.organizationId
  isOpen : x.isOpen = true
  unexpired : now < x.expiresAt
  usernameFree : ∀ k u, c.before.users.get k = some u →
    ¬ (u.organizationId = c.request.ctx.organizationId ∧ u.username = data.username)
  newAccount : c.before.users.get id = none
  consumed : c.after.invitations.get x.id = some { x with consumedAt := some now }
  account : c.after.users.get id = some (invitedUser c.request.ctx id data x)
  soleAssignment : ∀ k a, c.after.assignments.get k = some a ∧ a.userId = id ↔
    k = new.id ∧ a = newAssignment c.request.ctx new id x.role true true
  otherInvitations : ∀ k, k ≠ x.id → c.after.invitations.get k = c.before.invitations.get k
  otherUsers : ∀ k, k ≠ id → c.after.users.get k = c.before.users.get k
  otherAssignments : ∀ k, k ≠ new.id → c.after.assignments.get k = c.before.assignments.get k

/-- The commit is an accept that consumed the invitation `k`. -/
def Accepted (c : AccountCommit) (k : String) : Prop :=
  ∃ id new data now x, c.request.command = .acceptInvitation id new data now ∧
    AccountMade c id new data now x ∧ x.id = k

section
variable {r : Request} {a : Reply} {log : List Write} {db : Db}

theorem commits_closed (hc : r.Commits a log db) (hw : ∀ w ∈ log, r.command.mayWrite r.ctx w)
    {k : String} {x : StaffInvitation} (hx : db.invitations.get k = some x) (h : x.isOpen = false) :
    (applyAll db log).invitations.get k = some x := by
  have hstep := commits_invitation hc hw k
  rw [hx] at hstep
  generalize (applyAll db log).invitations.get k = o at hstep ⊢
  cases hstep with
  | same => rfl
  | closed _ patch ho => rw [h] at ho; cases ho

theorem joins_made {c : AccountCommit} {id : String} {new : NewRow} {data : AcceptInvitation}
    {now : Int} {x : StaffInvitation} (hb : c.before.intact = true)
    (h : Joins c.request.ctx id new data now x c.reply log c.before)
    (ha : c.after = applyAll c.before log) :
    AccountMade c id new data now x := by
  have hinvitations : ∀ k, c.after.invitations.get k = Write.invitationAt
      (.updateInvitation x.id (.consumedAt now)) k (c.before.invitations.get k) := by
    intro k
    rw [ha, h.writes]
    simp only [applyAll_cons, applyAll_nil, get_invitations, Write.invitationAt]
  have husers : ∀ k, c.after.users.get k = if k = id then some (invitedUser c.request.ctx id data x)
      else c.before.users.get k := by
    intro k
    rw [ha, h.writes]
    simp only [applyAll_cons, applyAll_nil, get_users, Write.userAt, invitedUser]
  have hassignments : ∀ k, c.after.assignments.get k =
      if k = new.id then some (newAssignment c.request.ctx new id x.role true true)
        else c.before.assignments.get k := by
    intro k
    rw [ha, h.writes]
    simp only [applyAll_cons, applyAll_nil, get_assignments, Write.assignmentAt, newAssignment]
  refine ⟨h.reply, h.invitation, ⟨h.tokenHash, h.organization⟩, h.isOpen, h.unexpired,
    h.freshUsername, h.freshUser, ?_, ?_, ?_, ?_, ?_, ?_⟩
  · rw [hinvitations, h.invitation]
    simp [Write.invitationAt, InvitationPatch.set]
  · rw [husers, if_pos rfl]
  · intro k a
    rw [hassignments]
    by_cases hk : k = new.id
    · rw [if_pos hk, Option.some.injEq]
      constructor
      · rintro ⟨he, _⟩; exact ⟨hk, he.symm⟩
      · rintro ⟨_, he⟩; exact ⟨he.symm, by rw [he]; rfl⟩
    · rw [if_neg hk]
      constructor
      · rintro ⟨hget, hu⟩
        obtain ⟨v, hv⟩ := assignee_exists hb hget
        rw [hu, h.freshUser] at hv
        cases hv
      · rintro ⟨he, _⟩; exact absurd he hk
  · intro k hk
    rw [hinvitations]
    simp [Write.invitationAt, hk]
  · intro k hk
    rw [husers, if_neg hk]
  · intro k hk
    rw [hassignments, if_neg hk]

end

section
variable [PasswordVerifier] {db : Db}

/-- An accept of a run makes one account, or answers that the invitation is invalid
and changes nothing. -/
theorem accept_outcome (h : Coherent db) (es : List (Event Request)) {c : AccountCommit}
    (hc : c ∈ (accountRun db es).history) {id : String} {new : NewRow} {data : AcceptInvitation}
    {now : Int} (hr : c.request.command = .acceptInvitation id new data now) :
    (c.reply = .invitationInvalid ∧ c.after = c.before) ∨ ∃ x, AccountMade c id new data now x := by
  obtain ⟨hb, _, log, hcommits, _, ha⟩ := accountRun_commit h es hc
  unfold Request.Commits at hcommits
  rw [hr] at hcommits
  rcases hcommits with ⟨hreply, rfl⟩ | ⟨x, hx⟩
  · exact .inl ⟨hreply, ha⟩
  · exact .inr ⟨x, joins_made hb.intact hx ha⟩

theorem path_closed (h : Coherent db) (es : List (Event Request)) {cs : List AccountCommit}
    (hcs : ∀ c ∈ cs, c ∈ (accountRun db es).history) {s s' : Db} (hp : Path s cs s') {k : String}
    {x : StaffInvitation} (hx : s.invitations.get k = some x) (ho : x.isOpen = false) :
    s'.invitations.get k = some x := by
  refine path_keeps (P := fun (s : Db) => s.invitations.get k = some x) hp ?_ hx
  intro c hc hk
  obtain ⟨_, _, log, hcommits, hw, ha⟩ := accountRun_commit h es (hcs c hc)
  rw [ha]
  exact commits_closed hcommits hw hk ho

/-- The lifecycle of the invitations in the states of a run `es` and its continuations. -/
structure InvitationLifecycle (db : Db) (es es' : List (Event Request)) : Prop where
  oneOpen : ∀ i j x y, (accountRun db es).committed.invitations.get i = some x →
    (accountRun db es).committed.invitations.get j = some y →
    x.isOpen = true → y.isOpen = true → x.organizationId = y.organizationId → x.email = y.email → i = j
  exclusive : ∀ k x, (accountRun db es).committed.invitations.get k = some x →
    ¬ (x.consumedAt.isSome ∧ x.revokedAt.isSome)
  absorbing : ∀ k x, (accountRun db es).committed.invitations.get k = some x → x.consumedAt.isSome ∨
    x.revokedAt.isSome → (accountRun db (es ++ es')).committed.invitations.get k = some x
  accepts : ∀ c ∈ (accountRun db es).history, ∀ id new data now,
    c.request.command = .acceptInvitation id new data now →
    (c.reply = .invitationInvalid ∧ c.after = c.before) ∨ ∃ x, AccountMade c id new data now x
  oneAccount : ∀ cs c ds d fs k l, (accountRun db es).history = cs ++ c :: ds ++ d :: fs →
    Accepted c k → Accepted d l → k ≠ l
  changes : Path db (accountRun db es).history (accountRun db es).committed

theorem invitation_lifecycle (h : Coherent db) (es es' : List (Event Request)) :
    InvitationLifecycle db es es' := by
  have hcoherent := accountRun_coherent h es
  refine ⟨hcoherent.openInvitations, ?_, ?_,
    fun c hc id new data now hr => accept_outcome h es hc hr, ?_, accountRun_path db es⟩
  · intro k x hx ⟨hconsumed, hrevoked⟩
    rcases hcoherent.exclusive k x hx with hn | hn
    · rw [hn] at hconsumed; cases hconsumed
    · rw [hn] at hrevoked; cases hrevoked
  · intro k x hx hclosed
    obtain ⟨cs, hh, hp⟩ := accountRun_append db es es'
    have hmem : ∀ c ∈ cs, c ∈ (accountRun db (es ++ es')).history := by
      intro c hc
      rw [hh]
      exact List.mem_append_right _ hc
    refine path_closed h (es ++ es') hmem hp hx ?_
    rcases hclosed with hsome | hsome
    · simp [StaffInvitation.isOpen, Option.isNone_eq_false_iff.mpr hsome]
    · simp [StaffInvitation.isOpen, Option.isNone_eq_false_iff.mpr hsome]
  · rintro cs c ds d fs k l hh ⟨_, _, _, now, x, _, hx, rfl⟩ ⟨_, _, _, _, y, _, hy, rfl⟩ he
    have hp := accountRun_path db es
    rw [hh, List.append_assoc] at hp
    obtain ⟨t, _, hp⟩ := path_append hp
    obtain ⟨u, hu, hd⟩ := path_append hp.2
    have hmem : ∀ e ∈ ds, e ∈ (accountRun db es).history := by
      intro e he
      rw [hh]
      simp [he]
    have hclosed : u.invitations.get x.id = some { x with consumedAt := some now } :=
      path_closed h es hmem hu hx.consumed rfl
    have hopen := hy.invitation
    rw [← hd.1, ← he, hclosed, Option.some.injEq] at hopen
    have hyo := hy.isOpen
    rw [← hopen] at hyo
    cases hyo

end

/-- An invitation is accepted, and its second accept finds it consumed. -/
theorem invitation_lifecycle_accept :
    let es := alone 0 ⟨⟨"org", "ada"⟩, .createInvitation "inv" "bob@org" .teacher "hash" 0⟩ 3 ++
      alone 1 ⟨⟨"org", "anonymous"⟩, .acceptInvitation "bob" ⟨"bob-role", 1⟩ ⟨"hash", "bob", "Bob",
          "pw"⟩ 1⟩ 9 ++
      alone 2 ⟨⟨"org", "anonymous"⟩, .acceptInvitation "eve" ⟨"eve-role", 2⟩ ⟨"hash", "eve",
          "Eve", "pw"⟩ 2⟩ 9
    let _ := plainPasswords
    (accountRun staffed es).history.map (·.reply) = [.created "inv", .created "bob",
      .invitationInvalid] ∧ InvitationLifecycle staffed es [] :=
  let _ := plainPasswords
  ⟨by decide +kernel, invitation_lifecycle staffed_coherent _ _⟩

end ExamSystem.Accounts
