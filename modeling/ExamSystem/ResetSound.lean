import ExamSystem.AccountRuns

/-!
# Password-reset tokens

A token is opened by an issue, which closes every other one of its user, and is
consumed once, together with the password. A bearer knows a token by its hash, so
the statements about the order of commits speak of hashes.
-/

namespace ExamSystem.Accounts

open Interleaving

/-- The commit redeems the token `t` of the account `u`, and does nothing else. -/
structure TokenRedeemed (c : AccountCommit) (tokenHash passwordHash : String) (now : Int)
    (t : PasswordResetToken) (u : User) : Prop where
  reply : c.reply = .ok
  token : c.before.tokens.get t.id = some t
  hash : t.tokenHash = tokenHash
  isOpen : t.isOpen = true
  unexpired : now < t.expiresAt
  owner : t.userId = u.id
  user : c.before.users.get u.id = some u
  isActive : u.isActive = true
  organization : t.organizationId = u.organizationId ∧ u.organizationId = c.request.ctx.organizationId
  consumed : c.after.tokens.get t.id = some { t with consumedAt := some now }
  password : c.after.users.get u.id = some
    { u with passwordHash := passwordHash, authEpoch := u.authEpoch + 1 }
  otherTokens : ∀ k, k ≠ t.id → c.after.tokens.get k = c.before.tokens.get k
  otherUsers : ∀ k, k ≠ u.id → c.after.users.get k = c.before.users.get k
  assignments : ∀ k, c.after.assignments.get k = c.before.assignments.get k

/-- The commit issues a token to the account `u`, the only open one of that account. -/
structure TokenIssued (c : AccountCommit) (new : NewRow) (username tokenHash : String)
    (clock : ResetClock) (u : User) : Prop where
  reply : c.reply = .resetRequested .issued
  user : c.before.users.get u.id = some u
  isActive : u.isActive = true
  organization : u.organizationId = c.request.ctx.organizationId
  username : u.username = username
  token : c.after.tokens.get new.id = some (newToken c.request.ctx new u.id tokenHash clock)
  onlyOpen : ∀ k x, c.after.tokens.get k = some x → x.userId = u.id → x.isOpen = true → k = new.id
  onlyHash : ∀ k x, c.after.tokens.get k = some x → x.tokenHash = tokenHash → k = new.id
  otherTokens : ∀ k x, k ≠ new.id → c.before.tokens.get k = some x → x.userId ≠ u.id →
    c.after.tokens.get k = some x
  users : ∀ k, c.after.users.get k = c.before.users.get k
  assignments : ∀ k, c.after.assignments.get k = c.before.assignments.get k

def Redeemed (c : AccountCommit) (userId tokenHash : String) : Prop :=
  ∃ passwordHash identifiedAt now t u, c.request.command = .consumePasswordReset tokenHash
    passwordHash identifiedAt now ∧ TokenRedeemed c tokenHash passwordHash now t u ∧ u.id = userId

def Issued (c : AccountCommit) (userId tokenHash : String) : Prop :=
  ∃ new username clock u, c.request.command = .requestPasswordReset new username tokenHash clock ∧
    TokenIssued c new username tokenHash clock u ∧ u.id = userId

section
variable {log : List Write} {c : AccountCommit}

theorem redeems_redeemed {tokenHash passwordHash : String} {now : Int} {t : PasswordResetToken}
    {u : User} (h : Redeems c.request.ctx tokenHash passwordHash now t u c.reply log c.before)
    (ha : c.after = applyAll c.before log) :
    TokenRedeemed c tokenHash passwordHash now t u := by
  have htokens : ∀ k, c.after.tokens.get k = Write.tokenAt (.consumeToken u.id t.id now) k
      (c.before.tokens.get k) := by
    intro k
    rw [ha, h.writes]
    simp only [applyAll_cons, applyAll_nil, get_tokens, Write.tokenAt]
  have husers : ∀ k, c.after.users.get k =
      Write.userAt (.updateUser u.id
        { passwordHash := some passwordHash, advanceAuthEpoch := true }) k (c.before.users.get k) := by
    intro k
    rw [ha, h.writes]
    simp only [applyAll_cons, applyAll_nil, get_users, Write.userAt]
  refine ⟨h.reply, h.token, h.tokenHash, h.isOpen, h.unexpired, h.owner, h.user, h.isActive,
    ⟨h.tokenOrganization.trans h.organization.symm, h.organization⟩, ?_, ?_, ?_, ?_, ?_⟩
  · rw [htokens, h.token]
    simp [Write.tokenAt, h.owner, Write.consume]
  · rw [husers, h.user]
    simp [Write.userAt, UserPatch.set]
  · intro k hk
    rw [htokens]
    simp [Write.tokenAt, hk]
  · intro k hk
    rw [husers]
    simp [Write.userAt, hk]
  · intro k
    rw [ha, h.writes]
    simp only [applyAll_cons, applyAll_nil, get_assignments, Write.assignmentAt]

theorem issues_issued {new : NewRow} {username tokenHash : String} {clock : ResetClock} {u : User}
    (h : Issues c.request.ctx new username tokenHash clock u c.reply log c.before)
    (ha : c.after = applyAll c.before log) :
    TokenIssued c new username tokenHash clock u := by
  obtain ⟨closed, dropped, hlog⟩ := h.writes
  have hcases : ∀ w ∈ log, (∃ j, w = .consumeToken u.id j clock.issue) ∨
      (∃ j, w = .deleteToken u.id j) ∨
      w = .insertToken (newToken c.request.ctx new u.id tokenHash clock) := by
    intro w hw
    simp only [hlog, supersede, List.mem_append, List.mem_map, List.mem_singleton] at hw
    rcases hw with (⟨j, _, rfl⟩ | ⟨j, _, rfl⟩) | rfl
    · exact .inl ⟨j, rfl⟩
    · exact .inr (.inl ⟨j, rfl⟩)
    · exact .inr (.inr rfl)
  refine ⟨h.reply, h.user, h.isActive, h.organization, h.username, ?_, ha ▸ h.onlyOpen,
    ha ▸ h.onlyHash, ?_, ?_, ?_⟩
  · rw [ha, hlog, applyAll_append, applyAll_cons, applyAll_nil, get_tokens]
    simp [Write.tokenAt, newToken]
  · intro k x hk hx hu
    rw [ha]
    refine applyAll_invariant (P := fun (s : Db) => s.tokens.get k = some x) ?_ hx
    intro w hw s hs
    rw [get_tokens, hs]
    rcases hcases w hw with ⟨j, rfl⟩ | ⟨j, rfl⟩ | rfl
    · simp [Write.tokenAt, hu]
    · simp [Write.tokenAt, hu]
    · simp [Write.tokenAt, newToken, hk]
  · intro k
    rw [ha]
    refine applyAll_invariant (P := fun (s : Db) => s.users.get k = c.before.users.get k) ?_ rfl
    intro w hw s hs
    rw [get_users, hs]
    rcases hcases w hw with ⟨j, rfl⟩ | ⟨j, rfl⟩ | rfl <;> rfl
  · intro k
    rw [ha]
    refine applyAll_invariant
      (P := fun (s : Db) => s.assignments.get k = c.before.assignments.get k) ?_ rfl
    intro w hw s hs
    rw [get_assignments, hs]
    rcases hcases w hw with ⟨j, rfl⟩ | ⟨j, rfl⟩ | rfl <;> rfl

end

section
variable [PasswordVerifier] {db : Db}

theorem consume_outcome (h : Coherent db) (es : List (Event Request)) {c : AccountCommit}
    (hc : c ∈ (accountRun db es).history) {tokenHash passwordHash : String} {identifiedAt now : Int}
    (hr : c.request.command = .consumePasswordReset tokenHash passwordHash identifiedAt now) :
    (c.reply = .passwordResetInvalid ∧ c.after = c.before) ∨
    ∃ t u, TokenRedeemed c tokenHash passwordHash now t u := by
  obtain ⟨_, _, log, hcommits, _, ha⟩ := accountRun_commit h es hc
  unfold Request.Commits at hcommits
  rw [hr] at hcommits
  rcases hcommits with ⟨hreply, rfl⟩ | ⟨t, u, htu⟩
  · exact .inl ⟨hreply, ha⟩
  · exact .inr ⟨t, u, redeems_redeemed htu ha⟩

theorem request_outcome (h : Coherent db) (es : List (Event Request)) {c : AccountCommit}
    (hc : c ∈ (accountRun db es).history) {new : NewRow} {username tokenHash : String}
    {clock : ResetClock}
    (hr : c.request.command = .requestPasswordReset new username tokenHash clock) :
    (∃ o, o ≠ .issued ∧ c.reply = .resetRequested o ∧ c.after = c.before) ∨
    ∃ u, TokenIssued c new username tokenHash clock u := by
  obtain ⟨_, _, log, hcommits, _, ha⟩ := accountRun_commit h es hc
  unfold Request.Commits at hcommits
  rw [hr] at hcommits
  rcases hcommits with ⟨o, ho, hreply, rfl⟩ | ⟨u, hu⟩
  · exact .inl ⟨o, ho, hreply, ha⟩
  · exact .inr ⟨u, issues_issued hu ha⟩

theorem open_token_origin (h : Coherent db) (es : List (Event Request)) {c : AccountCommit}
    (hc : c ∈ (accountRun db es).history) {k : String} {x : PasswordResetToken}
    (hx : c.after.tokens.get k = some x) (ho : x.isOpen = true) :
    c.before.tokens.get k = some x ∨ Issued c x.userId x.tokenHash := by
  obtain ⟨_, _, log, hcommits, hw, ha⟩ := accountRun_commit h es hc
  rw [ha] at hx
  rcases token_origin hx with ⟨y, hy, _, _, hyx⟩ | ⟨y, hy, _, _, _, hyx⟩
  · rw [hyx ho] at hy
    exact .inl hy
  · obtain rfl := hyx ho
    obtain ⟨new, username, clock, u, hr, hissues, howner⟩ := inserted_token hcommits hw hy
    exact .inr ⟨new, username, clock, u, hr, issues_issued hissues ha, howner.symm⟩

/-- Between two consumptions of one hash lies an issue of it. -/
theorem redeemed_once (h : Coherent db) (es : List (Event Request)) {cs ds fs : List AccountCommit}
    {c d : AccountCommit} (hh : (accountRun db es).history = cs ++ c :: ds ++ d :: fs)
    {u v tokenHash : String} (hc : Redeemed c u tokenHash) (hd : Redeemed d v tokenHash) :
    ∃ e ∈ ds, ∃ w, Issued e w tokenHash := by
  obtain ⟨_, _, now, t, _, _, ht, _⟩ := hc
  obtain ⟨_, _, _, t', _, _, ht', _⟩ := hd
  have hp := accountRun_path db es
  rw [hh, List.append_assoc] at hp
  obtain ⟨_, _, hp⟩ := path_append hp
  obtain ⟨s, hs, hd⟩ := path_append hp.2
  have hmem : ∀ e ∈ ds, e ∈ (accountRun db es).history := by
    intro e he
    rw [hh]
    simp [he]
  by_contra hnone
  -- the invariant from `c` to `d`: no token of this hash is open
  have hclosed : ∀ k x, s.tokens.get k = some x → x.tokenHash = tokenHash → x.isOpen = false := by
    refine path_keeps (P := fun (s : Db) => ∀ k x, s.tokens.get k = some x →
      x.tokenHash = tokenHash → x.isOpen = false) hs ?_ ?_
    · intro e he hbefore k x hx hxh
      by_contra ho
      rw [Bool.not_eq_false] at ho
      rcases open_token_origin h es (hmem e he) hx ho with hold | hissued
      · rw [hbefore k x hold hxh] at ho
        cases ho
      · exact hnone ⟨e, he, x.userId, hxh ▸ hissued⟩
    · intro k x hx hxh
      have hcoherent := (accountRun_commit h es (c := c) (by rw [hh]; simp)).2.1
      rw [hcoherent.tokenHashes k t.id x _ hx ht.consumed (hxh.trans ht.hash.symm), ht.consumed,
        Option.some.injEq] at hx
      rw [← hx]
      rfl
  have hopen := hclosed t'.id t' (hd.1 ▸ ht'.token) ht'.hash
  rw [ht'.isOpen] at hopen
  cases hopen

/-- After an issue, only its token and later ones of the user can be consumed. -/
theorem newest_wins (h : Coherent db) (es : List (Event Request)) {cs ds fs : List AccountCommit}
    {c d : AccountCommit} (hh : (accountRun db es).history = cs ++ c :: ds ++ d :: fs)
    {u issued redeemed : String} (hc : Issued c u issued) (hd : Redeemed d u redeemed) :
    redeemed = issued ∨ ∃ e ∈ ds, Issued e u redeemed := by
  obtain ⟨new, _, _, user, _, hi, rfl⟩ := hc
  obtain ⟨_, _, _, t, owner, _, ht, howner⟩ := hd
  have hp := accountRun_path db es
  rw [hh, List.append_assoc] at hp
  obtain ⟨_, _, hp⟩ := path_append hp
  obtain ⟨s, hs, hd⟩ := path_append hp.2
  have hmem : ∀ e ∈ ds, e ∈ (accountRun db es).history := by
    intro e he
    rw [hh]
    simp [he]
  -- the invariant from `c` to `d`: every open token of the user is the issued one or a later one
  have hopen : ∀ k x, s.tokens.get k = some x → x.userId = user.id → x.isOpen = true →
      x.tokenHash = issued ∨ ∃ e ∈ ds, Issued e user.id x.tokenHash := by
    refine path_keeps (P := fun (s : Db) => ∀ k x, s.tokens.get k = some x → x.userId = user.id →
      x.isOpen = true → x.tokenHash = issued ∨ ∃ e ∈ ds, Issued e user.id x.tokenHash) hs ?_ ?_
    · intro e he hbefore k x hx hxu ho
      rcases open_token_origin h es (hmem e he) hx ho with hold | hissued
      · exact hbefore k x hold hxu ho
      · exact .inr ⟨e, he, hxu ▸ hissued⟩
    · intro k x hx hxu ho
      rw [hi.onlyOpen k x hx hxu ho, hi.token, Option.some.injEq] at hx
      rw [← hx]
      exact .inl rfl
  have htoken := hopen t.id t (hd.1 ▸ ht.token) (ht.owner.trans howner) ht.isOpen
  rw [ht.hash] at htoken
  exact htoken

structure ResetTokenSafety (db : Db) (es : List (Event Request)) : Prop where
  oneOpen : ∀ i j x y, (accountRun db es).committed.tokens.get i = some x →
    (accountRun db es).committed.tokens.get j = some y →
    x.isOpen = true → y.isOpen = true → x.userId = y.userId → i = j
  consumes : ∀ c ∈ (accountRun db es).history, ∀ tokenHash passwordHash identifiedAt now,
    c.request.command = .consumePasswordReset tokenHash passwordHash identifiedAt now →
    (c.reply = .passwordResetInvalid ∧ c.after = c.before) ∨
    ∃ t u, TokenRedeemed c tokenHash passwordHash now t u
  requests : ∀ c ∈ (accountRun db es).history, ∀ new username tokenHash clock,
    c.request.command = .requestPasswordReset new username tokenHash clock →
    (∃ o, o ≠ .issued ∧ c.reply = .resetRequested o ∧ c.after = c.before) ∨
    ∃ u, TokenIssued c new username tokenHash clock u
  once : ∀ cs c ds d fs u v tokenHash, (accountRun db es).history = cs ++ c :: ds ++ d :: fs →
    Redeemed c u tokenHash → Redeemed d v tokenHash → ∃ e ∈ ds, ∃ w, Issued e w tokenHash
  newest : ∀ cs c ds d fs u issued redeemed, (accountRun db es).history = cs ++ c :: ds ++ d :: fs →
    Issued c u issued → Redeemed d u redeemed → redeemed = issued ∨ ∃ e ∈ ds, Issued e u redeemed
  changes : Path db (accountRun db es).history (accountRun db es).committed

theorem reset_tokens_safe (h : Coherent db) (es : List (Event Request)) : ResetTokenSafety db es :=
  ⟨(accountRun_coherent h es).openTokens,
    fun _ hc _ _ _ _ hr => consume_outcome h es hc hr,
    fun _ hc _ _ _ _ hr => request_outcome h es hc hr,
    fun _ _ _ _ _ _ _ _ hh hc hd => redeemed_once h es hh hc hd,
    fun _ _ _ _ _ _ _ _ hh hc hd => newest_wins h es hh hc hd,
    accountRun_path db es⟩

end

/-- The token that was issued first loses to the newer one, and that one works once. -/
theorem reset_tokens_safe_newest :
    let es := alone 0 ⟨⟨"org", "anonymous"⟩, .requestPasswordReset ⟨"t1", 0⟩ "ada" "old" ⟨0, 0, 0⟩⟩ 8 ++
      alone 1 ⟨⟨"org", "anonymous"⟩, .requestPasswordReset ⟨"t2", 60000⟩ "ada" "new" ⟨60000, 60000,
          60000⟩⟩ 8 ++
      alone 2 ⟨⟨"org", "anonymous"⟩, .consumePasswordReset "old" "pw1" 60001 60001⟩ 7 ++
      alone 3 ⟨⟨"org", "anonymous"⟩, .consumePasswordReset "new" "pw2" 60002 60002⟩ 7 ++
      alone 4 ⟨⟨"org", "anonymous"⟩, .consumePasswordReset "new" "pw3" 60003 60003⟩ 7
    let _ := plainPasswords
    (accountRun staffed es).history.map (·.reply) =
        [.resetRequested .issued, .resetRequested .issued, .passwordResetInvalid, .ok,
          .passwordResetInvalid] ∧
      ResetTokenSafety staffed es :=
  let _ := plainPasswords
  ⟨by decide +kernel, reset_tokens_safe staffed_coherent _⟩

end ExamSystem.Accounts
