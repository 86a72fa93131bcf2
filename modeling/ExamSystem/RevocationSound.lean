import ExamSystem.Revocation

/-!
# Revocation is permanent

A credential change, a logout and a deactivation raise the epoch of the account,
no commit lowers it, and a check compares it. A deactivation deletes the reset
tokens of the account under the lock of its row. The deactivations that do
neither are those of a candidate update, and of a user update that read the
account before it became active again.
-/

namespace ExamSystem.Accounts

open Interleaving

/-! ## What a log does to an account -/

/-- A write of the session commands: no account comes or goes, and a password
changes only with a new epoch. -/
def Write.ofSession : Write → Prop
  | insertUser _ | deleteUser _ | insertProfile _ => False
  | updateUser _ patch => patch.passwordHash.isSome = true → patch.advanceAuthEpoch = true
  | _ => True

/-- The account `v` that a log makes of the account `u` under the key `k`. -/
structure UserAfter (log : List Write) (k : String) (u v : User) : Prop where
  organization : v.organizationId = u.organizationId
  epoch : u.authEpoch ≤ v.authEpoch
  advanced : ∀ patch, .updateUser k patch ∈ log → patch.advanceAuthEpoch = true →
    u.authEpoch < v.authEpoch
  password : v.passwordHash ≠ u.passwordHash → ∃ patch, .updateUser k patch ∈ log ∧
    patch.passwordHash.isSome = true
  active : v.isActive ≠ u.isActive → ∃ patch, .updateUser k patch ∈ log ∧
    patch.isActive = some v.isActive

section
variable {log : List Write} {db : Db} {k : String} {u v : User}

theorem UserAfter.cons_other {w : Write} (hw : ∀ patch, w ≠ .updateUser k patch)
    (h : UserAfter log k u v) : UserAfter (w :: log) k u v where
  organization := h.organization
  epoch := h.epoch
  advanced patch hp ha := by
    rcases List.mem_cons.mp hp with rfl | hp
    · exact absurd rfl (hw patch)
    · exact h.advanced patch hp ha
  password hne := by
    obtain ⟨patch, hp, hs⟩ := h.password hne
    exact ⟨patch, List.mem_cons_of_mem w hp, hs⟩
  active hne := by
    obtain ⟨patch, hp, hs⟩ := h.active hne
    exact ⟨patch, List.mem_cons_of_mem w hp, hs⟩

theorem UserAfter.cons_update {patch : UserPatch} (h : UserAfter log k (patch.set u) v) :
    UserAfter (.updateUser k patch :: log) k u v := by
  have hstep : u.authEpoch ≤ (patch.set u).authEpoch := by
    simp only [UserPatch.set]
    split <;> omega
  refine ⟨h.organization, hstep.trans h.epoch, ?_, ?_, ?_⟩
  · intro p hp ha
    rcases List.mem_cons.mp hp with he | hp
    · have he : p = patch := by simpa using he
      have hset : (patch.set u).authEpoch = u.authEpoch + 1 := by simp [UserPatch.set, ← he, ha]
      have := h.epoch
      omega
    · exact lt_of_le_of_lt hstep (h.advanced p hp ha)
  · intro hne
    by_cases hsame : v.passwordHash = (patch.set u).passwordHash
    · refine ⟨patch, List.mem_cons_self, ?_⟩
      cases hp : patch.passwordHash with
      | none => exact absurd (by simp [hsame, UserPatch.set, hp]) hne
      | some _ => rfl
    · obtain ⟨p, hp, hs⟩ := h.password hsame
      exact ⟨p, List.mem_cons_of_mem _ hp, hs⟩
  · intro hne
    by_cases hsame : v.isActive = (patch.set u).isActive
    · refine ⟨patch, List.mem_cons_self, ?_⟩
      cases hp : patch.isActive with
      | none => exact absurd (by simp [hsame, UserPatch.set, hp]) hne
      | some _ => simp [hsame, UserPatch.set, hp]
    · obtain ⟨p, hp, hs⟩ := h.active hsame
      exact ⟨p, List.mem_cons_of_mem _ hp, hs⟩

theorem user_after (h : ∀ w ∈ log, w.ofSession) (hu : db.users.get k = some u) :
    ∃ v, (applyAll db log).users.get k = some v ∧ UserAfter log k u v := by
  induction log generalizing db u with
  | nil => exact ⟨u, hu, rfl, le_refl _, by simp, fun hne => absurd rfl hne, fun hne => absurd rfl hne⟩
  | cons w log ih =>
    have hrest : ∀ w ∈ log, w.ofSession := fun v hv => h v (List.mem_cons_of_mem w hv)
    have hkept : (∀ patch, w ≠ .updateUser k patch) → w.userAt k (some u) = some u →
        ∃ v, (applyAll db (w :: log)).users.get k = some v ∧ UserAfter (w :: log) k u v := by
      intro hother hat
      obtain ⟨v, hv, hafter⟩ := @ih (Journal.apply db w) u hrest (by rw [get_users, hu, hat])
      exact ⟨v, hv, hafter.cons_other hother⟩
    cases w with
    | insertUser i => exact absurd (h _ List.mem_cons_self) id
    | deleteUser i => exact absurd (h _ List.mem_cons_self) id
    | insertProfile p => exact absurd (h _ List.mem_cons_self) id
    | updateUser id patch =>
      by_cases hk : k = id
      · subst hk
        obtain ⟨v, hv, hafter⟩ := @ih (Journal.apply db (Write.updateUser k patch)) (patch.set u) hrest
          (by rw [get_users, hu]; simp [Write.userAt])
        exact ⟨v, hv, hafter.cons_update⟩
      · exact hkept (fun p he => hk (by simp_all)) (by simp [Write.userAt, hk])
    | _ => exact hkept (fun p he => by cases he) rfl

theorem profiles_kept (h : ∀ w ∈ log, w.ofSession) :
    (applyAll db log).profiles.get k = db.profiles.get k := by
  refine applyAll_invariant (P := fun (s : Db) => s.profiles.get k = db.profiles.get k) ?_ rfl
  intro w hw s hs
  rw [get_profiles, hs]
  cases w with
  | insertProfile p => exact absurd (h _ hw) id
  | _ => rfl

end

/-! ## What a log does to a token -/

def SameBearer (y x : PasswordResetToken) : Prop :=
  y.userId = x.userId ∧ y.organizationId = x.organizationId ∧ y.tokenHash = x.tokenHash

section
variable {log : List Write} {db : Db} {k : String} {x : PasswordResetToken}

theorem token_source (h : (applyAll db log).tokens.get k = some x) :
    (∃ y, db.tokens.get k = some y ∧ SameBearer y x) ∨ ∃ y, .insertToken y ∈ log ∧ SameBearer y x := by
  refine applyAll_invariant (P := fun (s : Db) => ∀ x, s.tokens.get k = some x →
    (∃ y, db.tokens.get k = some y ∧ SameBearer y x) ∨ ∃ y, .insertToken y ∈ log ∧
    SameBearer y x) ?_ ?_ x h
  · intro w hw s hs x hx
    rw [get_tokens] at hx
    cases w with
    | insertToken t =>
      simp only [Write.tokenAt] at hx
      by_cases hk : k = t.id
      · rw [if_pos hk, Option.some.injEq] at hx
        exact .inr ⟨t, hw, hx ▸ ⟨rfl, rfl, rfl⟩⟩
      · rw [if_neg hk] at hx
        exact hs x hx
    | consumeToken userId id now =>
      simp only [Write.tokenAt] at hx
      by_cases hk : k = id
      · rw [if_pos hk, Option.map_eq_some_iff] at hx
        obtain ⟨z, hz, rfl⟩ := hx
        have hsame : SameBearer z (if z.userId = userId then Write.consume now z else z) := by
          split <;> exact ⟨rfl, rfl, rfl⟩
        rcases hs z hz with ⟨y, hy, h₁, h₂, h₃⟩ | ⟨y, hy, h₁, h₂, h₃⟩
        · exact .inl ⟨y, hy, h₁.trans hsame.1, h₂.trans hsame.2.1, h₃.trans hsame.2.2⟩
        · exact .inr ⟨y, hy, h₁.trans hsame.1, h₂.trans hsame.2.1, h₃.trans hsame.2.2⟩
      · rw [if_neg hk] at hx
        exact hs x hx
    | deleteToken userId id =>
      simp only [Write.tokenAt] at hx
      by_cases hk : k = id
      · rw [if_pos hk, Option.filter_eq_some_iff] at hx
        exact hs x hx.1
      · rw [if_neg hk] at hx
        exact hs x hx
    | deleteUser id =>
      simp only [Write.tokenAt, Option.filter_eq_some_iff] at hx
      exact hs x hx.1
    | _ => exact hs x hx
  · exact fun x hx => .inl ⟨x, hx, rfl, rfl, rfl⟩

theorem token_deleted (hi : ∀ t, .insertToken t ∉ log) {userId : String}
    (hd : .deleteToken userId k ∈ log) (h : (applyAll db log).tokens.get k = some x) :
    x.userId ≠ userId := by
  obtain ⟨as, bs, rfl⟩ := List.append_of_mem hd
  rw [applyAll_append, applyAll_cons] at h
  rcases token_source h with ⟨y, hy, hyx, _⟩ | ⟨y, hy, _⟩
  · rw [get_tokens] at hy
    simp only [Write.tokenAt, if_true, Option.filter_eq_some_iff, decide_not, Bool.not_eq_true',
      decide_eq_false_iff_not] at hy
    exact fun he => hy.2 (hyx.trans he)
  · exact absurd (List.mem_append_right as (List.mem_cons_of_mem _ hy)) (hi y)

end

/-! ## What the others leave -/

/-- What a transaction that holds the keys `K` knows of a commit of another one. -/
structure Undisturbed (K : List LockKey) (s s' : Db) : Prop where
  rows : Protected K s s'
  users : ∀ k u, s.users.get k = some u →
    ∃ v, s'.users.get k = some v ∧ v.organizationId = u.organizationId ∧ u.authEpoch ≤ v.authEpoch
  profiles : ∀ k, s'.profiles.get k = s.profiles.get k
  tokens : ∀ k x, .user x.userId ∈ K → s'.tokens.get k = some x → ∃ y, s.tokens.get k = some y ∧
    SameBearer y x

namespace Undisturbed

variable {K : List LockKey} {s t u : Db}

theorem refl (K : List LockKey) (s : Db) : Undisturbed K s s where
  rows := .refl K s
  users _ u h := ⟨u, h, rfl, le_refl _⟩
  profiles _ := rfl
  tokens _ x _ h := ⟨x, h, rfl, rfl, rfl⟩

theorem trans (h : Undisturbed K s t) (h' : Undisturbed K t u) : Undisturbed K s u where
  rows := h.rows.trans h'.rows
  users k u hu := by
    obtain ⟨v, hv, hvo, hve⟩ := h.users k u hu
    obtain ⟨w, hw, hwo, hwe⟩ := h'.users k v hv
    exact ⟨w, hw, hwo.trans hvo, hve.trans hwe⟩
  profiles k := (h'.profiles k).trans (h.profiles k)
  tokens k x hk hx := by
    obtain ⟨y, hy, h₁, h₂, h₃⟩ := h'.tokens k x hk hx
    obtain ⟨z, hz, h₄, h₅, h₆⟩ := h.tokens k y (by rw [h₁]; exact hk) hy
    exact ⟨z, hz, h₄.trans h₁, h₅.trans h₂, h₆.trans h₃⟩

end Undisturbed

/-! ## What a session command commits -/

section
variable {r : SessionRequest} {q : Request} {w : Write}

theorem ofSession_of_mayWrite (hq : r.account = some q) (h : q.command.mayWrite q.ctx w) :
    w.ofSession := by
  obtain ⟨_, ctx, command⟩ := r
  cases command <;> simp only [SessionRequest.account, Option.some.injEq, reduceCtorEq] at hq
    <;> subst hq <;>
    simp only [AccountCommand.mayWrite] at h
  case logout => rw [h]; simp [Write.ofSession]
  case changePassword => obtain ⟨u, rfl⟩ := h; simp [Write.ofSession]
  case requestPasswordReset => rcases h with ⟨u, k, rfl⟩ | ⟨u, k, rfl⟩ | ⟨t, rfl⟩ <;> exact trivial
  case consumePasswordReset => rcases h with ⟨u, k, rfl⟩ | ⟨u, rfl⟩ <;> simp [Write.ofSession]
  case resetPassword => rw [h]; simp [Write.ofSession]
  case resetAdminPassword => obtain ⟨u, rfl⟩ := h; simp [Write.ofSession]
  case updateUser =>
    rcases h with rfl | rfl | ⟨_, rfl⟩ | ⟨_, rfl⟩ | ⟨_, rfl⟩ | ⟨_, _, rfl⟩ | ⟨_, rfl⟩ |
      ⟨_, rfl⟩ <;> simp [Write.ofSession]
  case updateCandidate => obtain ⟨u, rfl⟩ := h; simp [Write.ofSession]

theorem deactivating_command (hq : r.account = some q) {k : String} {patch : UserPatch}
    (h : q.command.mayWrite q.ctx (.updateUser k patch)) (hp : patch.isActive = some false) :
    (∃ new data, r.command = .updateUser k new data ∧ data.isActive = some false) ∨
      ∃ id data, r.command = .updateCandidate id data ∧ data.isActive = some false := by
  obtain ⟨_, ctx, command⟩ := r
  cases command <;> simp only [SessionRequest.account, Option.some.injEq, reduceCtorEq] at hq
    <;> subst hq <;>
    simp only [AccountCommand.mayWrite, Write.updateUser.injEq, reduceCtorEq, exists_false,
      false_or, or_false] at h
  case updateUser id new data =>
    rcases h with ⟨rfl, rfl⟩ | ⟨_, rfl⟩ | ⟨_, _, rfl⟩
    · exact .inl ⟨new, data, rfl, hp⟩
    · cases hp
    · cases hp
  case updateCandidate id data =>
    obtain ⟨_, _, rfl⟩ := h
    exact .inr ⟨id, data, rfl, hp⟩
  case logout => rw [h.2] at hp; cases hp
  case changePassword => obtain ⟨_, _, rfl⟩ := h; cases hp
  case consumePasswordReset => obtain ⟨_, _, rfl⟩ := h; cases hp
  case resetPassword => rw [h.2] at hp; cases hp
  case resetAdminPassword => obtain ⟨_, _, rfl⟩ := h; cases hp

theorem issuing_command (hq : r.account = some q) {t : PasswordResetToken}
    (h : q.command.mayWrite q.ctx (.insertToken t)) :
    ∃ new username tokenHash clock, r.command = .requestPasswordReset new username tokenHash clock := by
  obtain ⟨_, ctx, command⟩ := r
  cases command <;> simp only [SessionRequest.account, Option.some.injEq, reduceCtorEq] at hq
    <;> subst hq
  case requestPasswordReset new username tokenHash clock => exact ⟨new, username, tokenHash, clock, rfl⟩
  all_goals
    obtain ⟨_, _, _, _, hc⟩ := mayWrite_insertToken h
    cases hc

end

/-! ## Epochs -/

/-- The account of the payload is there, and its epoch is not below that of the payload. -/
def Current (payload : JwtPayload) (db : Db) : Prop :=
  ∃ u, db.users.get payload.actorId = some u ∧ u.organizationId = payload.organizationId ∧
    payload.authEpoch ≤ u.authEpoch

def Superseded (payload : JwtPayload) (db : Db) : Prop :=
  ∃ u, db.users.get payload.actorId = some u ∧ u.organizationId = payload.organizationId ∧
    payload.authEpoch < u.authEpoch

section
variable {payload : JwtPayload} {K : List LockKey} {s s' : Db} {log : List Write}

theorem Current.undisturbed (h : Current payload s) (hu : Undisturbed K s s') : Current payload s' := by
  obtain ⟨u, hget, horg, he⟩ := h
  obtain ⟨v, hv, hvo, hve⟩ := hu.users _ u hget
  exact ⟨v, hv, hvo.trans horg, he.trans hve⟩

theorem Superseded.undisturbed (h : Superseded payload s) (hu : Undisturbed K s s') :
    Superseded payload s' := by
  obtain ⟨u, hget, horg, he⟩ := h
  obtain ⟨v, hv, hvo, hve⟩ := hu.users _ u hget
  exact ⟨v, hv, hvo.trans horg, lt_of_lt_of_le he hve⟩

theorem Current.applyAll (h : Current payload s) (hw : ∀ w ∈ log, w.ofSession) :
    Current payload (applyAll s log) := by
  obtain ⟨u, hget, horg, he⟩ := h
  obtain ⟨v, hv, hafter⟩ := user_after hw hget
  exact ⟨v, hv, hafter.organization.trans horg, he.trans hafter.epoch⟩

theorem Superseded.applyAll (h : Superseded payload s) (hw : ∀ w ∈ log, w.ofSession) :
    Superseded payload (applyAll s log) := by
  obtain ⟨u, hget, horg, he⟩ := h
  obtain ⟨v, hv, hafter⟩ := user_after hw hget
  exact ⟨v, hv, hafter.organization.trans horg, lt_of_lt_of_le he hafter.epoch⟩

end

/-! ## Deactivations -/

/-- The log closes the account: a new epoch, and every reset token deleted. -/
structure Closes (ctx : Context) (id : String) (log : List Write) (db : Db) : Prop where
  account : ∃ u, db.users.get id = some u ∧ u.organizationId = ctx.organizationId
  advances : .updateUser id { advanceAuthEpoch := true } ∈ log
  burns : ∀ k t, db.tokens.get k = some t → t.userId = id → t.organizationId = ctx.organizationId →
    .deleteToken id k ∈ log

def Closing (ctx : Context) (id : String) (held : List LockKey) (log : List Write) (db : Db) : Prop :=
  .user id ∈ held ∧ Closes ctx id log db

def Write.preparing (w : Write) : Prop := w.ofSession ∧ ∀ k o, w.tokenAt k o = o

def Preparing (ctx : Context) (id : String) (held : List LockKey) (log : List Write) (db : Db) : Prop :=
  .user id ∈ held ∧ (∃ u, db.users.get id = some u ∧ u.organizationId = ctx.organizationId) ∧
    ∀ w ∈ log, w.preparing

section
variable {ctx : Context} {id : String} {held held' : List LockKey} {log ws : List Write} {s s' : Db}

theorem account_undisturbed (h : ∃ u, s.users.get id = some u ∧
      u.organizationId = ctx.organizationId) (hu : Undisturbed held s s') :
    ∃ u, s'.users.get id = some u ∧ u.organizationId = ctx.organizationId := by
  obtain ⟨u, hget, horg⟩ := h
  obtain ⟨v, hv, hvo, _⟩ := hu.users id u hget
  exact ⟨v, hv, hvo.trans horg⟩

theorem Closing.undisturbed (h : Closing ctx id held log s) (hu : Undisturbed held s s') :
    Closing ctx id held log s' := by
  refine ⟨h.1, account_undisturbed h.2.account hu, h.2.advances, fun k t ht hid horg => ?_⟩
  obtain ⟨y, hy, h₁, h₂, _⟩ := hu.tokens k t (hid ▸ h.1) ht
  exact h.2.burns k y hy (h₁.trans hid) (h₂.trans horg)

theorem Closing.append (hk : ∀ k ∈ held, k ∈ held') (h : Closing ctx id held log s) :
    Closing ctx id held' (log ++ ws) s :=
  ⟨hk _ h.1, h.2.account, List.mem_append_left ws h.2.advances,
    fun k t ht hid horg => List.mem_append_left ws (h.2.burns k t ht hid horg)⟩

theorem Preparing.undisturbed (h : Preparing ctx id held log s) (hu : Undisturbed held s s') :
    Preparing ctx id held log s' :=
  ⟨h.1, account_undisturbed h.2.1 hu, h.2.2⟩

theorem Preparing.append (hk : ∀ k ∈ held, k ∈ held') (hw : ∀ w ∈ ws, w.preparing)
    (h : Preparing ctx id held log s) :
    Preparing ctx id held' (log ++ ws) s := by
  refine ⟨hk _ h.1, h.2.1, fun w hm => ?_⟩
  rcases List.mem_append.mp hm with hm | hm
  · exact h.2.2 w hm
  · exact hw w hm

theorem Preparing.view (h : Preparing ctx id held log s) :
    (∃ u, (applyAll s log).users.get id = some u ∧ u.organizationId = ctx.organizationId) ∧
      ∀ k, (applyAll s log).tokens.get k = s.tokens.get k := by
  obtain ⟨_, ⟨u, hu, horg⟩, hw⟩ := h
  constructor
  · obtain ⟨v, hv, hafter⟩ := user_after (fun w hm => (hw w hm).1) hu
    exact ⟨v, hv, hafter.organization.trans horg⟩
  · intro k
    refine applyAll_invariant (P := fun (t : Db) => t.tokens.get k = s.tokens.get k) ?_ rfl
    intro w hm t ht
    rw [get_tokens, (hw w hm).2, ht]

theorem emits_replaceChangedRole {new : NewRow} {role : Option AssignableRole}
    {current : AssignableRole} :
    (replaceChangedRole ctx id new role current).Emits Write.preparing := by
  unfold replaceChangedRole
  split
  · exact trivial
  · split
    · exact trivial
    · refine Prog.emits_bind (emits_replacePrimary ?_ ?_ ?_ ?_) fun _ => trivial
      · exact fun k => ⟨trivial, fun _ _ => rfl⟩
      · exact fun k => ⟨trivial, fun _ _ => rfl⟩
      · exact fun u k => ⟨trivial, fun _ _ => rfl⟩
      · exact ⟨trivial, fun _ _ => rfl⟩

end

section
variable {ctx : Context} {id : String} {held : List LockKey} {log : List Write} {s : Db} {β : Type}
  {Q : β → List LockKey → List Write → Db → Prop}

theorem again_of_mem {α : Type} {key : α → String} {p : α → Bool} {found : List α} {t : Table key}
    {x r : α} (hx : x ∈ found) (hr : t.get (key x) = some r) (hp : p r = true) :
    r ∈ again p found t :=
  List.mem_filter.mpr ⟨List.mem_filterMap.mpr ⟨x, hx, hr⟩, hp⟩

theorem wp_advance {patch : UserPatch} (hpatch : Write.ofSession (.updateUser id patch))
    {f : Option User → Action β} (hprep : Preparing ctx id held log s)
    (h : ∀ o K ws s', .updateUser id patch ∈ ws → Preparing ctx id K (log ++ ws) s' →
      (f o).wp Undisturbed Coherent Q K (log ++ ws) s') :
    (updateUser .readCommitted ctx id patch >>= f).wp Undisturbed Coherent Q held log s := by
  rw [updateUser, updateUsers, Prog.bind_assoc]
  refine wp_modify fun s₁ h₁ _ s₂ h₂ _ found rows hfound hrows _ => ?_
  have hprep₁ := hprep.undisturbed h₁
  have hprep₂ := hprep₁.undisturbed h₂
  obtain ⟨⟨u, hu, huo⟩, _⟩ := hprep₁.view
  obtain ⟨⟨v, hv, hvo⟩, _⟩ := hprep₂.view
  have hid : ∀ {x : User} {t : Table User.id}, t.get id = some x → x.id = id := fun h => Table.key_get h
  have hmem : v ∈ rows := by
    rw [hrows]
    refine again_of_mem (x := u) ?_ ?_ ?_
    · rw [hfound]
      exact List.mem_filter.mpr ⟨Table.mem_of_get hu, by simp [ofUser, huo, hid hu]⟩
    · rw [hid hu]
      exact hv
    · simp [ofUser, hvo, hid hv]
  have hwrites : ∀ w ∈ rows.flatMap fun u => [Write.updateUser u.id patch],
      w = .updateUser id patch := by
    intro w hw
    obtain ⟨x, hx, hw⟩ := List.mem_flatMap.mp hw
    rw [List.mem_singleton.mp hw, ofUser_id (mem_again (hrows ▸ hx)).2.1]
  refine h _ _ _ s₂ (List.mem_flatMap.mpr ⟨v, hmem, by simp [hid hv]⟩)
    (hprep₂.append (fun k hk => List.mem_append_right _ hk) ?_)
  intro w hw
  rw [hwrites w hw]
  exact ⟨hpatch, fun _ _ => rfl⟩

theorem wp_deleteAll {f : Nat → Action β} (hprep : Preparing ctx id held log s)
    (hadvance : .updateUser id { advanceAuthEpoch := true } ∈ log)
    (h : ∀ n K L s', Closing ctx id K L s' → (f n).wp Undisturbed Coherent Q K L s') :
    (deleteAllForUserWithinTransaction .readCommitted ctx id >>= f).wp Undisturbed Coherent Q held
      log s := by
  rw [deleteAllForUserWithinTransaction, Prog.bind_assoc]
  refine wp_modify fun s₁ h₁ _ s₂ h₂ _ found rows hfound hrows _ => ?_
  have hprep₁ := hprep.undisturbed h₁
  have hprep₂ := hprep₁.undisturbed h₂
  refine h _ _ _ s₂ ⟨List.mem_append_right _ hprep₂.1, hprep₂.2.1, List.mem_append_left _ hadvance,
    fun k t ht hid horg => ?_⟩
  have hkey : t.id = k := Table.key_get ht
  obtain ⟨y, hy, hyid, hyorg, _⟩ := h₂.tokens k t (hid ▸ hprep₁.1) ht
  have hmem : t ∈ rows := by
    rw [hrows]
    refine again_of_mem (x := y) ?_ ?_ ?_
    · rw [hfound]
      have hview := hprep₁.view.2 k
      rw [hy] at hview
      exact List.mem_filter.mpr ⟨Table.mem_of_get hview, by simp [hyid, hyorg, hid, horg]⟩
    · have hykey : y.id = k := Table.key_get hy
      rw [hykey, hprep₂.view.2 k]
      exact ht
    · simp [hid, horg]
  exact List.mem_append_right _ (List.mem_flatMap.mpr ⟨t, hmem, by simp [hid, hkey]⟩)

/-- An update of a user that deactivates it writes nothing or closes the account. -/
theorem updateUserMutation_wp {new : NewRow} {data : UpdateUser} {target : User}
    (hoff : data.isActive = some false) (hactive : target.isActive = true)
    {f : Option User → Action β} (hf : ∀ o, (f o).Emits fun _ => False) :
    (updateUserMutation ctx id new data target >>= f).wp Undisturbed Coherent
      (fun _ _ log s => log = [] ∨ Closes ctx id log s) held [] s := by
  rw [updateUserMutation, Prog.bind_assoc, updateUser, updateUsers, Prog.bind_assoc]
  refine wp_modify fun s₁ _ _ s₂ h₂ hs₂ found rows hfound hrows _ => ?_
  have hrow : ∀ u ∈ rows, s₂.users.get u.id = some u ∧ u.organizationId = ctx.organizationId ∧
      u.id = id := by
    intro u hu
    obtain ⟨hget, hp, _⟩ := mem_again (hrows ▸ hu)
    simp only [ofUser, decide_eq_true_eq] at hp
    exact ⟨hget, hp.1, hp.2⟩
  cases hhead : rows.head? with
  | none =>
    rw [List.head?_eq_none_iff] at hhead
    subst hhead
    refine wp_mono (fun _ _ _ _ _ h => .inl h) (wp_carries (A := fun _ log (_ : Db) => log = [])
            (fun _ _ _ _ h _ _ => h) ?_ (hf none) rfl)
    rintro _ _ _ ws _ _ hws rfl
    exact List.eq_nil_iff_forall_not_mem.mpr hws
  | some u =>
    obtain ⟨hget, horg, hid⟩ := hrow u (List.mem_of_head? hhead)
    have hkeys : LockKey.user id ∈ found.flatMap User.keys := by
      obtain ⟨_, _, x, hx, hxu⟩ := mem_again (hrows ▸ List.mem_of_head? hhead)
      exact List.mem_flatMap.mpr ⟨x, hx, by simp [User.keys, hxu, hid]⟩
    have hprep : Preparing ctx id (found.flatMap User.keys ++ (rows.flatMap fun u =>
        [Write.updateUser u.id
          { name := data.name, isActive := data.isActive,
            email := data.email }]).flatMap Write.keys ++ held)
        ([] ++ rows.flatMap fun u => [.updateUser u.id
          { name := data.name, isActive := data.isActive, email := data.email }]) s₂ := by
      refine ⟨List.mem_append_left _ (List.mem_append_left _ hkeys), ⟨u, hid ▸ hget, horg⟩,
        fun w hw => ?_⟩
      obtain ⟨x, _, hw⟩ := List.mem_flatMap.mp hw
      rw [List.mem_singleton.mp hw]
      exact ⟨by simp [Write.ofSession], fun _ _ => rfl⟩
    simp only [Option.map_some, Prog.pure_eq, Prog.done_bind, Prog.bind_assoc]
    refine wp_through (A := Preparing ctx id) Undisturbed.refl hs₂
      (fun _ _ _ _ h hr _ => Preparing.undisturbed h hr)
      (fun _ _ _ _ _ hk hw h => Preparing.append hk hw h) emits_replaceChangedRole hprep
        fun _ K L s₃ hs₃ hprep => ?_
    simp only [revokeDeactivated, hoff, hactive, and_self, if_true, Prog.bind_assoc,
      advanceAuthEpoch, Prog.pure_eq, Prog.done_bind]
    refine wp_advance (by simp [Write.ofSession]) hprep fun _ K ws s₄ hadvance hprep => ?_
    refine wp_deleteAll hprep (List.mem_append_right _ hadvance) fun _ K L s₅ hclosing => ?_
    refine wp_mono (fun _ _ _ _ _ h => .inr h.2)
      (wp_carries (P := fun _ => True) (A := Closing ctx id)
        (fun _ _ _ _ h hr _ => Closing.undisturbed h hr)
      (fun _ _ _ _ _ hk _ h => Closing.append hk h) ?_ hclosing)
    refine Prog.emits_bind (emits_sync fun _ => trivial) fun _ => Prog.emits_bind
      (emits_query _) fun o => ?_
    exact Prog.emits_imp (fun _ _ => trivial) (hf o)

end

/-! ## The outline -/

def SessionRequest.Carries (r : SessionRequest) (reply : Reply) (a : SessionReply) : Prop :=
  match r.command with
  | .updateUser _ _ _ => ∃ target, a = .updated reply target
  | _ => a = .route reply

/-- The account command of the request commits what it may, and the others write nothing. -/
def SessionRequest.Commits (r : SessionRequest) (a : SessionReply) (log : List Write) (db : Db) :
    Prop :=
  match r.account with
  | none => log = []
  | some q => ∃ reply, r.Carries reply a ∧ q.Commits reply log db ∧
      ∀ w ∈ log, q.command.mayWrite q.ctx w

def SessionRequest.Effects (r : SessionRequest) (a : SessionReply) (held : List LockKey)
    (log : List Write) (db : Db) : Prop :=
  match r.command with
  | .login _ _ | .authenticate _ => ∀ payload, a = .loggedIn payload → Current payload db
  | .requestPasswordReset _ _ _ _ => ∀ t, .insertToken t ∈ log → .user t.userId ∈ held
  | .updateUser id _ data => log = [] ∨ ∃ reply target, a = .updated reply (some target) ∧
      (data.isActive = some false → target.isActive = true → Closes r.ctx id log db)
  | .updateCandidate id _ => ∀ k patch, .updateUser k patch ∈ log →
      ∃ p, db.profiles.get id = some p ∧ p.organizationId = r.ctx.organizationId ∧ p.userId = k
  | _ => True

section
variable {ctx : Context} {s : Db}

theorem emits_login [PasswordVerifier] {P : Write → Prop} (organizationId username password : String) :
    (login organizationId username password).Emits P := by
  refine Prog.emits_bind (emits_query _) fun user => ?_
  cases user with
  | none => exact trivial
  | some user =>
    dsimp only
    split
    · refine Prog.emits_bind (emits_query _) fun authority => ?_
      split <;> first | exact trivial | (split <;> exact trivial)
    · exact trivial

theorem emits_authenticate {P : Write → Prop} (payload : JwtPayload) :
    (authenticate payload).Emits P := by
  refine Prog.emits_bind (emits_query _) fun user => ?_
  cases user with
  | none => exact trivial
  | some user =>
    dsimp only
    split
    · exact trivial
    · split
      · exact trivial
      · refine Prog.emits_bind (emits_query _) fun authority => ?_
        split <;> exact trivial

theorem wp_silent {α : Type} {p : Action α} (h : p.Emits fun _ => False) :
    p.wp Undisturbed Coherent (fun _ _ log _ => log = []) [] [] s :=
  wp_mono (fun _ _ _ _ _ h => List.eq_nil_iff_forall_not_mem.mpr h.2) (wp_emits h (by simp) (wp_true p))

theorem session_commits_wp [PasswordVerifier] (r : SessionRequest) (s : Db) :
    r.program.wp Undisturbed Coherent (fun a _ log s => r.Commits a log s) [] [] s := by
  have haccount : ∀ q : Request, q.program.wp Undisturbed Coherent (fun reply _ log s =>
      q.Commits reply log s ∧ ∀ w ∈ log, q.command.mayWrite q.ctx w) [] [] s :=
    fun q => wp_restrict (fun _ _ _ h => h.rows) (fun _ h => h) (program_wp q s)
  have hanswer : ∀ q : Request, r.account = some q → r.program = answer q.program →
      (∀ reply, r.Carries reply (.route reply)) →
      r.program.wp Undisturbed Coherent (fun a _ log s => r.Commits a log s) [] [] s := by
    intro q hq hp hcarries
    rw [hp]
    refine wp_map (wp_mono (fun reply _ _ _ _ h => ?_) (haccount q))
    simp only [SessionRequest.Commits, hq]
    exact ⟨reply, hcarries reply, h⟩
  obtain ⟨requestId, ctx, command⟩ := r
  cases command with
  | login username password => exact wp_silent (emits_login _ username password)
  | authenticate payload => exact wp_silent (emits_authenticate payload)
  | updateUser id new data =>
    have hemits : (readAndUpdateUser ctx id new data).Emits
        ((AccountCommand.updateUser id new data).mayWrite ctx) := by
      refine Prog.emits_of_bind (f := fun r => .done r.1) ?_
      rw [readAndUpdateUser_route]
      exact emits_updateUserRoute ctx id new data
    refine wp_map (wp_mono (fun r _ _ _ _ h => ?_) (wp_emits hemits (by simp) (wp_true _)))
    exact ⟨r.1, ⟨r.2, rfl⟩, trivial, h.2⟩
  | _ => exact hanswer _ rfl rfl fun _ => rfl

theorem login_wp [PasswordVerifier] (organizationId username password : String) :
    (login organizationId username password).wp Undisturbed Coherent
      (fun a _ _ s => ∀ payload, a = .loggedIn payload → Current payload s) [] [] s := by
  apply wp_query
  intro s₁ _ _
  cases hfind : ((applyAll s₁ ([] : List Write)).users.rows.find? fun u => decide
      (u.organizationId = organizationId ∧ u.username = username)) with
  | none => exact fun _ _ _ payload hp => by cases hp
  | some user =>
    have hcurrent : Current ⟨user.id, user.organizationId, user.authEpoch⟩ s₁ :=
      ⟨user, (Table.find_eq_some hfind).1, rfl, le_refl _⟩
    dsimp only
    split
    · apply wp_query
      intro s₂ h₂ _
      split
      case h_4 authority _ =>
        split
        · intro s₃ h₃ _ payload hp
          cases hp
          exact (hcurrent.undisturbed h₂).undisturbed h₃
        · exact fun _ _ _ payload hp => by cases hp
      all_goals exact fun _ _ _ payload hp => by cases hp
    · exact fun _ _ _ payload hp => by cases hp

theorem authenticate_wp (presented : JwtPayload) : (authenticate presented).wp Undisturbed Coherent
    (fun a _ _ s => ∀ payload, a = .loggedIn payload → Current payload s) [] [] s := by
  apply wp_query
  intro s₁ _ _
  split
  · exact fun _ _ _ payload hp => by cases hp
  · split
    · exact fun _ _ _ payload hp => by cases hp
    · split
      · exact fun _ _ _ payload hp => by cases hp
      · apply wp_query
        intro s₂ _ _
        split <;> exact fun _ _ _ payload hp => by cases hp

theorem issued_locked_wp (new : NewRow) (username tokenHash : String) (clock : ResetClock) :
    (requestPasswordReset ctx new username tokenHash clock).wp Undisturbed Coherent
      (fun _ held log _ => ∀ t, .insertToken t ∈ log → .user t.userId ∈ held) [] [] s := by
  refine wp_restrict (fun _ _ _ h => h.rows) (fun _ h => h)
    (wp_lockUsers (fun _ => rfl) fun s₁ locked K _ _ _ hlocked => ?_)
  cases locked with
  | none => exact fun _ _ _ t ht => by cases ht
  | some user =>
    have hkey := (hlocked user rfl).2.2
    refine wp_mono (fun _ _ _ _ _ h t ht => ?_) (wp_carries (P := fun w => ∀ t, w = .insertToken t →
        t.userId = user.id)
      (A := fun held log (_ : Db) => .user user.id ∈ held ∧ ∀ w ∈ log, ∀ t, w = .insertToken t →
        t.userId = user.id)
      (fun _ _ _ _ h _ _ => h) ?_ ?_ ⟨hkey, by simp⟩)
    · rw [h.2 _ ht t rfl]
      exact h.1
    · intro _ _ _ ws _ hk hw h
      refine ⟨hk _ h.1, fun w hm => ?_⟩
      rcases List.mem_append.mp hm with hm | hm
      · exact h.2 w hm
      · exact hw w hm
    · dsimp only
      split
      · exact trivial
      · split
        · exact trivial
        · refine Prog.emits_bind (emits_query _) fun latest => ?_
          split
          · exact trivial
          · refine Prog.emits_bind (emits_issue ?_ ?_ ?_) fun _ => trivial
            · exact fun _ _ ht => by cases ht
            · exact fun _ _ ht => by cases ht
            · intro t ht
              cases ht
              rfl

def Write.updatesOnly (userId : String) (w : Write) : Prop :=
  ∀ k patch, w = .updateUser k patch → userId = k

theorem updateCandidate_account_wp (id : String) (data : UpdateCandidate) :
    (updateCandidate ctx id data).wp Undisturbed Coherent (fun _ _ log s => ∀ k patch,
        .updateUser k patch ∈ log →
      ∃ p, s.profiles.get id = some p ∧ p.organizationId = ctx.organizationId ∧
      p.userId = k) [] [] s := by
  apply wp_query
  intro s₁ _ _
  cases hfind : ((applyAll s₁ ([] : List Write)).profiles.get id).filter
    (fun p => decide (p.organizationId = ctx.organizationId)) with
  | none => exact fun _ _ _ _ _ h => by cases h
  | some candidate =>
    rw [Option.filter_eq_some_iff] at hfind
    refine wp_mono (fun _ _ _ _ _ h k patch hw => ⟨candidate, h.1, of_decide_eq_true hfind.2,
        h.2 _ hw k patch rfl⟩)
      (wp_carries (P := Write.updatesOnly candidate.userId)
        (A := fun _ log (s : Db) => s.profiles.get id = some candidate ∧
          ∀ w ∈ log, Write.updatesOnly candidate.userId w)
        (fun _ _ _ _ h hr _ => ⟨(hr.profiles id).trans h.1, h.2⟩) ?_ ?_ ⟨hfind.1, by simp⟩)
    · intro _ _ _ ws _ _ hw h
      refine ⟨h.1, fun w hm => ?_⟩
      rcases List.mem_append.mp hm with hm | hm
      · exact h.2 w hm
      · exact hw w hm
    · refine Prog.emits_bind emits_beginRepeatableRead fun iso => ?_
      dsimp only
      split
      · refine Prog.emits_bind (emits_updateUser ?_) fun _ => Prog.emits_bind
          (emits_query _) fun _ => trivial
        intro k patch he
        cases he
        rfl
      · exact Prog.emits_bind (emits_query _) fun _ => trivial

theorem readAndUpdateUser_wp (id : String) (new : NewRow) (data : UpdateUser) :
    (readAndUpdateUser ctx id new data).wp Undisturbed Coherent (fun a _ log s => log = [] ∨
      ∃ target, a.2 = some target ∧
      (data.isActive = some false → target.isActive = true → Closes ctx id log s)) [] [] s := by
  unfold readAndUpdateUser
  split
  · exact trivial
  · apply wp_query
    intro s₁ _ _
    cases ((applyAll s₁ ([] : List Write)).users.get id).filter (ofUser ctx id) with
    | none => exact fun _ _ _ => .inl rfl
    | some target =>
      dsimp only
      refine wp_map ?_
      by_cases hoff : data.isActive = some false ∧ target.isActive = true
      · refine wp_mono (fun _ _ _ _ _ h => ?_) (p := mutateWithEffectiveAdminPostcondition ctx
            (updateUserMutation ctx id new data target))
          (Q := fun _ _ log s => log = [] ∨ Closes ctx id log s) ?_
        · exact h.imp (fun h => h) fun h => ⟨target, rfl, fun _ _ => h⟩
        · rw [mutateWithEffectiveAdminPostcondition]
          refine wp_lock fun s₂ _ _ => updateUserMutation_wp hoff.1 hoff.2 fun _ => ?_
          exact Prog.emits_bind emits_exclusion fun _ => Prog.emits_bind emits_effectiveAdmin
            fun _ => trivial
      · refine wp_mono (fun _ _ _ _ _ _ => ?_) (wp_true _)
        exact .inr ⟨target, rfl, fun h₁ h₂ => absurd ⟨h₁, h₂⟩ hoff⟩

theorem session_effects_wp [PasswordVerifier] (r : SessionRequest) (s : Db) :
    r.program.wp Undisturbed Coherent (fun a held log s => r.Effects a held log s) [] [] s := by
  obtain ⟨requestId, ctx, command⟩ := r
  cases command with
  | login username password => exact login_wp _ username password
  | authenticate payload => exact authenticate_wp payload
  | requestPasswordReset new username tokenHash clock =>
    exact wp_map (issued_locked_wp new username tokenHash clock)
  | updateCandidate id data => exact wp_map (updateCandidate_account_wp id data)
  | updateUser id new data =>
    refine wp_map (wp_mono (fun a _ _ _ _ h => ?_) (readAndUpdateUser_wp id new data))
    exact h.imp (fun h => h) fun ⟨target, ht, h⟩ => ⟨a.1, target, by rw [← ht], h⟩
  | _ => exact wp_true _

end

section
variable {r : SessionRequest} {a : SessionReply} {held : List LockKey} {log : List Write} {db : Db}

theorem commits_command (h : r.Commits a log db) {w : Write} (hw : w ∈ log) :
    ∃ q, r.account = some q ∧ q.command.mayWrite q.ctx w := by
  unfold SessionRequest.Commits at h
  split at h
  · rw [h] at hw
    cases hw
  case h_2 q hq =>
    obtain ⟨_, _, _, hwrites⟩ := h
    exact ⟨q, hq, hwrites w hw⟩

theorem session_writes (h : r.Commits a log db) : ∀ w ∈ log, w.ofSession := by
  intro w hw
  obtain ⟨q, hq, hmay⟩ := commits_command h hw
  exact ofSession_of_mayWrite hq hmay

theorem issued_locked (h : r.Commits a log db) (he : r.Effects a held log db)
    {t : PasswordResetToken} (ht : .insertToken t ∈ log) :
    .user t.userId ∈ held := by
  obtain ⟨q, hq, hmay⟩ := commits_command h ht
  obtain ⟨new, username, tokenHash, clock, hr⟩ := issuing_command hq hmay
  simp only [SessionRequest.Effects, hr] at he
  exact he t ht

theorem session_coherent (hdb : Coherent db) (h : r.Commits a log db)
    (hintact : (applyAll db log).intact = true) :
    Coherent (applyAll db log) := by
  unfold SessionRequest.Commits at h
  split at h
  · rw [h]
    exact hdb
  · obtain ⟨_, _, hcommits, hw⟩ := h
    exact commits_coherent hdb hcommits hw hintact

end

def sessions [PasswordVerifier] : Outline SessionRequest.program (fun _ : SessionCommit => True) where
  Inv := Coherent
  Rely := Undisturbed
  Post r a held log s := r.Commits a log s ∧ r.Effects a held log s
  refl := .refl
  trans _ _ _ _ := .trans
  start r s _ := wp_and (session_commits_wp r s) (session_effects_wp r s)
  commit c held log hb hp ha hk ho hi _ := by
    rw [ha] at hi ⊢
    refine ⟨session_coherent hb hp.1 hi,
      fun K hK => ⟨Protected.of_unlocked fun w hw k hkw hkK => ?_, ?_, fun k => ?_, ?_⟩⟩
    · exact ho k (hk w hw k hkw) (hK k hkK)
    · intro k u hu
      obtain ⟨v, hv, hafter⟩ := user_after (session_writes hp.1) hu
      exact ⟨v, hv, hafter.organization, hafter.epoch⟩
    · exact profiles_kept (session_writes hp.1)
    · intro k x hx hget
      rcases token_source hget with hold | ⟨y, hy, hyx, _⟩
      · exact hold
      · exact absurd (hK _ hx) (ho _ (hyx ▸ issued_locked hp.1 hp.2 hy))

/-! ## Checks and logouts -/

section
variable {payload : JwtPayload} {s : Db}

theorem authenticate_superseded_wp :
    (authenticate payload).wp Undisturbed (fun s => Coherent s ∧ Superseded payload s)
      (fun a _ _ _ => a = .authRequired) [] [] s := by
  apply wp_query
  intro s₁ _ ⟨_, u, hget, horg, he⟩
  have hid : u.id = payload.actorId := Table.key_get hget
  have hfound : ((applyAll s₁ ([] : List Write)).users.get payload.actorId).filter
      (ofUser ⟨payload.organizationId, payload.actorId⟩ payload.actorId) = some u := by
    rw [applyAll_nil, hget]
    simp [ofUser, horg, hid]
  rw [hfound]
  dsimp only
  split
  · exact fun _ _ _ => rfl
  · rw [if_pos (Nat.ne_of_lt he)]
    exact fun _ _ _ => rfl

theorem logout_current_wp :
    (logout ⟨payload.organizationId, payload.actorId⟩ payload.authEpoch).wp Undisturbed
      (fun s => Coherent s ∧ Current payload s)
      (fun _ _ log s => Superseded payload (applyAll s log)) [] [] s := by
  rw [logout, advanceAuthEpochIfCurrent, updateUsers]
  simp only [Prog.bind_assoc]
  refine wp_modify fun s₁ h₁ hs₁ s₂ h₂ hs₂ found rows hfound hrows _ => ?_
  intro s₃ h₃ hs₃
  rw [List.nil_append]
  have hwrites : ∀ w ∈ rows.flatMap fun u => [Write.updateUser u.id { advanceAuthEpoch := true }],
      w.ofSession := by
    intro w hw
    obtain ⟨x, _, hw⟩ := List.mem_flatMap.mp hw
    rw [List.mem_singleton.mp hw]
    simp [Write.ofSession]
  obtain ⟨_, u₁, hu₁, ho₁, he₁⟩ := hs₁
  obtain ⟨_, u₂, hu₂, ho₂, he₂⟩ := hs₂
  obtain ⟨_, u₃, hu₃, ho₃, he₃⟩ := hs₃
  rcases lt_or_eq_of_le he₁ with hlt | heq₁
  · exact (((show Superseded payload s₁ from ⟨u₁, hu₁, ho₁, hlt⟩).undisturbed h₂).undisturbed
        h₃).applyAll hwrites
  · rcases lt_or_eq_of_le he₂ with hlt | heq₂
    · exact ((show Superseded payload s₂ from ⟨u₂, hu₂, ho₂, hlt⟩).undisturbed h₃).applyAll hwrites
    -- the row is found in one state and still matches in the other
    · have hid : ∀ {s : Db} {u : User}, s.users.get payload.actorId = some u →
        u.id = payload.actorId := fun h => Table.key_get h
      have hmem : u₂ ∈ rows := by
        rw [hrows]
        refine again_of_mem (x := u₁) ?_ ?_ ?_
        · rw [hfound]
          exact List.mem_filter.mpr ⟨Table.mem_of_get hu₁, by simp [ofUser, hid hu₁, ho₁, heq₁]⟩
        · rw [hid hu₁]
          exact hu₂
        · simp [ofUser, hid hu₂, ho₂, heq₂]
      obtain ⟨v, hv, hafter⟩ := user_after hwrites hu₃
      refine ⟨v, hv, hafter.organization.trans ho₃,
        lt_of_le_of_lt he₃ (hafter.advanced { advanceAuthEpoch := true } ?_ rfl)⟩
      exact List.mem_flatMap.mpr ⟨u₂, hmem, by simp [hid hu₂]⟩

end

/-! ## Commits of a run -/

section
variable [PasswordVerifier] {db : Db} {es : List (Event SessionRequest)} {c : SessionCommit}

theorem sessionRun_commit (h : Coherent db) (hc : c ∈ (sessionRun db es).history) : Coherent c.before ∧
    ∃ held log, c.request.Commits c.reply log c.before ∧
    c.request.Effects c.reply held log c.before ∧ c.after = applyAll c.before log := by
  obtain ⟨_, hcommits, _⟩ := sessions.sound h es fun _ _ => trivial
  obtain ⟨hb, _, _, held, log, hp, he⟩ := hcommits c hc
  exact ⟨hb, held, log, hp.1, hp.2, he⟩

theorem sessionRun_holds (h : Coherent db) (es : List (Event SessionRequest)) :
    sessions.Holds (sessionRun db es) :=
  Outline.holds_run es (Outline.holds_idle h) fun _ _ => trivial

theorem sessionRun_append (db : Db) (es es' : List (Event SessionRequest)) :
    ∃ cs, (sessionRun db (es ++ es')).history = (sessionRun db es).history ++ cs ∧
      Path (sessionRun db es).committed cs (sessionRun db (es ++ es')).committed := by
  rw [sessionRun, Machine.run, List.foldl_append]
  exact run_commits SessionRequest.program es' (sessionRun db es)

theorem commit_current (h : Coherent db) (hc : c ∈ (sessionRun db es).history)
    {payload : JwtPayload} (hp : Current payload c.before) :
    Current payload c.after := by
  obtain ⟨_, _, log, hcommits, _, ha⟩ := sessionRun_commit h hc
  rw [ha]
  exact hp.applyAll (session_writes hcommits)

theorem commit_superseded (h : Coherent db) (hc : c ∈ (sessionRun db es).history) {payload : JwtPayload}
    (hp : Superseded payload c.before) : Superseded payload c.after := by
  obtain ⟨_, _, log, hcommits, _, ha⟩ := sessionRun_commit h hc
  rw [ha]
  exact hp.applyAll (session_writes hcommits)

theorem logged_in_current (h : Coherent db) (hc : c ∈ (sessionRun db es).history) {payload : JwtPayload}
    (hp : c.reply = .loggedIn payload) : Current payload c.after := by
  refine commit_current h hc ?_
  obtain ⟨_, held, log, hcommits, heffects, _⟩ := sessionRun_commit h hc
  obtain ⟨⟨_, ctx, command⟩, _, _, _, _⟩ := c
  dsimp only at hp
  cases command with
  | login username password => exact heffects payload hp
  | authenticate presented => exact heffects payload hp
  | updateUser id new data =>
    obtain ⟨reply, ⟨target, hreply⟩, _⟩ := hcommits
    rw [hp] at hreply
    cases hreply
  | _ =>
    obtain ⟨reply, hreply, _⟩ := hcommits
    rw [hp] at hreply
    cases hreply

end

/-! ## What a revocation commits -/

section
variable {c : SessionCommit} {held : List LockKey} {log : List Write} {userId : String}

theorem deactivation_closes (hc : c.request.Commits c.reply log c.before)
    (he : c.request.Effects c.reply held log c.before) (ha : c.after = applyAll c.before log)
    (hgood : RevokesWhatItDisables c) (hd : Deactivates c userId) :
    Closes c.request.ctx userId log c.before := by
  obtain ⟨u, v, hu, hactive, hv, hinactive⟩ := hd
  obtain ⟨v', hv', hafter⟩ := user_after (session_writes hc) hu
  rw [ha, hv', Option.some.injEq] at hv
  subst hv
  obtain ⟨patch, hpatch, hoff⟩ := hafter.active (by rw [hactive, hinactive]; decide)
  rw [hinactive] at hoff
  obtain ⟨q, hq, hmay⟩ := commits_command hc hpatch
  simp only [SessionRequest.Effects] at he
  simp only [RevokesWhatItDisables] at hgood
  rcases deactivating_command hq hmay hoff with ⟨new, data, hr, hdata⟩ | ⟨id, data, hr, hdata⟩
  · rw [hr] at he hgood
    rcases he with hnil | ⟨reply, target, hreply, hcloses⟩
    · rw [hnil] at hpatch
      cases hpatch
    · exact hcloses hdata (hgood hdata u hu hactive reply target hreply)
  · rw [hr] at he hgood
    obtain ⟨p, hp, horg, rfl⟩ := he userId patch hpatch
    rw [hgood hdata p u hp horg hu] at hactive
    cases hactive

/-- A password change and a deactivation raise the epoch of the account. -/
theorem revocation_supersedes (hc : c.request.Commits c.reply log c.before)
    (he : c.request.Effects c.reply held log c.before) (ha : c.after = applyAll c.before log)
    (hgood : RevokesWhatItDisables c) {payload : JwtPayload}
    (hr : ChangesCredential c payload.actorId ∨ Deactivates c payload.actorId)
    (hp : Current payload c.before) :
    Superseded payload c.after := by
  obtain ⟨u, hu, horg, hepoch⟩ := hp
  have hwrites := session_writes hc
  obtain ⟨v, hv, hafter⟩ := user_after hwrites hu
  have hadvanced : ∃ patch, .updateUser payload.actorId patch ∈ log ∧
      patch.advanceAuthEpoch = true := by
    rcases hr with ⟨u', v', hu', hv', hne⟩ | hd
    · rw [hu, Option.some.injEq] at hu'
      rw [ha, hv, Option.some.injEq] at hv'
      subst hu' hv'
      obtain ⟨patch, hpatch, hsome⟩ := hafter.password (Ne.symm hne)
      exact ⟨patch, hpatch, hwrites _ hpatch hsome⟩
    · exact ⟨_, (deactivation_closes hc he ha hgood hd).advances, rfl⟩
  obtain ⟨patch, hpatch, hadv⟩ := hadvanced
  rw [ha]
  exact ⟨v, hv, hafter.organization.trans horg,
    lt_of_le_of_lt hepoch (hafter.advanced patch hpatch hadv)⟩

end

/-! ## Tokens after a deactivation -/

section
variable {r : SessionRequest} {a : SessionReply} {log : List Write} {db : Db} {userId : String}

theorem closes_issues_none (h : r.Commits a log db) {ctx : Context} (hc : Closes ctx userId log db)
    (t : PasswordResetToken) :
    .insertToken t ∉ log := by
  intro ht
  obtain ⟨q, hq, hmay⟩ := commits_command h ht
  obtain ⟨new, username, tokenHash, clock, hr⟩ := issuing_command hq hmay
  obtain ⟨q', hq', hmay'⟩ := commits_command h hc.advances
  obtain ⟨_, _, command⟩ := r
  subst hr
  simp only [SessionRequest.account, Option.some.injEq] at hq'
  subst hq'
  simp [AccountCommand.mayWrite] at hmay'

/-- It leaves no token of the account. -/
theorem closes_tokens (h : r.Commits a log db) {ctx : Context} (hc : Closes ctx userId log db)
    {k : String} {x : PasswordResetToken} (hx : (applyAll db log).tokens.get k = some x)
    (hid : x.userId = userId) : x.organizationId ≠ ctx.organizationId := by
  intro horg
  rcases token_source hx with ⟨y, hy, h₁, h₂, _⟩ | ⟨y, hy, _⟩
  · exact token_deleted (closes_issues_none h hc)
      (hc.burns k y hy (h₁.trans hid) (h₂.trans horg)) hx hid
  · exact closes_issues_none h hc y hy

end

section
variable {c : SessionCommit} {log : List Write}

theorem inserted_issued (hc : c.request.Commits c.reply log c.before)
    (ha : c.after = applyAll c.before log) {y : PasswordResetToken} (hy : .insertToken y ∈ log) :
    IssuesToken c y.userId y.tokenHash := by
  obtain ⟨q, hq, hmay⟩ := commits_command hc hy
  obtain ⟨new, username, tokenHash, clock, hr⟩ := issuing_command hq hmay
  obtain ⟨⟨requestId, ctx, command⟩, reply, before, after, others⟩ := c
  dsimp only at hr
  subst hr
  obtain ⟨reply', hreply, hrequests, hw⟩ := hc
  rcases hrequests with ⟨_, _, _, rfl⟩ | ⟨u, hu⟩
  · cases hy
  · obtain ⟨closed, dropped, hlog⟩ := hu.writes
    have hnew : y = newToken ctx new u.id tokenHash clock := by
      rw [hlog] at hy
      simpa [supersede] using hy
    subst hnew
    refine ⟨new, username, clock, newToken ctx new u.id tokenHash clock, rfl, ?_, ?_, rfl, rfl⟩
    · rw [← hu.reply]
      exact hreply
    · dsimp only at ha ⊢
      rw [ha, hlog, applyAll_append, applyAll_cons, applyAll_nil, get_tokens]
      simp [Write.tokenAt, newToken]

end

/-! ## Runs -/

section
variable [PasswordVerifier] {db : Db}

theorem sessionRun_path (db : Db) (es : List (Event SessionRequest)) :
    Path db (sessionRun db es).history (sessionRun db es).committed := by
  obtain ⟨cs, hh, hp⟩ := run_commits SessionRequest.program es (Machine.idle db)
  rw [show (sessionRun db es).history = cs from hh]
  exact hp

theorem current_after_login (h : Coherent db) {es : List (Event SessionRequest)} {l : SessionCommit}
    (hl : l ∈ (sessionRun db es).history) {payload : JwtPayload} (hp : l.reply = .loggedIn payload) :
    Current payload (sessionRun db es).committed :=
  path_after (sessionRun_path db es) (fun _ hd => commit_current h hd) hl (logged_in_current h hl hp)

theorem logout_supersedes (h : Coherent db) {es₁ es₂ : List (Event SessionRequest)}
    {c : SessionCommit} {payload : JwtPayload}
    (hc : c ∈ (sessionRun db (es₁ ++ es₂)).history.drop (sessionRun db es₁).history.length)
    (hr : c.request.command = .logout payload) (hsent : SentWithToken db es₁ c.request payload) :
    Superseded payload c.after := by
  obtain ⟨es₀, ⟨xs, rfl⟩, ⟨l, hl, hlr⟩, hnew⟩ := hsent
  obtain ⟨cs, hh, hlater⟩ := sessions.later_of (sessionRun_holds h es₀) (current_after_login h hl hlr)
    (fun c held log hp ha hs => by rw [ha]; exact hs.applyAll (session_writes hp.1))
    (Q := fun r _ log s => r.command = .logout payload → Superseded payload (applyAll s log))
        (fun r s _ _ _ => by
      obtain ⟨_, ctx, command⟩ := r
      by_cases hcommand : command = .logout payload
      · subst hcommand
        exact wp_map (wp_mono (fun _ _ _ _ _ h _ => h) logout_current_wp)
      · exact wp_mono (fun _ _ _ _ _ _ he => absurd he hcommand) (wp_true _))
          (xs ++ es₂) fun _ _ => trivial
  have hrun : sessionRun db (es₀ ++ xs ++ es₂) = Machine.run SessionRequest.program
      (sessionRun db es₀) (xs ++ es₂) := by
    rw [List.append_assoc]
    exact List.foldl_append
  have hmem : c ∈ cs := by
    obtain ⟨ds, hds, _⟩ := sessionRun_append db es₀ xs
    rw [hrun, hh, hds, List.length_append, ← List.drop_drop, List.drop_left] at hc
    exact List.mem_of_mem_drop hc
  obtain ⟨_, log, hq, ha⟩ := hlater c hmem hnew
  rw [ha]
  exact hq hr

theorem superseded_rejected (h : Coherent db) {es₁ es₂ : List (Event SessionRequest)}
    {payload : JwtPayload} (hp : Superseded payload (sessionRun db es₁).committed)
    {a : SessionCommit}
    (ha : a ∈ (sessionRun db (es₁ ++ es₂)).history.drop (sessionRun db es₁).history.length)
    (hr : a.request.command = .authenticate payload)
    (hnew : (sessionRun db es₁).NotInFlight a.request) : a.reply = .authRequired := by
  obtain ⟨cs, hh, hlater⟩ := sessions.later_of (sessionRun_holds h es₁) hp
    (fun c held log hp ha hs => by rw [ha]; exact hs.applyAll (session_writes hp.1))
    (Q := fun r a _ _ => r.command = .authenticate payload → a = .authRequired) (fun r s _ _ _ => by
      obtain ⟨_, ctx, command⟩ := r
      by_cases hcommand : command = .authenticate payload
      · subst hcommand
        exact wp_mono (fun _ _ _ _ _ h _ => h) authenticate_superseded_wp
      · exact wp_mono (fun _ _ _ _ _ _ he => absurd he hcommand) (wp_true _)) es₂ fun _ _ => trivial
  have hrun : sessionRun db (es₁ ++ es₂) = Machine.run SessionRequest.program
    (sessionRun db es₁) es₂ := List.foldl_append
  rw [hrun, hh, List.drop_left] at ha
  obtain ⟨_, _, hq, _⟩ := hlater a ha hnew
  exact hq hr

/-- Between a deactivation that closes the account and a consumption of one of its tokens
lies the issue of that token. -/
theorem token_issued_between (h : Coherent db) (es : List (Event SessionRequest))
    {cs ds fs : List SessionCommit} {c d : SessionCommit}
    (hh : (sessionRun db es).history = cs ++ c :: ds ++ d :: fs) (hgood : RevokesWhatItDisables c)
    {userId tokenHash : String} (hc : Deactivates c userId) (hd : ConsumesToken d userId tokenHash) :
    ∃ e ∈ ds, IssuesToken e userId tokenHash := by
  have hmem : ∀ e ∈ c :: ds ++ [d], e ∈ (sessionRun db es).history := by
    intro e he
    rw [hh]
    simp only [List.mem_append, List.mem_cons, List.not_mem_nil, or_false] at he ⊢
    tauto
  have hp := sessionRun_path db es
  rw [hh, List.append_assoc] at hp
  obtain ⟨_, _, hp⟩ := path_append hp
  obtain ⟨s, hs, hdpath⟩ := path_append hp.2
  obtain ⟨_, held, log, hcommits, heffects, hafter⟩ := sessionRun_commit h (hmem c (by simp))
  have hcloses := deactivation_closes hcommits heffects hafter hgood hc
  -- the invariant from `c` to `d`: the tokens of the account were issued in between
  have hissued : (∃ u, s.users.get userId = some u ∧ u.organizationId = c.request.ctx.organizationId) ∧
      ∀ k x, s.tokens.get k = some x → x.userId = userId →
        x.organizationId = c.request.ctx.organizationId →
        ∃ e ∈ ds, IssuesToken e userId x.tokenHash := by
    refine path_keeps (P := fun (s : Db) => (∃ u, s.users.get userId = some u ∧
        u.organizationId = c.request.ctx.organizationId) ∧
      ∀ k x, s.tokens.get k = some x → x.userId = userId →
        x.organizationId = c.request.ctx.organizationId →
        ∃ e ∈ ds, IssuesToken e userId x.tokenHash) hs ?_ ⟨?_, ?_⟩
    · intro e he ⟨⟨u, hu, huo⟩, htokens⟩
      obtain ⟨_, _, log', hcommits', _, hafter'⟩ := sessionRun_commit h (hmem e (by simp [he]))
      constructor
      · obtain ⟨v, hv, hva⟩ := user_after (session_writes hcommits') hu
        exact ⟨v, hafter' ▸ hv, hva.organization.trans huo⟩
      · intro k x hx hid horg
        rw [hafter'] at hx
        rcases token_source hx with ⟨y, hy, h₁, h₂, h₃⟩ | ⟨y, hy, h₁, _, h₃⟩
        · rw [← h₃]
          exact htokens k y hy (h₁.trans hid) (h₂.trans horg)
        · refine ⟨e, he, ?_⟩
          rw [← h₃, ← hid, ← h₁]
          exact inserted_issued hcommits' hafter' hy
    · obtain ⟨u, hu, huo⟩ := hcloses.account
      obtain ⟨v, hv, hva⟩ := user_after (session_writes hcommits) hu
      exact ⟨v, hafter ▸ hv, hva.organization.trans huo⟩
    · intro k x hx hid horg
      rw [hafter] at hx
      exact absurd horg (closes_tokens hcommits hcloses hx hid)
  obtain ⟨passwordHash, identifiedAt, now, k, t, hr, hreply, ht, hhash, hid⟩ := hd
  obtain ⟨hcoherent, _, log', hcommits', _, _⟩ := sessionRun_commit h (hmem d (by simp))
  obtain ⟨⟨requestId, ctx, command⟩, reply, before, after, others⟩ := d
  dsimp only at hr hreply ht hcoherent hcommits' hdpath
  subst hr
  obtain ⟨reply', hcarries, hconsumes, _⟩ := hcommits'
  have hok : reply' = .ok := by
    have hcarries : reply = .route reply' := hcarries
    rw [hreply] at hcarries
    exact (SessionReply.route.inj hcarries).symm
  rcases hconsumes with ⟨hinvalid, _⟩ | ⟨t', u, hredeems⟩
  · rw [hok] at hinvalid
    cases hinvalid
  · have hk := hcoherent.tokenHashes k t'.id t t' ht hredeems.token
      (hhash.trans hredeems.tokenHash.symm)
    rw [hk, hredeems.token, Option.some.injEq] at ht
    subst ht
    obtain ⟨⟨v, hv, hvo⟩, htokens⟩ := hissued
    rw [hdpath.1] at hv htokens
    have huser : u.id = userId := hredeems.owner.symm.trans hid
    rw [← huser, hredeems.user, Option.some.injEq] at hv
    subst hv
    rw [← hhash]
    exact htokens t'.id t' hredeems.token hid
      (hredeems.tokenOrganization.trans (hredeems.organization.symm.trans hvo))

theorem revocation_permanent (h : Coherent db) (es : List (Event SessionRequest))
    (hgood : ∀ c ∈ (sessionRun db es).history, RevokesWhatItDisables c) : PermanentlyRevoked db es where
  sessions es₁ es₂ es₃ hes l hl payload hlogin c hc hends a ha har hnew := by
    subst hes
    obtain ⟨cs, hcs, hpath⟩ := sessionRun_append db es₁ es₂
    have hmem : ∀ d ∈ cs, d ∈ (sessionRun db (es₁ ++ es₂)).history :=
      fun d hd => hcs ▸ List.mem_append_right _ hd
    have hccs : c ∈ cs := by
      rw [hcs, List.drop_left] at hc
      exact hc
    have hbefore : Current payload c.before :=
      (path_visits hpath (fun d hd => commit_current h (hmem d hd))
          (current_after_login h hl hlogin) c hccs).1
    have hafter : Superseded payload c.after := by
      have hrevoked : ChangesCredential c payload.actorId ∨ Deactivates c payload.actorId →
          Superseded payload c.after := by
        intro hr
        obtain ⟨_, held, log, hcommits, heffects, ha⟩ := sessionRun_commit h (hmem c hccs)
        refine revocation_supersedes hcommits heffects ha (hgood c ?_) hr hbefore
        obtain ⟨_, hfull, _⟩ := sessionRun_append db (es₁ ++ es₂) es₃
        rw [hfull]
        exact List.mem_append_left _ (hmem c hccs)
      rcases hends with hr | hr | ⟨hr, hsent⟩
      · exact hrevoked (.inl hr)
      · exact hrevoked (.inr hr)
      · exact logout_supersedes h hc hr hsent
    exact superseded_rejected h
      (path_after hpath (fun d hd => commit_superseded h (hmem d hd)) hccs hafter) ha har hnew
  tokens cs c ds d fs userId tokenHash hh hc hd := by
    refine token_issued_between h es hh (hgood c ?_) hc hd
    rw [hh]
    simp

end

/-! ## Runs of a candidate -/

def kim : User := ⟨"kim", "org", "kim", "pw", "Kim", .candidate, true, some "kim@org", 0⟩

def enrolled : Db where
  users := ⟨[ada, kim], by decide⟩
  assignments :=
    ⟨[⟨"ada-admin", "org", "ada", .admin, true, true, 0⟩,
        ⟨"kim-candidate", "org", "kim", .candidate, true, true, 0⟩], by decide⟩
  profiles := ⟨[⟨"kim-profile", "org", "kim"⟩], by decide⟩
  tokens := Table.empty
  invitations := Table.empty

theorem enrolled_coherent : Coherent enrolled where
  intact := by decide
  openInvitations i j x y h := by cases h
  invitationHashes i j x y h := by cases h
  exclusive i x h := by cases h
  openTokens i j x y h := by cases h
  tokenHashes i j x y h := by cases h

/-- A session request that runs with no other one in between, in `n` statements. -/
def sessionAlone (i : Nat) (ctx : Context) (command : SessionCommand) (n : Nat) :
    List (Event SessionRequest) :=
  .start ⟨i, ctx, command⟩ :: List.replicate (n + 1) (.advance i)

/-- A user update disables the candidate and another one enables it again: the old token is dead. -/
theorem revocation_permanent_disabled :
    let admin : Context := ⟨"org", "ada"⟩
    let es := sessionAlone 0 ⟨"org", "anonymous"⟩ (.login "kim" "pw") 2 ++
      sessionAlone 1 admin (.updateUser "kim" ⟨"row1", 1⟩ { isActive := some false }) 14 ++
      sessionAlone 2 admin (.updateUser "kim" ⟨"row2", 2⟩ { isActive := some true }) 14 ++
      sessionAlone 3 admin (.authenticate ⟨"kim", "org", 0⟩) 2
    let _ := plainPasswords
    (sessionRun enrolled es).history.map (·.reply) = [.loggedIn ⟨"kim", "org", 0⟩,
      .updated .ok (some kim),
        .updated .ok (some { kim with isActive := false, authEpoch := 1 }), .authRequired] ∧
      PermanentlyRevoked enrolled es := by
  intro admin es _
  have hhistory : (sessionRun enrolled es).history.map (fun c => (c.request.command, c.reply)) =
      [(.login "kim" "pw", .loggedIn ⟨"kim", "org", 0⟩),
        (.updateUser "kim" ⟨"row1", 1⟩ { isActive := some false }, .updated .ok (some kim)),
        (.updateUser "kim" ⟨"row2", 2⟩ { isActive := some true },
          .updated .ok (some { kim with isActive := false, authEpoch := 1 })),
        (.authenticate ⟨"kim", "org", 0⟩, .authRequired)] := by decide +kernel
  refine ⟨by decide +kernel, revocation_permanent enrolled_coherent es fun c hc => ?_⟩
  have hmem := List.mem_map_of_mem (f := fun c : SessionCommit => (c.request.command, c.reply)) hc
  rw [hhistory] at hmem
  simp only [List.mem_cons, List.not_mem_nil, or_false, Prod.mk.injEq] at hmem
  unfold RevokesWhatItDisables
  rcases hmem with ⟨hr, _⟩ | ⟨hr, hreply⟩ | ⟨hr, _⟩ | ⟨hr, _⟩ <;> rw [hr]
  · exact trivial
  · intro _ _ _ _ reply target ht
    rw [hreply] at ht
    cases ht
    rfl
  · exact fun h => by cases h
  · exact trivial

/-- A candidate update disables the candidate and another one enables it again: the old
token is accepted. -/
theorem revocation_revived :
    let admin : Context := ⟨"org", "ada"⟩
    let login := sessionAlone 0 ⟨"org", "anonymous"⟩ (.login "kim" "pw") 2
    let disabled :=
      sessionAlone 1 admin (.updateCandidate "kim-profile" { isActive := some false }) 4 ++
      sessionAlone 2 admin (.updateCandidate "kim-profile" { isActive := some true }) 4
    let check := sessionAlone 3 admin (.authenticate ⟨"kim", "org", 0⟩) 2
    let _ := plainPasswords
    Coherent enrolled ∧ ¬ PermanentlyRevoked enrolled (login ++ disabled ++ check) := by
  intro admin login disabled check _
  refine ⟨enrolled_coherent, fun h => ?_⟩
  have hlogin : ((sessionRun enrolled login).history.any fun l => decide
      (l.reply = .loggedIn ⟨"kim", "org", 0⟩)) = true := by decide +kernel
  have hdisabled : (((sessionRun enrolled (login ++ disabled)).history.drop
        (sessionRun enrolled login).history.length).any fun c =>
      (c.before.users.get "kim").any (·.isActive) && (c.after.users.get "kim").any
        (!·.isActive)) = true := by decide +kernel
  have hcheck : (((sessionRun enrolled (login ++ disabled ++ check)).history.drop
      (sessionRun enrolled (login ++ disabled)).history.length).any fun a =>
      decide (a.request.command = .authenticate ⟨"kim", "org", 0⟩ ∧
        a.reply ≠ .authRequired)) = true := by decide +kernel
  have hslots : ((sessionRun enrolled (login ++ disabled)).slots.all Option.isNone) = true := by
    decide +kernel
  obtain ⟨l, hl, hlr⟩ := List.any_eq_true.mp hlogin
  obtain ⟨c, hc, hoff⟩ := List.any_eq_true.mp hdisabled
  obtain ⟨a, ha, har⟩ := List.any_eq_true.mp hcheck
  simp only [Bool.and_eq_true, Option.any_eq_true, Bool.not_eq_true'] at hoff
  obtain ⟨⟨u, hu, hactive⟩, v, hv, hinactive⟩ := hoff
  have har := of_decide_eq_true har
  refine har.2 (h.sessions login disabled check rfl l hl _ (of_decide_eq_true hlr) c hc
    (.inr (.inl ⟨u, v, hu, hactive, hv, hinactive⟩)) a ha har.1 fun i t ht => ?_)
  have hmem : some t ∈ (sessionRun enrolled (login ++ disabled)).slots := by
    simp only [Machine.slot, Option.join_eq_some_iff] at ht
    exact List.mem_of_getElem? ht
  exact absurd (List.all_eq_true.mp hslots _ hmem) (by simp)

end ExamSystem.Accounts
