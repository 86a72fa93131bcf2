import ExamSystem.AccountWrites

/-!
# What locks protect

A transaction writes a row or an index entry only under its key, so whoever holds
a key knows what the commits of the others leave of it. `Protected` collects
these facts; they hold of every commit of every command.
-/

namespace ExamSystem.Accounts

open Interleaving

/-! ## Rows after a log -/

section
variable {log : List Write} {db : Db} {k : String}

theorem users_unlocked (h : ∀ w ∈ log, .user k ∉ w.keys) :
    (applyAll db log).users.get k = db.users.get k := by
  refine applyAll_invariant (P := fun (s : Db) => s.users.get k = db.users.get k) ?_ rfl
  intro w hw s hs
  rw [get_users, ← hs]
  have hk := h w hw
  cases w <;> simp_all [Write.userAt, Write.keys, User.keys]

theorem user_origin {u : User} (h : (applyAll db log).users.get k = some u) :
    (∃ v, db.users.get k = some v ∧ v.organizationId = u.organizationId ∧ v.username = u.username) ∨
    ∃ v, .insertUser v ∈ log ∧ v.organizationId = u.organizationId ∧ v.username = u.username := by
  induction log generalizing db with
  | nil => exact .inl ⟨u, h, rfl, rfl⟩
  | cons w log ih =>
    rcases ih h with ⟨v, hv, ho, hn⟩ | ⟨v, hv, hrest⟩
    · rw [get_users] at hv
      cases w with
      | insertUser i =>
        simp only [Write.userAt] at hv
        by_cases hk : k = i.id
        · rw [if_pos hk, Option.some.injEq] at hv
          exact .inr ⟨v, by simp [hv], ho, hn⟩
        · rw [if_neg hk] at hv
          exact .inl ⟨v, hv, ho, hn⟩
      | updateUser id patch =>
        simp only [Write.userAt] at hv
        by_cases hk : k = id
        · rw [if_pos hk, Option.map_eq_some_iff] at hv
          obtain ⟨z, hz, rfl⟩ := hv
          exact .inl ⟨z, hz, ho, hn⟩
        · rw [if_neg hk] at hv
          exact .inl ⟨v, hv, ho, hn⟩
      | deleteUser id =>
        simp only [Write.userAt] at hv
        by_cases hk : k = id
        · rw [if_pos hk] at hv
          cases hv
        · rw [if_neg hk] at hv
          exact .inl ⟨v, hv, ho, hn⟩
      | _ => exact .inl ⟨v, hv, ho, hn⟩
    · exact .inr ⟨v, List.mem_cons_of_mem w hv, hrest⟩

theorem invitations_unlocked (h : ∀ w ∈ log, .invitation k ∉ w.keys) :
    (applyAll db log).invitations.get k = db.invitations.get k := by
  refine applyAll_invariant (P := fun (s : Db) => s.invitations.get k = db.invitations.get k) ?_ rfl
  intro w hw s hs
  rw [get_invitations, ← hs]
  have hk := h w hw
  cases w <;> simp_all [Write.invitationAt, Write.keys, StaffInvitation.keys]

theorem profiles_unlocked (h : ∀ w ∈ log, .profile k ∉ w.keys) :
    (applyAll db log).profiles.get k = db.profiles.get k := by
  refine applyAll_invariant (P := fun (s : Db) => s.profiles.get k = db.profiles.get k) ?_ rfl
  intro w hw s hs
  rw [get_profiles, ← hs]
  have hk := h w hw
  cases w <;> simp_all [Write.profileAt, Write.keys, CandidateProfile.keys]

theorem assignments_unlocked (h : ∀ w ∈ log, .assignment k ∉ w.keys) {a : UserRoleAssignment}
    (ha : (applyAll db log).assignments.get k = some a) : db.assignments.get k = some a := by
  refine applyAll_invariant (P := fun (s : Db) => ∀ a, s.assignments.get k = some a →
    db.assignments.get k = some a) ?_ (fun _ h => h) a ha
  intro w hw s hs a ha
  rw [get_assignments] at ha
  have hk := h w hw
  apply hs a
  cases w <;> simp_all [Write.assignmentAt, Write.keys, UserRoleAssignment.keys,
    Option.filter_eq_some_iff]

theorem tokens_unlocked {t : PasswordResetToken} (h : ∀ w ∈ log, .token k ∉ w.keys)
    (hu : ∀ w ∈ log, .user t.userId ∉ w.keys) (ht : db.tokens.get k = some t) :
    (applyAll db log).tokens.get k = some t := by
  refine applyAll_invariant (P := fun (s : Db) => s.tokens.get k = some t) ?_ ht
  intro w hw s hs
  rw [get_tokens, hs]
  have hk := h w hw
  have hku := hu w hw
  cases w <;> simp_all [Write.tokenAt, Write.keys, PasswordResetToken.keys, User.keys]

/-- Where an invitation of a later state comes from: it kept its address, and it
was not opened again. -/
theorem invitation_origin {x : StaffInvitation} (h : (applyAll db log).invitations.get k = some x) :
    (∃ y, db.invitations.get k = some y ∧ y.organizationId = x.organizationId ∧ y.email = x.email ∧
      y.tokenHash = x.tokenHash ∧ (x.isOpen = true → y = x)) ∨
    ∃ y, .insertInvitation y ∈ log ∧ y.id = k ∧ y.organizationId = x.organizationId ∧
      y.email = x.email ∧ y.tokenHash = x.tokenHash ∧
      (x.isOpen = true → y = x) := by
  induction log generalizing db with
  | nil => exact .inl ⟨x, h, rfl, rfl, rfl, fun _ => rfl⟩
  | cons w log ih =>
    rcases ih h with ⟨y, hy, ho, he, ht, hx⟩ | ⟨y, hy, hrest⟩
    · rw [get_invitations] at hy
      cases w with
      | insertInvitation i =>
        simp only [Write.invitationAt] at hy
        by_cases hk : k = i.id
        · rw [if_pos hk, Option.some.injEq] at hy
          exact .inr ⟨y, by simp [hy], by rw [← hy, hk], ho, he, ht, hx⟩
        · rw [if_neg hk] at hy
          exact .inl ⟨y, hy, ho, he, ht, hx⟩
      | updateInvitation id patch =>
        simp only [Write.invitationAt] at hy
        by_cases hk : k = id
        · rw [if_pos hk, Option.map_eq_some_iff] at hy
          obtain ⟨z, hz, rfl⟩ := hy
          have hset : (patch.set z).organizationId = z.organizationId ∧ (patch.set z).email = z.email ∧
              (patch.set z).tokenHash = z.tokenHash ∧ (patch.set z).isOpen = false := by
            cases patch <;> simp [InvitationPatch.set, StaffInvitation.isOpen]
          refine .inl ⟨z, hz, by rw [← ho, hset.1], by rw [← he, hset.2.1], by rw [← ht,
              hset.2.2.1], fun hopen => ?_⟩
          rw [← hx hopen, hset.2.2.2] at hopen
          cases hopen
        · rw [if_neg hk] at hy
          exact .inl ⟨y, hy, ho, he, ht, hx⟩
      | _ => exact .inl ⟨y, hy, ho, he, ht, hx⟩
    · exact .inr ⟨y, List.mem_cons_of_mem w hy, hrest⟩

theorem token_origin {x : PasswordResetToken} (h : (applyAll db log).tokens.get k = some x) :
    (∃ y, db.tokens.get k = some y ∧ y.userId = x.userId ∧ y.tokenHash = x.tokenHash ∧
      (x.isOpen = true → y = x)) ∨
    ∃ y, .insertToken y ∈ log ∧ y.id = k ∧ y.userId = x.userId ∧ y.tokenHash = x.tokenHash ∧
    (x.isOpen = true → y = x) := by
  induction log generalizing db with
  | nil => exact .inl ⟨x, h, rfl, rfl, fun _ => rfl⟩
  | cons w log ih =>
    rcases ih h with ⟨y, hy, hu, ht, hx⟩ | ⟨y, hy, hrest⟩
    · rw [get_tokens] at hy
      cases w with
      | insertToken i =>
        simp only [Write.tokenAt] at hy
        by_cases hk : k = i.id
        · rw [if_pos hk, Option.some.injEq] at hy
          exact .inr ⟨y, by simp [hy], by rw [← hy, hk], hu, ht, hx⟩
        · rw [if_neg hk] at hy
          exact .inl ⟨y, hy, hu, ht, hx⟩
      | consumeToken userId id now =>
        simp only [Write.tokenAt] at hy
        by_cases hk : k = id
        · rw [if_pos hk, Option.map_eq_some_iff] at hy
          obtain ⟨z, hz, hzy⟩ := hy
          by_cases hzu : z.userId = userId
          · rw [if_pos hzu] at hzy
            subst hzy
            refine .inl ⟨z, hz, hu, ht, fun hopen => ?_⟩
            rw [← hx hopen] at hopen
            cases hopen
          · rw [if_neg hzu] at hzy
            exact .inl ⟨y, by rw [hz, hzy], hu, ht, hx⟩
        · rw [if_neg hk] at hy
          exact .inl ⟨y, hy, hu, ht, hx⟩
      | deleteToken userId id =>
        simp only [Write.tokenAt] at hy
        by_cases hk : k = id
        · rw [if_pos hk, Option.filter_eq_some_iff] at hy
          exact .inl ⟨y, hy.1, hu, ht, hx⟩
        · rw [if_neg hk] at hy
          exact .inl ⟨y, hy, hu, ht, hx⟩
      | deleteUser id =>
        simp only [Write.tokenAt, Option.filter_eq_some_iff] at hy
        exact .inl ⟨y, hy.1, hu, ht, hx⟩
      | _ => exact .inl ⟨y, hy, hu, ht, hx⟩
    · exact .inr ⟨y, List.mem_cons_of_mem w hy, hrest⟩

theorem tokens_congr {s t : Db} (h : s.tokens.get k = t.tokens.get k) :
    (applyAll s log).tokens.get k = (applyAll t log).tokens.get k := by
  induction log generalizing s t with
  | nil => exact h
  | cons w log ih => exact ih (by rw [get_tokens, get_tokens, h])

end

/-! ## Protection -/

/-- What a transaction that holds the keys `K` knows of a commit of another one. -/
structure Protected (K : List LockKey) (s s' : Db) : Prop where
  users : ∀ k, .user k ∈ K → s'.users.get k = s.users.get k
  usernames : ∀ k u, .username u.organizationId u.username ∈ K → s'.users.get k = some u →
    ∃ v, s.users.get k = some v ∧ v.organizationId = u.organizationId ∧ v.username = u.username
  profiles : ∀ k, .profile k ∈ K → s'.profiles.get k = s.profiles.get k
  assignments : ∀ k a, .assignment k ∈ K → s'.assignments.get k = some a → s.assignments.get k = some a
  invitations : ∀ k, .invitation k ∈ K → s'.invitations.get k = s.invitations.get k
  openInvitations : ∀ k x, .openInvitation x.organizationId x.email ∈ K →
    s'.invitations.get k = some x → x.isOpen = true →
    s.invitations.get k = some x
  invitationHashes : ∀ k x, .invitationHash x.tokenHash ∈ K → s'.invitations.get k = some x →
    ∃ y, s.invitations.get k = some y ∧ y.tokenHash = x.tokenHash
  tokens : ∀ k t, .token k ∈ K → .user t.userId ∈ K → s.tokens.get k = some t → s'.tokens.get k = some t
  openTokens : ∀ k x, .openToken x.userId ∈ K → s'.tokens.get k = some x → x.isOpen = true →
    s.tokens.get k = some x
  tokenHashes : ∀ k x, .tokenHash x.tokenHash ∈ K → s'.tokens.get k = some x →
    ∃ y, s.tokens.get k = some y ∧ y.tokenHash = x.tokenHash

namespace Protected

variable {K : List LockKey} {s t u : Db}

theorem refl (K : List LockKey) (s : Db) : Protected K s s where
  users _ _ := rfl
  usernames _ u _ h := ⟨u, h, rfl, rfl⟩
  profiles _ _ := rfl
  assignments _ _ _ h := h
  invitations _ _ := rfl
  openInvitations _ _ _ h _ := h
  invitationHashes _ x _ h := ⟨x, h, rfl⟩
  tokens _ _ _ _ h := h
  openTokens _ _ _ h _ := h
  tokenHashes _ x _ h := ⟨x, h, rfl⟩

theorem trans (h : Protected K s t) (h' : Protected K t u) : Protected K s u where
  users k hk := (h'.users k hk).trans (h.users k hk)
  usernames k u hk hu := by
    obtain ⟨v, hv, ho, hn⟩ := h'.usernames k u hk hu
    obtain ⟨w, hw, ho', hn'⟩ := h.usernames k v (by rw [ho, hn]; exact hk) hv
    exact ⟨w, hw, ho'.trans ho, hn'.trans hn⟩
  profiles k hk := (h'.profiles k hk).trans (h.profiles k hk)
  assignments k a hk ha := h.assignments k a hk (h'.assignments k a hk ha)
  invitations k hk := (h'.invitations k hk).trans (h.invitations k hk)
  openInvitations k x hk hx ho := h.openInvitations k x hk (h'.openInvitations k x hk hx ho) ho
  invitationHashes k x hk hx := by
    obtain ⟨y, hy, hyx⟩ := h'.invitationHashes k x hk hx
    obtain ⟨z, hz, hzy⟩ := h.invitationHashes k y (by rw [hyx]; exact hk) hy
    exact ⟨z, hz, hzy.trans hyx⟩
  tokens k x hk hu hx := h'.tokens k x hk hu (h.tokens k x hk hu hx)
  openTokens k x hk hx ho := h.openTokens k x hk (h'.openTokens k x hk hx ho) ho
  tokenHashes k x hk hx := by
    obtain ⟨y, hy, hyx⟩ := h'.tokenHashes k x hk hx
    obtain ⟨z, hz, hzy⟩ := h.tokenHashes k y (by rw [hyx]; exact hk) hy
    exact ⟨z, hz, hzy.trans hyx⟩

theorem mono {K' : List LockKey} (hK : ∀ k ∈ K, k ∈ K') (h : Protected K' s t) : Protected K s t where
  users k hk := h.users k (hK _ hk)
  usernames k u hk := h.usernames k u (hK _ hk)
  profiles k hk := h.profiles k (hK _ hk)
  assignments k a hk := h.assignments k a (hK _ hk)
  invitations k hk := h.invitations k (hK _ hk)
  openInvitations k x hk := h.openInvitations k x (hK _ hk)
  invitationHashes k x hk := h.invitationHashes k x (hK _ hk)
  tokens k x hk hu := h.tokens k x (hK _ hk) (hK _ hu)
  openTokens k x hk := h.openTokens k x (hK _ hk)
  tokenHashes k x hk := h.tokenHashes k x (hK _ hk)

theorem of_unlocked {log : List Write} (h : ∀ w ∈ log, ∀ k ∈ w.keys, k ∉ K) :
    Protected K s (applyAll s log) where
  users k hk := users_unlocked fun w hw hkw => h w hw _ hkw hk
  usernames k u hk hu := by
    rcases user_origin hu with ⟨v, hv, ho, hn⟩ | ⟨v, hv, ho, hn⟩
    · exact ⟨v, hv, ho, hn⟩
    · exact absurd hk (h _ hv _ (by simp [Write.keys, User.keys, ho, hn]))
  profiles k hk := profiles_unlocked fun w hw hkw => h w hw _ hkw hk
  assignments k a hk ha := assignments_unlocked (fun w hw hkw => h w hw _ hkw hk) ha
  invitations k hk := invitations_unlocked fun w hw hkw => h w hw _ hkw hk
  openInvitations k x hk hx ho := by
    rcases invitation_origin hx with ⟨y, hy, _, _, _, hyx⟩ | ⟨y, hy, _, horg, hemail, _, _⟩
    · rw [hy, hyx ho]
    · exact absurd hk (h _ hy _ (by simp [Write.keys, StaffInvitation.keys, horg, hemail]))
  invitationHashes k x hk hx := by
    rcases invitation_origin hx with ⟨y, hy, _, _, hyx, _⟩ | ⟨y, hy, _, _, _, hyx, _⟩
    · exact ⟨y, hy, hyx⟩
    · exact absurd hk (h _ hy _ (by simp [Write.keys, StaffInvitation.keys, hyx]))
  tokens k x hk hu hx := tokens_unlocked (fun w hw hkw => h w hw _ hkw hk)
    (fun w hw hkw => h w hw _ hkw hu) hx
  openTokens k x hk hx ho := by
    rcases token_origin hx with ⟨y, hy, _, _, hyx⟩ | ⟨y, hy, _, hu, _, _⟩
    · rw [hy, hyx ho]
    · exact absurd hk (h _ hy _ (by simp [Write.keys, PasswordResetToken.keys, hu]))
  tokenHashes k x hk hx := by
    rcases token_origin hx with ⟨y, hy, _, hyx, _⟩ | ⟨y, hy, _, _, hyx, _⟩
    · exact ⟨y, hy, hyx⟩
    · exact absurd hk (h _ hy _ (by simp [Write.keys, PasswordResetToken.keys, hyx]))

end Protected

/-! ## Rows of a statement -/

section
variable {α : Type} {key : α → String} {p : α → Bool} {found : List α} {t : Table key} {r : α}

theorem again_keys_nodup (hn : (found.map key).Nodup) : ((again p found t).map key).Nodup := by
  have hkeys : ∀ l : List α, (((l.filterMap fun r => t.get (key r)).filter p).map key).Sublist
      (l.map key) := by
    intro l
    refine (List.filter_sublist.map key).trans ?_
    induction l with
    | nil => simp
    | cons x l ih =>
      cases hx : t.get (key x) with
      | none => simpa [hx] using ih.cons (key x)
      | some y => simpa [hx, Table.key_get hx] using ih
  exact (hkeys found).nodup hn

theorem again_nodup {t' : Table key} {q : α → Bool} : ((again p (t'.rows.filter q) t).map key).Nodup :=
  again_keys_nodup (Table.filter_nodup t' q)

theorem mem_again (hr : r ∈ again p found t) :
    t.get (key r) = some r ∧ p r = true ∧ ∃ x ∈ found, key x = key r := by
  obtain ⟨hm, hp⟩ := List.mem_filter.mp hr
  obtain ⟨x, hx, hget⟩ := List.mem_filterMap.mp hm
  exact ⟨Table.get_of_mem (Table.mem_of_get hget), hp, x, hx, (Table.key_get hget).symm⟩

theorem again_unique {t' : Table key} {q : α → Bool}
    (hu : ∀ x y, t'.get (key x) = some x → t'.get (key y) = some y → q x = true → q y = true →
      key x = key y) :
    again p (t'.rows.filter q) t = [] ∨ ∃ x, again p (t'.rows.filter q) t = [x] := by
  cases hf : t'.rows.filter q with
  | nil => exact .inl rfl
  | cons y ys =>
    have hq : ∀ x ∈ y :: ys, t'.get (key x) = some x ∧ q x = true := by
      intro x hx
      rw [← hf, List.mem_filter] at hx
      exact ⟨Table.get_of_mem hx.1, hx.2⟩
    have hy := hq y List.mem_cons_self
    have hkey : ∀ x ∈ again p (y :: ys) t, key x = key y := by
      intro x hx
      obtain ⟨_, _, z, hz, hzx⟩ := mem_again hx
      rw [← hzx]
      exact hu z y (hq z hz).1 hy.1 (hq z hz).2 hy.2
    rcases Table.at_most_one (hf ▸ again_nodup) hkey with h | ⟨x, h, _⟩
    · exact .inl h
    · exact .inr ⟨x, h⟩

end

/-! ## Statements -/

section
variable {Rely : List LockKey → Db → Db → Prop} {Inv : Db → Prop} {α β γ : Type}
    {Q : β → List LockKey → List Write → Db → Prop} {held : List LockKey} {log : List Write}
    {s : Db} {f : α → Action β}

theorem wp_query {q : Db → α}
    (h : ∀ s', Rely held s s' → Inv s' → (f (q (applyAll s' log))).wp Rely Inv Q held log s') :
    (query .readCommitted q >>= f).wp Rely Inv Q held log s := by
  intro s' hr hi
  rw [List.append_nil]
  exact h s' hr hi

theorem wp_lock {ks : List LockKey} {f : Unit → Action β}
    (h : ∀ s', Rely held s s' → Inv s' → (f ()).wp Rely Inv Q (ks ++ held) log s') :
    (Prog.lock ks >>= f).wp Rely Inv Q held log s := by
  intro s' hr hi
  rw [List.append_nil]
  have hks : Machine.needs (fun _ : Db => ks) (fun _ => ([] : List Write)) (applyAll s' log) = ks :=
    List.append_nil ks
  rw [hks]
  exact h s' hr hi

theorem wp_beginRepeatableRead {f : Isolation → Action β}
    (h : ∀ s', Rely held s s' → Inv s' →
      (f (.repeatableRead (applyAll s' log))).wp Rely Inv Q held log s') :
    (beginRepeatableRead >>= f).wp Rely Inv Q held log s := by
  intro s' hr hi
  rw [List.append_nil]
  exact h s' hr hi

theorem wp_insert {w : Write} {check : Db → Option AccountError} {f : Unit → Action β}
    (h : ∀ s', Rely held s s' → Inv s' → check (applyAll s' log) = none →
      (f ()).wp Rely Inv Q (w.keys ++ w.keys ++ held) (log ++ [w]) s') :
    (insertRow w check >>= f).wp Rely Inv Q held log s := by
  intro s' hr hi
  cases hc : check (applyAll s' log) with
  | some e => simp only [hc]; exact trivial
  | none =>
    have hnext := h s' hr hi hc
    simp only [Machine.needs, hc, Option.isNone_none, if_true, List.flatMap_cons, List.flatMap_nil,
      List.append_nil]
    exact hnext

section
variable [DecidableEq α] {key : α → String} {table : Db → Table key} {rowKeys : α → List LockKey}
    {p : Db → α → Bool} {write : α → List Write} {check : Db → List α → Option AccountError}
    {f : List α → Action β}

/-- A READ COMMITTED statement: the rows are found in one state and looked at again in another. -/
theorem wp_modify (h : ∀ s₁, Rely held s s₁ → Inv s₁ → ∀ s₂, Rely held s₁ s₂ → Inv s₂ →
      ∀ found rows, found = (table (applyAll s₁ log)).rows.filter (p (applyAll s₁ log)) →
      rows = again (p (applyAll s₂ log)) found (table (applyAll s₂ log)) →
      check (applyAll s₂ log) rows = none →
      (f rows).wp Rely Inv Q (found.flatMap rowKeys ++ (rows.flatMap write).flatMap Write.keys ++
          held) (log ++ rows.flatMap write) s₂) :
    (modifyRows table .readCommitted rowKeys p write check >>= f).wp Rely Inv Q held log s := by
  intro s₁ hr₁ hi₁ s₂ hr₂ hi₂
  simp only [List.append_nil]
  cases hc : check (applyAll s₂ log)
      (again (p (applyAll s₂ log)) ((table (applyAll s₁ log)).rows.filter (p (applyAll s₁ log)))
      (table (applyAll s₂ log))) with
  | some e => simp only [id, hc, Isolation.isRepeatable, Bool.false_eq_true, false_and,
      if_false]; exact trivial
  | none =>
    simp only [id, hc, Isolation.isRepeatable, Bool.false_eq_true, false_and, if_false]
    exact h s₁ hr₁ hi₁ s₂ hr₂ hi₂ _ _ rfl rfl hc

/-- A REPEATABLE READ statement: the rows found in the snapshot have not changed. -/
theorem wp_modify_repeatable {snap : Db}
    (h : ∀ s', Rely held s s' → Inv s' → ∀ found rows, found = (table snap).rows.filter (p snap) →
      (∀ r ∈ found, (table (applyAll s' log)).get (key r) = some r) →
      rows = found.filter (p (applyAll s' log)) → check (applyAll s' log) rows = none →
      (f rows).wp Rely Inv Q (found.flatMap rowKeys ++ (rows.flatMap write).flatMap Write.keys ++
          held) (log ++ rows.flatMap write) s') :
    (modifyRows table (.repeatableRead snap) rowKeys p write check >>= f).wp Rely Inv Q held log s := by
  intro s' hr hi
  by_cases hsame : ∀ r ∈ (table snap).rows.filter (p snap), (table (applyAll s' log)).get
    (key r) = some r
  · have hagain : again (p (applyAll s' log)) ((table snap).rows.filter (p snap))
        (table (applyAll s' log)) =
        ((table snap).rows.filter (p snap)).filter (p (applyAll s' log)) := by
      rw [again, List.filterMap_congr hsame, List.filterMap_some]
    have hfalse : ¬ ((Isolation.repeatableRead snap).isRepeatable = true ∧
        ∃ r ∈ (table snap).rows.filter (p snap), (table (applyAll s' log)).get (key r) ≠ some r) := by
      intro ⟨_, r, hr, hne⟩
      exact hne (hsame r hr)
    cases hc : check (applyAll s' log) (((table snap).rows.filter (p snap)).filter
        (p (applyAll s' log))) with
    | some e => simp only [hagain, hc, if_neg hfalse]; exact trivial
    | none =>
      simp only [Machine.needs, hagain, hc, if_neg hfalse]
      exact h s' hr hi _ _ rfl hsame rfl hc
  · have htrue : (Isolation.repeatableRead snap).isRepeatable = true ∧
        ∃ r ∈ (table snap).rows.filter (p snap), (table (applyAll s' log)).get (key r) ≠ some r := by
      refine ⟨rfl, ?_⟩
      by_contra hne
      apply hsame
      intro r hr
      by_contra h
      exact hne ⟨r, hr, h⟩
    simp only [if_pos htrue]
    exact trivial

end

/-! ## Repository operations -/

section
variable {p : StaffInvitation → Bool} {patch : InvitationPatch} {f : Option StaffInvitation → Action β}

theorem wp_updateInvitations (h : ∀ s₁, Rely held s s₁ → Inv s₁ → ∀ s₂, Rely held s₁ s₂ → Inv s₂ →
      ∀ found rows, found = (applyAll s₁ log).invitations.rows.filter p →
      rows = again p found (applyAll s₂ log).invitations →
      (f (rows.head?.map patch.set)).wp Rely Inv Q
        (found.flatMap StaffInvitation.keys ++
          (rows.flatMap fun i => [Write.updateInvitation i.id patch]).flatMap Write.keys ++ held)
        (log ++ rows.flatMap fun i => [.updateInvitation i.id patch]) s₂) :
    (updateInvitations .readCommitted p patch >>= f).wp Rely Inv Q held log s := by
  rw [updateInvitations, Prog.bind_assoc]
  exact wp_modify fun s₁ hr₁ hi₁ s₂ hr₂ hi₂ found rows hf hr _ =>
    h s₁ hr₁ hi₁ s₂ hr₂ hi₂ found rows hf hr

theorem wp_updateInvitations_repeatable {snap : Db}
    (h : ∀ s', Rely held s s' → Inv s' → ∀ found, found = snap.invitations.rows.filter p →
      (∀ i ∈ found, (applyAll s' log).invitations.get i.id = some i) →
      (f (found.head?.map patch.set)).wp Rely Inv Q
        (found.flatMap StaffInvitation.keys ++
          (found.flatMap fun i => [Write.updateInvitation i.id patch]).flatMap Write.keys ++ held)
        (log ++ found.flatMap fun i => [.updateInvitation i.id patch]) s') :
    (updateInvitations (.repeatableRead snap) p patch >>= f).wp Rely Inv Q held log s := by
  rw [updateInvitations, Prog.bind_assoc]
  refine wp_modify_repeatable fun s' hr hi found rows hf hsame hrows _ => ?_
  have hrows : rows = found := by rw [hrows, hf, List.filter_filter]; simp
  rw [hrows]
  exact h s' hr hi found hf hsame

end

theorem wp_createUnique {ctx : Context} {u : User} {f : Unit → Action β}
    (h : ∀ s₁, Rely held s s₁ → Inv s₁ → ∀ s₂, Rely held s₁ s₂ → Inv s₂ →
      userConflict u (applyAll s₂ log) = none → (f ()).wp Rely Inv Q (u.keys ++ u.keys ++ held)
        (log ++ [.insertUser u]) s₂) :
    (createUnique .readCommitted ctx u >>= f).wp Rely Inv Q held log s := by
  rw [createUnique, Prog.bind_assoc]
  apply wp_query
  intro s₁ hr₁ hi₁
  split
  · exact trivial
  · refine wp_insert fun s₂ hr₂ hi₂ hc => ?_
    exact h s₁ hr₁ hi₁ s₂ hr₂ hi₂ (Option.map_eq_none_iff.mp hc)

theorem wp_createUnique_repeatable {snap : Db} {ctx : Context} {u : User} {f : Unit → Action β}
    (h : ∀ s', Rely held s s' → Inv s' → userConflict u (applyAll s' log) = none →
      (f ()).wp Rely Inv Q (u.keys ++ u.keys ++ held) (log ++ [.insertUser u]) s') :
    (createUnique (.repeatableRead snap) ctx u >>= f).wp Rely Inv Q held log s := by
  have hquery : createUnique (.repeatableRead snap) ctx u =
      if (snap.users.rows.find? fun v => v.organizationId = ctx.organizationId ∧
        v.username = u.username).isSome then
        .fail .userAlreadyExists
      else insertRow (.insertUser u) fun db => (userConflict u db).map usernameTaken := rfl
  rw [hquery]
  split
  · exact trivial
  · exact wp_insert fun s' hr hi hc => h s' hr hi (Option.map_eq_none_iff.mp hc)

theorem wp_insertAssignment {a : UserRoleAssignment} {f : UserRoleAssignment → Action β}
    (h : ∀ s', Rely held s s' → Inv s' → assignmentConflict a (applyAll s' log) = none →
      (f a).wp Rely Inv Q (a.keys ++ a.keys ++ held) (log ++ [.insertAssignment a]) s') :
    (insertAssignment a >>= f).wp Rely Inv Q held log s := by
  rw [insertAssignment, Prog.bind_assoc]
  exact wp_insert h

theorem wp_updateAssignments {p : UserRoleAssignment → Bool} {patch : AssignmentPatch}
    {f : Option UserRoleAssignment → Action β}
    (h : ∀ s₁, Rely held s s₁ → Inv s₁ → ∀ s₂, Rely held s₁ s₂ → Inv s₂ →
      ∀ found rows, found = (applyAll s₁ log).assignments.rows.filter p →
      rows = again p found (applyAll s₂ log).assignments →
      (f (rows.head?.map patch.set)).wp Rely Inv Q
        (found.flatMap UserRoleAssignment.keys ++
          (rows.flatMap fun a => [Write.updateAssignment a.userId a.id patch]).flatMap Write.keys ++
          held) (log ++ rows.flatMap fun a => [.updateAssignment a.userId a.id patch]) s₂) :
    (updateAssignments .readCommitted p patch >>= f).wp Rely Inv Q held log s := by
  rw [updateAssignments, Prog.bind_assoc]
  exact wp_modify fun s₁ hr₁ hi₁ s₂ hr₂ hi₂ found rows hf hr _ =>
    h s₁ hr₁ hi₁ s₂ hr₂ hi₂ found rows hf hr

/-! ## The seams -/

section
variable {ctx : Context} {f : Unit → Action β}

theorem wp_exclusion (h : ∀ s', Rely held s s' → Inv s' → findAdminMaintainerExclusionViolations ctx
        (applyAll s' log) = [] → (f ()).wp Rely Inv Q held log s') :
    (checkAdminMaintainerExclusion ctx >>= f).wp Rely Inv Q held log s := by
  rw [checkAdminMaintainerExclusion, Prog.bind_assoc]
  apply wp_query
  intro s' hr hi
  cases hv : (findAdminMaintainerExclusionViolations ctx (applyAll s' log)).argmin (·.userId) with
  | some v => exact trivial
  | none => exact h s' hr hi (List.argmin_eq_none.mp hv)

theorem wp_effectiveAdmin (h : ∀ s', Rely held s s' → Inv s' →
      countEffectiveActiveUsersWithRole ctx .admin (applyAll s' log) ≠ 0 →
      (f ()).wp Rely Inv Q held log s') :
    (checkEffectiveAdmin ctx >>= f).wp Rely Inv Q held log s := by
  rw [checkEffectiveAdmin, Prog.bind_assoc]
  apply wp_query
  intro s' hr hi
  by_cases hc : countEffectiveActiveUsersWithRole ctx .admin (applyAll s' log) = 0
  · rw [if_pos hc]
    exact trivial
  · rw [if_neg hc]
    exact h s' hr hi hc

end

section
variable {ctx : Context} {mutate : Action α}

theorem wp_authorityInvariants (h : ∀ s', Rely held s s' → Inv s' →
      (mutate >>= fun r => checkAdminMaintainerExclusion ctx >>= fun _ => f r).wp Rely Inv Q
        ([.authority ctx.organizationId] ++ held) log s') :
    (mutateWithAuthorityInvariants ctx mutate >>= f).wp Rely Inv Q held log s := by
  rw [mutateWithAuthorityInvariants, Prog.bind_assoc]
  refine wp_lock fun s' hr hi => ?_
  simp only [Prog.bind_assoc]
  exact h s' hr hi

theorem wp_effectiveAdminPostcondition (h : ∀ s', Rely held s s' → Inv s' →
      (mutate >>= fun r => checkAdminMaintainerExclusion ctx >>= fun _ => checkEffectiveAdmin
          ctx >>= fun _ => f r).wp Rely Inv Q ([.authority ctx.organizationId] ++ held) log s') :
    (mutateWithEffectiveAdminPostcondition ctx mutate >>= f).wp Rely Inv Q held log s := by
  rw [mutateWithEffectiveAdminPostcondition, Prog.bind_assoc]
  refine wp_lock fun s' hr hi => ?_
  simp only [Prog.bind_assoc]
  exact h s' hr hi

end

end

end ExamSystem.Accounts
