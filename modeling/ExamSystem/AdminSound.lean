import ExamSystem.AdminBudgets

/-!
# Admin safety

Every command that changes authority holds the advisory lock of its organization
from before its first write to its commit, and checks under it. The one command
that changes activity without the lock is the update of a candidate: the runs in
which it leaves Admins and Maintainers alone are safe.
-/

namespace ExamSystem.Accounts

open Interleaving

/-! ## What the others leave -/

/-- What a transaction that holds the keys `K` knows of a commit of another one. -/
structure Guarded (o : String) (K : List LockKey) (s s' : Db) : Prop where
  rows : Protected K s s'
  profiles : ∀ k p, s.profiles.get k = some p → s'.profiles.get k = some p
  fenced : .authority o ∈ K → Fenced o s s'

theorem Guarded.refl (o : String) (K : List LockKey) (s : Db) : Guarded o K s s :=
  ⟨.refl K s, fun _ _ h => h, fun _ => .refl o s⟩

theorem Guarded.trans {o : String} {K : List LockKey} {s t u : Db} (h : Guarded o K s t)
    (h' : Guarded o K t u) : Guarded o K s u :=
  ⟨h.rows.trans h'.rows, fun k p hp => h'.profiles k p (h.profiles k p hp),
    fun hk => (h.fenced hk).trans (h'.fenced hk)⟩

def SafeStore (o : String) (db : Db) : Prop := Coherent db ∧ AdminSafe o db

/-- A check of the transaction found `P` in its view, under the lock. -/
def Saw (o : String) (P : Db → Prop) (held : List LockKey) (log : List Write) (s : Db) : Prop :=
  ∃ s₁, s₁.intact = true ∧ Guarded o held s₁ s ∧ P (applyAll s₁ log)

theorem Saw.stable {o : String} {P : Db → Prop} {held : List LockKey} {log : List Write} {s s' : Db}
    (h : Saw o P held log s) (hg : Guarded o held s s') : Saw o P held log s' := by
  obtain ⟨s₁, hi, h₁, hp⟩ := h
  exact ⟨s₁, hi, h₁.trans hg, hp⟩

def Ends {α : Type} (p : Action α) : Prop := (∃ a, p = .done a) ∨ ∃ e, p = .fail e

section
variable {ctx : Context} {α β : Type} {held : List LockKey} {log : List Write} {s : Db}
    {mutate : Action α} {f : α → Action β}

theorem wp_ends {o : String} {Q : List LockKey → List Write → Db → Prop} {p : Action β} (h : Ends p)
    (hq : ∀ s', Guarded o held s s' → Q held log s') :
    p.wp (Guarded o) (SafeStore o) (fun _ held log s => Q held log s) held log s := by
  rcases h with ⟨a, rfl⟩ | ⟨e, rfl⟩
  · exact fun s' hr _ => hq s' hr
  · exact trivial

/-- The exclusion check ran under the lock, after the last write. -/
theorem wp_checked (hf : ∀ a, Ends (f a)) :
    (mutateWithAuthorityInvariants ctx mutate >>= f).wp (Guarded ctx.organizationId)
      (SafeStore ctx.organizationId)
      (fun _ held log s => .authority ctx.organizationId ∈ held ∧
        Saw ctx.organizationId (Exclusive ctx.organizationId) held log s)
      held log s := by
  apply wp_authorityInvariants
  intro s₁ _ hs₁
  refine wp_bind (Guarded.refl _) hs₁
    (wp_mono ?_ (wp_keeps (P := fun held (_ : Db) => .authority ctx.organizationId ∈ held)
    (fun _ _ _ h _ => h) (fun _ _ _ hsub h => hsub _ h) List.mem_cons_self))
  intro a K L s₂ _ hlock
  apply wp_exclusion
  intro s₃ _ hs₃ hnone
  refine wp_ends (hf a) fun s₄ h₄ => ⟨hlock, s₃, hs₃.1.intact, h₄, exclusive_of_no_violation hnone⟩

theorem wp_counted (hf : ∀ a, Ends (f a)) {P : List LockKey → List Write → Prop}
    (hmutate : ∀ K s, .authority ctx.organizationId ∈ K → SafeStore ctx.organizationId s →
      mutate.wp (Guarded ctx.organizationId) (SafeStore ctx.organizationId)
        (fun _ held log _ => P held log) K log s) :
    (mutateWithEffectiveAdminPostcondition ctx mutate >>= f).wp (Guarded ctx.organizationId)
      (SafeStore ctx.organizationId)
      (fun _ held log s => .authority ctx.organizationId ∈ held ∧ P held log ∧
        Saw ctx.organizationId (Exclusive ctx.organizationId) held log s ∧
        Saw ctx.organizationId (HasAdmin ctx.organizationId) held log s)
      held log s := by
  apply wp_effectiveAdminPostcondition
  intro s₁ _ hs₁
  refine wp_bind (Guarded.refl _) hs₁
    (wp_mono ?_ (wp_and (wp_keeps (P := fun held (_ : Db) => .authority ctx.organizationId ∈ held)
    (fun _ _ _ h _ => h) (fun _ _ _ hsub h => hsub _ h) List.mem_cons_self)
      (hmutate _ s₁ List.mem_cons_self hs₁)))
  intro a K L s₂ _ ⟨hlock, hpost⟩
  apply wp_exclusion
  intro s₃ _ hs₃ hnone
  apply wp_effectiveAdmin
  intro s₄ h₄ hs₄ hcount
  have hexclusive : Saw ctx.organizationId (Exclusive ctx.organizationId) K L s₄ :=
    ⟨s₃, hs₃.1.intact, h₄, exclusive_of_no_violation hnone⟩
  refine wp_ends (hf a) fun s₅ h₅ => ⟨hlock, hpost, hexclusive.stable h₅, s₄, hs₄.1.intact, h₅,
    admin_of_count hcount⟩

end

/-! ## Inserted assignments -/

section
variable {ctx : Context} {β : Type} {held : List LockKey} {log : List Write} {s : Db}

theorem assignments_none_of_view {k : String}
    (hlog : ∀ w ∈ log, (∀ u i, w ≠ .deleteAssignment u i) ∧ ∀ u, w ≠ .deleteUser u)
    (h : (applyAll s log).assignments.get k = none) : s.assignments.get k = none := by
  by_contra hne
  obtain ⟨a, ha⟩ := Option.ne_none_iff_exists'.mp hne
  have hkeep : ∃ b, (applyAll s log).assignments.get k = some b := by
    refine applyAll_invariant (P := fun (t : Db) => ∃ b, t.assignments.get k = some b) ?_ ⟨a, ha⟩
    intro w hw t ⟨b, hb⟩
    rw [get_assignments, hb]
    cases w with
    | insertAssignment c =>
      by_cases hk : k = c.id
      · exact ⟨c, by simp [Write.assignmentAt, hk]⟩
      · exact ⟨b, by simp [Write.assignmentAt, hk]⟩
    | updateAssignment userId id patch =>
      by_cases hk : k = id
      · exact ⟨if b.userId = userId then patch.set b else b, by simp [Write.assignmentAt, hk]⟩
      · exact ⟨b, by simp [Write.assignmentAt, hk]⟩
    | deleteAssignment userId id => exact absurd rfl ((hlog _ hw).1 userId id)
    | deleteUser id => exact absurd rfl ((hlog _ hw).2 id)
    | _ => exact ⟨b, rfl⟩
  obtain ⟨b, hb⟩ := hkeep
  rw [h] at hb
  cases hb

theorem wp_insertAssignment_fresh {a : UserRoleAssignment} {f : UserRoleAssignment → Action β}
    (hlog : ∀ w ∈ log, (∀ u i, w ≠ .deleteAssignment u i) ∧ ∀ u, w ≠ .deleteUser u) :
    (insertAssignment a >>= f).wp Protected Coherent (fun _ _ _ s => s.assignments.get a.id = none)
      held log s := by
  apply wp_insertAssignment
  intro s' _ _ hconflict
  have hfree := assignments_none_of_view hlog (assignmentConflict_none hconflict)
  refine wp_mono (fun _ _ _ _ _ h => h.2)
    (wp_keeps (P := fun held (s : Db) => .assignment a.id ∈ held ∧ s.assignments.get a.id = none)
    ?_ ?_ ⟨?_, hfree⟩)
  · intro K t t' ⟨hk, ht⟩ hr
    refine ⟨hk, ?_⟩
    rw [Option.eq_none_iff_forall_ne_some]
    intro b hb
    rw [hr.assignments a.id b hk hb] at ht
    cases ht
  · exact fun K K' t hsub h => ⟨hsub _ h.1, h.2⟩
  · simp [UserRoleAssignment.keys]

theorem wp_assign_fresh {new : NewRow} {userId : String} {role : AssignableRole} {isPrimary : Bool}
    {f : UserRoleAssignment → Action β}
    (hlog : ∀ w ∈ log, (∀ u i, w ≠ .deleteAssignment u i) ∧ ∀ u, w ≠ .deleteUser u) :
    (assignWithinTransaction .readCommitted ctx new userId role isPrimary true >>= f).wp
      Protected Coherent (fun _ _ _ s => s.assignments.get new.id = none) held log s := by
  unfold assignWithinTransaction
  split
  · rw [Prog.bind_assoc]
    apply wp_updateAssignments
    intro s₁ _ _ s₂ _ _ found rows _ _
    refine wp_insertAssignment_fresh (a := newAssignment ctx new userId role isPrimary true) ?_
    intro w hw
    rcases List.mem_append.mp hw with hw | hw
    · exact hlog w hw
    · obtain ⟨a, _, hw⟩ := List.mem_flatMap.mp hw
      rw [List.mem_singleton.mp hw]
      simp
  · exact wp_insertAssignment_fresh (a := newAssignment ctx new userId role isPrimary true) hlog

end

theorem createUser_fresh (ctx : Context) (id : String) (new : NewRow) (data : CreateUser) (s : Db) :
    (createUser ctx id new data).wp Protected Coherent
      (fun _ _ _ s => s.assignments.get new.id = none) [] [] s := by
  apply wp_authorityInvariants
  intro s₁ _ _
  simp only [Prog.bind_assoc]
  apply wp_createUnique
  intro s₂ _ _ s₃ _ _ _
  exact wp_assign_fresh (by simp)

theorem assignRole_fresh (ctx : Context) (new : NewRow) (id : String) (role : AssignableRole)
    (isPrimary : Bool) (s : Db) :
    (assignRole ctx new id role isPrimary).wp Protected Coherent (fun _ _ log s => log = [] ∨
      s.assignments.get new.id = none) [] [] s := by
  apply wp_query
  intro s₁ _ _
  split
  · exact fun _ _ _ => .inl rfl
  · apply wp_authorityInvariants
    intro s₂ _ _
    simp only [Prog.bind_assoc]
    exact wp_mono (fun _ _ _ _ _ h => .inr h) (wp_assign_fresh (by simp))

/-! ## The commands on candidates -/

theorem profiles_untouched {s : Db} {log : List Write} (h : ∀ p, .insertProfile p ∉ log) (k : String) :
    (applyAll s log).profiles.get k = s.profiles.get k := by
  refine applyAll_invariant (P := fun (t : Db) => t.profiles.get k = s.profiles.get k) ?_ rfl
  intro w hw t ht
  rw [get_profiles, ht]
  cases w with
  | insertProfile p => exact absurd hw (h p)
  | _ => rfl

theorem user_free_stable {id : String} {K : List LockKey} {s s' : Db}
    (h : .user id ∈ K ∧ s.users.get id = none) (hr : Protected K s s') :
    .user id ∈ K ∧ s'.users.get id = none := ⟨h.1, (hr.users id h.1).trans h.2⟩

theorem assignment_free_stable {id : String} {K : List LockKey} {s s' : Db}
    (h : .assignment id ∈ K ∧ s.assignments.get id = none) (hr : Protected K s s') :
    .assignment id ∈ K ∧ s'.assignments.get id = none := by
  refine ⟨h.1, ?_⟩
  rw [Option.eq_none_iff_forall_ne_some]
  intro a ha
  have := hr.assignments id a h.1 ha
  rw [h.2] at this
  cases this

theorem profileConflict_none {p : CandidateProfile} {db : Db} (h : profileConflict p db = none) :
    db.profiles.get p.id = none := by
  unfold profileConflict at h
  split at h
  · cases h
  case isFalse hid => simpa using hid

theorem createCandidate_fresh (ctx : Context) (id : String) (new : NewRow) (profileId : String)
    (data : CreateCandidate) (s : Db) :
    (createCandidate ctx id new profileId data).wp Protected Coherent
      (fun _ _ _ s => s.users.get id = none ∧ s.assignments.get new.id = none ∧
        s.profiles.get profileId = none) [] [] s := by
  apply wp_beginRepeatableRead
  intro s₁ _ _
  refine wp_createUnique_repeatable fun s₂ _ hc₂ hconflict => ?_
  rw [assignWithinTransaction, if_pos (show (true && true) = true from rfl), Prog.bind_assoc]
  refine wp_past (P := fun w => ((∀ u i, w ≠ .deleteAssignment u i) ∧ ∀ u, w ≠ .deleteUser u) ∧
    ∀ p, w ≠ .insertProfile p)
    (A := fun K s => .user id ∈ K ∧ s.users.get id = none) Protected.refl hc₂
      (fun _ _ _ => user_free_stable)
    (fun _ _ _ hsub h => ⟨hsub _ h.1, h.2⟩) (emits_updateAssignments fun _ _ => by simp) (by simp)
    ⟨by simp [User.keys], (userConflict_none hconflict).1⟩ fun _ K L s₃ _ hfree hlog => ?_
  apply wp_insertAssignment
  intro s₄ h₄ _ hinsert
  have hassignment : s₄.assignments.get new.id = none :=
    assignments_none_of_view (fun w hw => (hlog w hw).1) (assignmentConflict_none hinsert)
  refine wp_insert fun s₅ h₅ _ hprofile => ?_
  have hprofile : s₅.profiles.get profileId = none := by
    have hview := profileConflict_none hprofile
    rw [profiles_untouched] at hview
    · exact hview
    · intro p hp
      rcases List.mem_append.mp hp with hp | hp
      · exact (hlog _ hp).2 p rfl
      · simp at hp
  intro s₆ h₆ _
  have hfree₄ := user_free_stable hfree h₄
  have hfree₅ := user_free_stable ⟨List.mem_append_right _ hfree₄.1, hfree₄.2⟩ h₅
  have hassignment₅ := assignment_free_stable ⟨by simp [UserRoleAssignment.keys, newAssignment],
    hassignment⟩ h₅
  refine ⟨(user_free_stable ⟨List.mem_append_right _ hfree₅.1, hfree₅.2⟩ h₆).2,
    (assignment_free_stable ⟨List.mem_append_right _ hassignment₅.1, hassignment₅.2⟩ h₆).2, ?_⟩
  rw [h₆.profiles profileId (by simp [Write.keys, CandidateProfile.keys])]
  exact hprofile

/-- An update of a candidate writes at most the user of its profile. -/
theorem updateCandidate_writes {o : String} (ctx : Context) (id : String)
    (data : UpdateCandidate) (s : Db) :
    (updateCandidate ctx id data).wp (Guarded o) (SafeStore o)
      (fun _ _ log s => log = [] ∨ ∃ p, s.profiles.get id = some p ∧
        log = [.updateUser p.userId
          { name := data.name, isActive := data.isActive, email := data.email }]) [] [] s := by
  apply wp_query
  intro s₁ _ _
  cases hp : ((applyAll s₁ ([] : List Write)).profiles.get id).filter fun p =>
    p.organizationId = ctx.organizationId with
  | none => exact fun _ _ _ => .inl rfl
  | some p =>
    have hprofile : s₁.profiles.get id = some p := (Option.filter_eq_some_iff.mp hp).1
    apply wp_beginRepeatableRead
    intro s₂ h₂ _
    dsimp only
    split
    · rw [updateUser, updateUsers, Prog.bind_assoc]
      refine wp_modify_repeatable fun s₃ h₃ _ found rows hfound _ hrows _ => ?_
      intro s₄ h₄ _
      have hkept := h₄.profiles id p (h₃.profiles id p (h₂.profiles id p hprofile))
      have hid : ∀ u ∈ rows, u.id = p.userId := by
        intro u hu
        rw [hrows] at hu
        exact ofUser_id (List.mem_filter.mp hu).2
      have hn : (rows.map User.id).Nodup := by
        rw [hrows, hfound]
        exact (List.filter_sublist.map User.id).nodup (Table.filter_nodup _ _)
      rcases Table.at_most_one hn hid with rfl | ⟨u, rfl, hu⟩
      · exact .inl rfl
      · exact .inr ⟨p, hkept, by simp [hu]⟩
    · exact fun _ _ _ => .inl rfl

/-! ## Activations of an update of a user -/

def Owned (held : List LockKey) (log : List Write) : Prop :=
  ∀ w ∈ log, ∀ i k, w.activates = some (i, k) → .user k ∈ held

def Write.activatesOnly (w : Write) (userId : String) : Prop :=
  ∀ i k, w.activates = some (i, k) → k = userId

theorem owned_of_inactive {o : String} {α : Type} {mutate : Action α} {held : List LockKey} {s : Db}
    (h : Inactive mutate) :
    mutate.wp (Guarded o) (SafeStore o) (fun _ held log _ => Owned held log) held [] s := by
  refine wp_mono (fun _ held log _ _ hp => ?_) (wp_emits h (by simp) (wp_true mutate))
  intro w hw i k hact
  rw [hp.2 w hw] at hact
  cases hact

section
variable {ctx : Context} {β : Type} {held : List LockKey} {log : List Write} {s : Db} {userId : String}
  {Q : β → List LockKey → List Write → Db → Prop}

def OwnsUser (o userId : String) (held : List LockKey) : Prop := .authority o ∈ held ∧
    .user userId ∈ held

theorem wp_quiet {α : Type} {p : Action α} {f : α → Action β} (hs : SafeStore ctx.organizationId s)
    (hp : Inactive p) (ha : OwnsUser ctx.organizationId userId held)
    (hl : ∀ w ∈ log, w.activatesOnly userId)
    (h : ∀ a K L s', SafeStore ctx.organizationId s' → OwnsUser ctx.organizationId userId K →
      (∀ w ∈ L, w.activatesOnly userId) → (f a).wp (Guarded ctx.organizationId)
        (SafeStore ctx.organizationId) Q K L s') :
    (p >>= f).wp (Guarded ctx.organizationId) (SafeStore ctx.organizationId) Q held log s := by
  refine wp_past (P := fun w => w.activatesOnly userId)
    (A := fun K (_ : Db) => OwnsUser ctx.organizationId userId K) (Guarded.refl _)
    hs (fun _ _ _ h _ => h) (fun _ _ _ hsub h => ⟨hsub _ h.1, hsub _ h.2⟩)
      (Prog.emits_imp ?_ hp) hl ha h
  intro w hw i k hact
  rw [hw] at hact
  cases hact

theorem wp_ensurePrimary {new : NewRow} {role : AssignableRole}
    {f : Option UserRoleAssignment → Action β} (hs : SafeStore ctx.organizationId s)
    (ha : OwnsUser ctx.organizationId userId held) (hl : ∀ w ∈ log, w.activatesOnly userId)
    (h : ∀ a K L s', SafeStore ctx.organizationId s' → OwnsUser ctx.organizationId userId K →
      (∀ w ∈ L, w.activatesOnly userId) → (f a).wp (Guarded ctx.organizationId)
        (SafeStore ctx.organizationId) Q K L s') :
    (ensurePrimaryAssignmentWithinTransaction .readCommitted ctx new userId role >>= f).wp
      (Guarded ctx.organizationId) (SafeStore ctx.organizationId) Q held log s := by
  rw [ensurePrimaryAssignmentWithinTransaction, Prog.bind_assoc]
  refine wp_quiet hs inactive_demote ha hl fun _ K L s₁ hs₁ hK hL => ?_
  rw [Prog.bind_assoc]
  apply wp_query
  intro s₂ _ hs₂
  cases he : (applyAll s₂ L).assignments.rows.find? fun a =>
    ofAssignee ctx userId a && a.role = role with
  | none =>
    rw [Prog.bind_assoc]
    apply wp_insertAssignment
    intro s₃ _ hs₃ _
    refine h _ _ _ s₃ hs₃ ⟨List.mem_append_right _ hK.1, List.mem_append_right _ hK.2⟩ ?_
    intro w hw
    rcases List.mem_append.mp hw with hw | hw
    · exact hL w hw
    · rw [List.mem_singleton.mp hw]
      intro i k hact
      simp only [Write.activates, newAssignment, if_true, Option.some.injEq, Prod.mk.injEq] at hact
      exact hact.2.symm
  | some e =>
    obtain ⟨hget, hof⟩ := Table.find_eq_some he
    apply wp_updateAssignments
    intro s₃ h₃ _ s₄ h₄ hs₄ found rows _ hrows
    refine h _ _ _ s₄ hs₄ ⟨List.mem_append_right _ hK.1, List.mem_append_right _ hK.2⟩ ?_
    intro w hw
    rcases List.mem_append.mp hw with hw | hw
    · exact hL w hw
    · obtain ⟨a, ha, hw⟩ := List.mem_flatMap.mp hw
      rw [List.mem_singleton.mp hw]
      obtain ⟨hget₄, hid, _⟩ := mem_again (hrows ▸ ha)
      have hid : a.id = e.id := by simpa using hid
      -- the row that is promoted is the row that was found: the lock fences assignments
      have hfence : Extends ((applyAll (s₂ : Db) L).assignments.get e.id)
          ((applyAll s₄ L).assignments.get e.id) :=
        extends_view ((h₃.trans h₄).fenced hK.1).assignments e.id
      have hsame := extends_of_some (hget ▸ hfence)
      rw [← hid, hget₄, Option.some.injEq] at hsame
      intro i k hact
      simp only [Write.activates, promote, if_true, Option.some.injEq, Prod.mk.injEq] at hact
      rw [← hact.2, hsame]
      exact ofAssignee_userId (Bool.and_eq_true_iff.mp hof).1

theorem wp_replaceChangedRole {new : NewRow} {role : Option AssignableRole}
    {current : AssignableRole} {f : Unit → Action β} (hs : SafeStore ctx.organizationId s)
    (ha : OwnsUser ctx.organizationId userId held) (hl : ∀ w ∈ log, w.activatesOnly userId)
    (h : ∀ a K L s', SafeStore ctx.organizationId s' → OwnsUser ctx.organizationId userId K →
      (∀ w ∈ L, w.activatesOnly userId) → (f a).wp (Guarded ctx.organizationId)
        (SafeStore ctx.organizationId) Q K L s') :
    (replaceChangedRole ctx userId new role current >>= f).wp (Guarded ctx.organizationId)
      (SafeStore ctx.organizationId) Q held log s := by
  unfold replaceChangedRole
  cases role with
  | none => exact h () held log s hs ha hl
  | some newRole =>
    dsimp only
    split
    · exact h () held log s hs ha hl
    · rw [Prog.bind_assoc, replacePrimaryRoleWithinTransaction, Prog.bind_assoc]
      refine wp_quiet hs (emits_updateAssignments fun _ _ => rfl) ha hl fun _ K L s₁ hs₁ hK hL => ?_
      exact wp_ensurePrimary hs₁ hK hL fun _ => h ()

end

theorem updateUserMutation_owned (ctx : Context) (id : String) (new : NewRow) (data : UpdateUser)
    (target : User) (K : List LockKey) (s : Db) (hlock : .authority ctx.organizationId ∈ K) :
    (updateUserMutation ctx id new data target).wp (Guarded ctx.organizationId)
      (SafeStore ctx.organizationId) (fun _ held log _ => Owned held log) K [] s := by
  rw [updateUserMutation, updateUser, updateUsers, Prog.bind_assoc]
  refine wp_modify fun s₁ _ _ s₂ _ hs₂ found rows hfound hrows _ => ?_
  have hquiet : ∀ w ∈ rows.flatMap (fun u => [Write.updateUser u.id
      { name := data.name, isActive := data.isActive, email := data.email }]),
        w.activates = none := by
    intro w hw
    obtain ⟨u, _, hw⟩ := List.mem_flatMap.mp hw
    rw [List.mem_singleton.mp hw]
    rfl
  cases hu : rows.head? with
  | none =>
    intro s₃ _ _ w hw i k hact
    rw [hquiet w hw] at hact
    cases hact
  | some u =>
    obtain ⟨_, hof, v, hv, hvu⟩ := mem_again (hrows ▸ List.mem_of_head? hu)
    have hkey : LockKey.user id ∈ found.flatMap User.keys :=
      List.mem_flatMap.mpr ⟨v, hv, by rw [← ofUser_id hof, ← hvu]; exact List.mem_cons_self⟩
    refine wp_replaceChangedRole hs₂ ⟨List.mem_append_right _ hlock,
      List.mem_append_left _ (List.mem_append_left _ hkey)⟩ ?_
      fun _ K₁ L₁ s₃ hs₃ hK₁ hL₁ => wp_quiet hs₃ inactive_revokeDeactivated hK₁ hL₁ fun _ K₂ L₂ s₄
        hs₄ hK₂ hL₂ =>
        wp_quiet hs₄ inactive_sync hK₂ hL₂ fun _ K₃ L₃ s₅ _ hK₃ hL₃ => ?_
    · intro w hw i k hact
      rw [hquiet w hw] at hact
      cases hact
    · refine wp_mono (fun _ K L _ _ hp w hw i k hact => ?_)
        (wp_and (wp_emits (P := fun w => w.activatesOnly id)
        (emits_query _) hL₃ (wp_true _)) (wp_keeps
          (P := fun K (_ : Db) => OwnsUser ctx.organizationId id K) (fun _ _ _ h _ => h)
        (fun _ _ _ hsub h => ⟨hsub _ h.1, hsub _ h.2⟩) hK₃))
      rw [hp.1.2 w hw i k hact]
      exact hp.2.2

/-! ## The outline -/

/-- What a command commits that bears on the authority of its organization. -/
def Request.Respects (o : String) (r : Request) (held : List LockKey) (log : List Write) (s : Db) :
    Prop :=
  match r.command with
  | .createUser _ _ _ | .acceptInvitation _ _ _ _ | .assignRole _ _ _ _ | .promoteAssignment
      _ | .activateAssignment _ =>
    log = [] ∨ .authority o ∈ held ∧ Saw o (Exclusive o) held log s ∧ log.countP Write.isActivation ≤ 1
  | .updateUser _ _ _ | .deleteUser _ | .deactivateAssignment _ | .removeAssignment _ =>
    log = [] ∨ .authority o ∈ held ∧ Owned held log ∧ Saw o (Exclusive o) held log s ∧
      Saw o (HasAdmin o) held log s ∧ log.countP Write.isActivation ≤ 1
  | .createCandidate id new profileId _ => s.users.get id = none ∧ s.assignments.get new.id = none ∧
      s.profiles.get profileId = none
  | .updateCandidate id data =>
    log = [] ∨ ∃ p, s.profiles.get id = some p ∧
      log = [.updateUser p.userId { name := data.name, isActive := data.isActive, email := data.email }]
  | _ => True

/-- The row of an assignment that a command inserts is free at the commit. -/
def Request.Fresh (r : Request) (log : List Write) (s : Db) : Prop :=
  match r.command with
  | .createUser _ new _ => s.assignments.get new.id = none
  | .assignRole new _ _ _ => log = [] ∨ s.assignments.get new.id = none
  | _ => True

theorem program_fresh [PasswordVerifier] (r : Request) (s : Db) :
    r.program.wp Protected Coherent (fun _ _ log s => r.Fresh log s) [] [] s := by
  obtain ⟨ctx, command⟩ := r
  cases command with
  | createUser id new data => exact createUser_fresh ctx id new data s
  | assignRole new id role isPrimary => exact assignRole_fresh ctx new id role isPrimary s
  | _ => exact wp_true _

section
variable {ctx : Context} {α : Type} {mutate : Action α} {f : α → Action Reply} {s : Db}

theorem respects_checked (hf : ∀ a, Ends (f a))
    (hb : (mutateWithAuthorityInvariants ctx mutate >>= f).Budget Write.isActivation 1) :
    (mutateWithAuthorityInvariants ctx mutate >>= f).wp (Guarded ctx.organizationId)
      (SafeStore ctx.organizationId)
      (fun _ held log s => log = [] ∨ .authority ctx.organizationId ∈ held ∧
        Saw ctx.organizationId (Exclusive ctx.organizationId) held log s ∧
        log.countP Write.isActivation ≤ 1) [] [] s :=
  wp_mono (fun _ _ _ _ _ h => .inr ⟨h.1.1, h.1.2, h.2⟩) (wp_budget hb (by simp) (wp_checked hf))

theorem respects_counted (hf : ∀ a, Ends (f a))
    (hb : (mutateWithEffectiveAdminPostcondition ctx mutate >>= f).Budget Write.isActivation 1)
    (hm : ∀ K s, .authority ctx.organizationId ∈ K → mutate.wp (Guarded ctx.organizationId)
        (SafeStore ctx.organizationId) (fun _ held log _ => Owned held log) K [] s) :
    (mutateWithEffectiveAdminPostcondition ctx mutate >>= f).wp (Guarded ctx.organizationId)
      (SafeStore ctx.organizationId)
      (fun _ held log s => log = [] ∨ .authority ctx.organizationId ∈ held ∧ Owned held log ∧
        Saw ctx.organizationId (Exclusive ctx.organizationId) held log s ∧
        Saw ctx.organizationId (HasAdmin ctx.organizationId) held log s ∧
        log.countP Write.isActivation ≤ 1) [] [] s :=
  wp_mono (fun _ _ _ _ _ h => .inr ⟨h.1.1, h.1.2.1, h.1.2.2.1, h.1.2.2.2, h.2⟩)
    (wp_budget hb (by simp) (wp_counted hf fun K s hk _ => hm K s hk))

theorem inactive_counted (hf : ∀ a, Ends (f a)) (hm : Inactive mutate) :
    (mutateWithEffectiveAdminPostcondition ctx mutate >>= f).wp (Guarded ctx.organizationId)
      (SafeStore ctx.organizationId)
      (fun _ held log s => log = [] ∨ .authority ctx.organizationId ∈ held ∧ Owned held log ∧
        Saw ctx.organizationId (Exclusive ctx.organizationId) held log s ∧
        Saw ctx.organizationId (HasAdmin ctx.organizationId) held log s ∧
        log.countP Write.isActivation ≤ 1) [] [] s := by
  refine respects_counted hf ?_ fun _ _ _ => owned_of_inactive hm
  refine budget_before (budget_effectiveAdminPostcondition (budget_inactive hm)) fun a => ?_
  rcases hf a with ⟨b, hb⟩ | ⟨e, he⟩
  · rw [hb]; exact trivial
  · rw [he]; exact trivial

end

theorem ends_ite {c : Prop} [Decidable c] {p q : Action Reply} (hp : Ends p) (hq : Ends q) :
    Ends (if c then p else q) := by
  split
  · exact hp
  · exact hq

theorem program_respects [PasswordVerifier] (r : Request) (s : Db) :
    r.program.wp (Guarded r.ctx.organizationId) (SafeStore r.ctx.organizationId)
      (fun _ held log s => r.Respects r.ctx.organizationId held log s) [] [] s := by
  obtain ⟨ctx, command⟩ := r
  cases command with
  | createUser id new data =>
    exact respects_checked (fun _ => .inl ⟨_, rfl⟩) (budget_createUser ctx id new data)
  | acceptInvitation id new data now =>
    refine respects_checked (fun created => ?_) (budget_acceptInvitation ctx id new data now)
    cases created with
    | none => exact .inl ⟨_, rfl⟩
    | some u => exact .inl ⟨_, rfl⟩
  | assignRole new id role isPrimary =>
    apply wp_query
    intro s₁ _ _
    split
    · exact fun _ _ _ => .inl rfl
    · refine respects_checked (fun _ => .inl ⟨_, rfl⟩)
        (budget_before (budget_authorityInvariants (budget_before budget_assign fun a => ?_))
            fun _ => trivial)
      split
      · exact Prog.emits_bind inactive_sync fun _ => trivial
      · exact trivial
  | promoteAssignment assignmentId =>
    exact respects_checked (fun _ => ends_ite (.inl ⟨_, rfl⟩) (.inr ⟨_, rfl⟩))
      (budget_promoteAssignment ctx assignmentId)
  | activateAssignment assignmentId =>
    exact respects_checked (fun _ => ends_ite (.inl ⟨_, rfl⟩) (.inr ⟨_, rfl⟩))
      (budget_activateAssignment ctx assignmentId)
  | updateUser id new data =>
    show (updateUserRoute ctx id new data).wp _ _ _ _ _ _
    unfold updateUserRoute
    split
    · exact trivial
    · apply wp_query
      intro s₁ _ _
      split
      · exact fun _ _ _ => .inl rfl
      case _ target _ =>
        refine respects_counted (fun _ => .inl ⟨_, rfl⟩) ?_ fun K s hk =>
          updateUserMutation_owned ctx id new data target K s hk
        exact budget_before
          (budget_effectiveAdminPostcondition (budget_updateUserMutation ctx id new data target))
          fun _ => trivial
  | deleteUser id =>
    apply wp_query
    intro s₁ _ _
    split
    · exact fun _ _ _ => .inl rfl
    · exact inactive_counted (fun _ => .inl ⟨_, rfl⟩) (emits_deleteUserRow rfl)
  | deactivateAssignment assignmentId =>
    apply wp_query
    intro s₁ _ _
    split
    · exact trivial
    · refine inactive_counted (fun _ => .inl ⟨_, rfl⟩)
        (Prog.emits_bind (emits_deactivate (fun _ => rfl) fun _ _ => rfl) fun result => ?_)
      cases result with
      | none => exact trivial
      | some a =>
        dsimp only
        split
        · exact Prog.emits_bind inactive_sync fun _ => trivial
        · exact trivial
  | removeAssignment assignmentId =>
    apply wp_query
    intro s₁ _ _
    split
    · exact trivial
    · refine inactive_counted (fun _ => .inl ⟨_, rfl⟩)
        (Prog.emits_bind (emits_remove (fun _ => rfl) fun _ _ => rfl) fun result => ?_)
      cases result with
      | none => exact trivial
      | some a =>
        dsimp only
        split
        · exact Prog.emits_bind inactive_sync fun _ => trivial
        · exact trivial
  | createCandidate id new profileId data =>
    exact wp_restrict (fun _ _ _ h => h.rows) (fun _ h => h.1)
      (createCandidate_fresh ctx id new profileId data s)
  | updateCandidate id data => exact updateCandidate_writes ctx id data s
  | _ => exact wp_true _

/-! ## Commits -/

/-- The update of a candidate leaves the authority of the organization alone: it
disables an Admin only if another one is active, and wakes no user with both
roles; while another transaction holds the advisory lock it disables no Admin and
wakes neither an Admin nor a Maintainer. -/
def FlipAllowed (o : String) (c : AccountCommit) : Prop :=
  ∀ id data p u, c.request.command = .updateCandidate id data → c.before.profiles.get id = some p →
    c.before.users.get p.userId = some u →
    (u.isActive = true → data.isActive = some false → HoldsRole o c.before u.id .admin →
      .authority o ∉ c.others ∧ ∃ k, k ≠ u.id ∧ ActiveUser o c.before k ∧
      HoldsRole o c.before k .admin) ∧
    (u.isActive = false → data.isActive = some true →
      ¬ (HoldsRole o c.before u.id .admin ∧ HoldsRole o c.before u.id .maintainer) ∧
      (.authority o ∈ c.others → ¬ HoldsRole o c.before u.id .admin ∧
        ¬ HoldsRole o c.before u.id .maintainer))

section
variable {o : String} {s : Db}

theorem activeUser_updated {k : String} {patch : UserPatch} {i : String}
    (h : ActiveUser o (applyAll s [Write.updateUser k patch]) i) :
    ∃ u, s.users.get i = some u ∧ u.organizationId = o ∧
    (u.isActive = true ∨ i = k ∧ patch.isActive = some true) := by
  obtain ⟨v, hv, ho, ha⟩ := h
  rw [applyAll_cons, applyAll_nil, get_users] at hv
  by_cases hk : i = k
  · simp only [Write.userAt, hk, if_true, Option.map_eq_some_iff] at hv
    obtain ⟨u, hu, rfl⟩ := hv
    refine ⟨u, by rw [hk]; exact hu, ho, ?_⟩
    cases hp : patch.isActive with
    | none => exact .inl (by simpa [UserPatch.set, hp] using ha)
    | some b => exact .inr ⟨hk, by simpa [UserPatch.set, hp] using ha⟩
  · simp only [Write.userAt, hk, if_false] at hv
    exact ⟨v, hv, ho, .inl ha⟩

theorem flip_safe (hs : AdminSafe o s) {k : String} {patch : UserPatch}
    (hsleep : ∀ u, s.users.get k = some u → u.isActive = true → patch.isActive = some false →
      HoldsRole o s k .admin → ∃ i, i ≠ k ∧ ActiveUser o s i ∧ HoldsRole o s i .admin)
    (hwake : ∀ u, s.users.get k = some u → u.isActive = false → patch.isActive = some true →
      ¬ (HoldsRole o s k .admin ∧ HoldsRole o s k .maintainer)) :
    AdminSafe o (applyAll s [Write.updateUser k patch]) where
  admin := by
    have hother : ∀ i, i ≠ k → ActiveUser o s i →
        ActiveUser o (applyAll s [Write.updateUser k patch]) i := by
      intro i hi ⟨u, hu, hrest⟩
      refine ⟨u, ?_, hrest⟩
      rw [applyAll_cons, applyAll_nil, get_users]
      simpa [Write.userAt, hi] using hu
    obtain ⟨i, hactive, hadmin⟩ := hs.admin
    by_cases hi : i = k
    · subst hi
      obtain ⟨u, hu, huo, hua⟩ := hactive
      by_cases hp : patch.isActive = some false
      · obtain ⟨j, hj, hja, hjr⟩ := hsleep u hu hua hp hadmin
        exact ⟨j, hother j hj hja, hjr⟩
      · refine ⟨i, ⟨patch.set u, ?_, huo, ?_⟩, hadmin⟩
        · rw [applyAll_cons, applyAll_nil, get_users, hu]
          simp [Write.userAt]
        · cases hp' : patch.isActive with
          | none => simp [UserPatch.set, hp', hua]
          | some b => cases b <;> simp_all [UserPatch.set]
    · exact ⟨i, hother i hi hactive, hadmin⟩
  exclusive i hactive hadmin hmaintainer := by
    obtain ⟨u, hu, huo, hua⟩ := activeUser_updated hactive
    rcases hua with hua | ⟨rfl, hp⟩
    · exact hs.exclusive i ⟨u, hu, huo, hua⟩ hadmin hmaintainer
    · cases hua : u.isActive with
      | true => exact hs.exclusive i ⟨u, hu, huo, hua⟩ hadmin hmaintainer
      | false => exact hwake u hu hua hp ⟨hadmin, hmaintainer⟩

theorem flip_fenced {k : String} {patch : UserPatch}
    (hsleep : ∀ u, s.users.get k = some u → u.isActive = true → patch.isActive = some false →
      ¬ HoldsRole o s k .admin)
    (hwake : ∀ u, s.users.get k = some u → u.isActive = false → patch.isActive = some true →
      ¬ HoldsRole o s k .admin ∧ ¬ HoldsRole o s k .maintainer) :
    Fenced o s (applyAll s [Write.updateUser k patch]) where
  assignments _ := .inl rfl
  users i u hu := by
    by_cases hi : i = k
    · subst hi
      refine ⟨patch.set u, ?_, rfl, fun ha hs => ?_, fun ha hs => ?_⟩
      · rw [applyAll_cons, applyAll_nil, get_users, hu]
        simp [Write.userAt]
      · apply hsleep u hu ha
        cases hp : patch.isActive <;> simp_all [UserPatch.set]
      · apply hwake u hu ha
        cases hp : patch.isActive <;> simp_all [UserPatch.set]
    · refine ⟨u, ?_, rfl, fun ha hs => absurd (ha.symm.trans hs) (by decide),
        fun ha hs => absurd (ha.symm.trans hs) (by decide)⟩
      rw [applyAll_cons, applyAll_nil, get_users]
      simpa [Write.userAt, hi] using hu

/-- What the check of a command of the exclusion seam says at the commit. -/
theorem checked_safe {held : List LockKey} {log : List Write} (hs : AdminSafe o s)
    (hlock : .authority o ∈ held) (hsaw : Saw o (Exclusive o) held log s)
    (hone : log.countP Write.isActivation ≤ 1) (hkeeps : ∀ w ∈ log, w.keepsAdmin o)
    (hfresh : ∀ a, .insertAssignment a ∈ log → s.assignments.get a.id = none) :
    AdminSafe o (applyAll s log) where
  admin := keeps_admin hs.admin hkeeps hfresh
  exclusive := by
    obtain ⟨s₁, hi, hg, hexclusive⟩ := hsaw
    exact exclusive_view hi (hg.fenced hlock) hone hexclusive

theorem counted_safe {held : List LockKey} {log : List Write} (hlock : .authority o ∈ held)
    (howned : Owned held log) (hexclusive : Saw o (Exclusive o) held log s)
    (hadmin : Saw o (HasAdmin o) held log s) (hone : log.countP Write.isActivation ≤ 1)
    (hkeys : ∀ w ∈ log, ∀ k ∈ w.keys, k ∈ held) : AdminSafe o (applyAll s log) where
  admin := by
    obtain ⟨s₁, _, hg, hcount⟩ := hadmin
    exact admin_view (hg.fenced hlock) (fun k hk => hg.rows.users k hk) hkeys howned hcount
  exclusive := by
    obtain ⟨s₁, hi, hg, hchecked⟩ := hexclusive
    exact exclusive_view hi (hg.fenced hlock) hone hchecked

end

section
variable {o : String} {s : Db} {ctx : Context} {log : List Write} {a : Reply}

/-- The commands of the exclusion seam take no authority away. -/
theorem keeps_of_mayWrite {r : Request} (horg : r.ctx.organizationId = o) (hc : r.Commits a log s)
    (hf : r.Fresh log s) (hw : ∀ w ∈ log, r.command.mayWrite r.ctx w)
    (hr : (∃ id new data, r.command = .createUser id new data) ∨
      (∃ id new data now, r.command = .acceptInvitation id new data now) ∨
      (∃ new id role isPrimary, r.command = .assignRole new id role isPrimary) ∨
      (∃ k, r.command = .promoteAssignment k) ∨ ∃ k, r.command = .activateAssignment k) :
    (∀ w ∈ log, w.keepsAdmin o) ∧ ∀ b, .insertAssignment b ∈ log → s.assignments.get b.id = none := by
  obtain ⟨ctx, command⟩ := r
  rcases hr with ⟨id, new, data, rfl⟩ | ⟨id, new, data, now, rfl⟩ | ⟨new, id, role, isPrimary,
    rfl⟩ | ⟨k, rfl⟩ | ⟨k, rfl⟩
  · constructor
    · intro w hm
      rcases hw w hm with rfl | ⟨k, rfl⟩ | rfl
      · exact ⟨horg, rfl⟩
      · simp [Write.keepsAdmin, demote]
      · trivial
    · intro b hb
      rcases hw _ hb with h | ⟨k, h⟩ | h
      · cases h
      · cases h
      · rw [Write.insertAssignment.inj h]
        exact hf
  · rcases hc with ⟨_, rfl⟩ | ⟨x, hx⟩
    · simp
    · rw [hx.writes]
      constructor
      · intro w hm
        simp only [List.mem_cons, List.not_mem_nil, or_false] at hm
        rcases hm with rfl | rfl | rfl
        · trivial
        · exact ⟨horg, rfl⟩
        · trivial
      · intro b hb
        simp only [List.mem_cons, reduceCtorEq, List.not_mem_nil, or_false,
          Write.insertAssignment.injEq, false_or] at hb
        rw [hb]
        exact hx.freshAssignment
  · constructor
    · intro w hm
      rcases hw w hm with ⟨k, rfl⟩ | rfl | ⟨role, rfl⟩
      · simp [Write.keepsAdmin, demote]
      · trivial
      · simp [Write.keepsAdmin]
    · intro b hb
      rcases hw _ hb with ⟨k, h⟩ | h | ⟨role, h⟩
      · cases h
      · rw [Write.insertAssignment.inj h]
        rcases hf with rfl | hf
        · cases hb
        · exact hf
      · cases h
  · constructor
    · intro w hm
      rcases hw w hm with ⟨u, i, rfl⟩ | ⟨u, rfl⟩ | ⟨u, role, rfl⟩
      · simp [Write.keepsAdmin, demote]
      · simp [Write.keepsAdmin, promote]
      · simp [Write.keepsAdmin]
    · intro b hb
      rcases hw _ hb with ⟨u, i, h⟩ | ⟨u, h⟩ | ⟨u, role, h⟩ <;> cases h
  · constructor
    · intro w hm
      rcases hw w hm with ⟨u, i, rfl⟩ | ⟨u, rfl⟩ | ⟨u, role, rfl⟩
      · simp [Write.keepsAdmin, demote]
      · simp [Write.keepsAdmin]
      · simp [Write.keepsAdmin]
    · intro b hb
      rcases hw _ hb with ⟨u, i, h⟩ | ⟨u, h⟩ | ⟨u, role, h⟩ <;> cases h

/-- The commands that touch neither activity nor assignments. -/
theorem inert_of_mayWrite {c : AccountCommand} (hw : ∀ w ∈ log, c.mayWrite ctx w)
    (hr : (∃ id hash, c = .resetPassword id hash) ∨
      (∃ name hash, c = .resetAdminPassword name hash) ∨
      (∃ id email role hash now, c = .createInvitation id email role hash now) ∨
      (∃ id now, c = .revokeInvitation id now) ∨
      (∃ new name hash clock, c = .requestPasswordReset new name hash clock) ∨
      (∃ hash password i j, c = .consumePasswordReset hash password i j) ∨
      (∃ epoch, c = .logout epoch) ∨ (∃ current password, c = .changePassword current password) ∨
      ∃ name, c = .updateProfile name) : ∀ w ∈ log, w.isInert := by
  intro w hm
  have h := hw w hm
  rcases hr with ⟨_, _, rfl⟩ | ⟨_, _, rfl⟩ | ⟨_, _, _, _, _, rfl⟩ | ⟨_, _, rfl⟩ | ⟨_, _, _, _,
    rfl⟩ | ⟨_, _, _, _, rfl⟩ | ⟨_, rfl⟩ |
    ⟨_, _, rfl⟩ | ⟨_, rfl⟩
  · obtain rfl := h; rfl
  · obtain ⟨_, rfl⟩ := h; rfl
  · rcases h with ⟨_, rfl⟩ | rfl <;> trivial
  · obtain rfl := h; trivial
  · rcases h with ⟨_, _, rfl⟩ | ⟨_, _, rfl⟩ | ⟨_, rfl⟩ <;> trivial
  · rcases h with ⟨_, _, rfl⟩ | ⟨_, rfl⟩
    · trivial
    · rfl
  · obtain rfl := h; rfl
  · obtain ⟨_, rfl⟩ := h; rfl
  · obtain rfl := h; rfl

end

theorem commit_safe {o : String} {c : AccountCommit} {held : List LockKey} {log : List Write}
    (horg : c.request.ctx.organizationId = o) (hs : SafeStore o c.before)
    (hc : c.request.Commits c.reply log c.before)
    (hw : ∀ w ∈ log, c.request.command.mayWrite c.request.ctx w)
    (hr : c.request.Respects o held log c.before) (hf : c.request.Fresh log c.before)
    (ha : c.after = applyAll c.before log) (hkeys : ∀ w ∈ log, ∀ k ∈ w.keys, k ∈ held)
    (hapart : ∀ k ∈ held, k ∉ c.others) (hflip : FlipAllowed o c) :
    AdminSafe o c.after ∧ (.authority o ∈ c.others → Fenced o c.before c.after) := by
  have hnothing : log = [] → AdminSafe o c.after ∧
      (.authority o ∈ c.others → Fenced o c.before c.after) := by
    rintro rfl
    have ha : c.after = c.before := ha
    rw [ha]
    exact ⟨hs.2, fun _ => .refl o _⟩
  have hinert : (∀ w ∈ log, w.isInert) → AdminSafe o c.after ∧
      (.authority o ∈ c.others → Fenced o c.before c.after) := by
    intro h
    rw [ha]
    exact ⟨fenced_safe hs.1.intact hs.2 (inert_fenced h), fun _ => inert_fenced h⟩
  obtain ⟨⟨ctx, command⟩, reply, before, after, others⟩ := c
  have hchecked : (log = [] ∨ .authority o ∈ held ∧ Saw o (Exclusive o) held log before ∧
      log.countP Write.isActivation ≤ 1) →
        ((∀ w ∈ log, w.keepsAdmin o) ∧ ∀ b, .insertAssignment b ∈ log →
          before.assignments.get b.id = none) →
        AdminSafe o after ∧ (.authority o ∈ others → Fenced o before after) := by
    rintro (hnil | ⟨hlock, hsaw, hone⟩) ⟨hkeeps, hfresh⟩
    · exact hnothing hnil
    · rw [show after = applyAll before log from ha]
      exact ⟨checked_safe hs.2 hlock hsaw hone hkeeps hfresh, fun hk => absurd hk (hapart _ hlock)⟩
  have hcounted : (log = [] ∨ .authority o ∈ held ∧ Owned held log ∧
      Saw o (Exclusive o) held log before ∧
        Saw o (HasAdmin o) held log before ∧ log.countP Write.isActivation ≤ 1) →
        AdminSafe o after ∧ (.authority o ∈ others → Fenced o before after) := by
    rintro (hnil | ⟨hlock, howned, hexclusive, hadmin, hone⟩)
    · exact hnothing hnil
    · rw [show after = applyAll before log from ha]
      exact ⟨counted_safe hlock howned hexclusive hadmin hone hkeys,
        fun hk => absurd hk (hapart _ hlock)⟩
  cases command with
  | createUser id new data =>
    exact hchecked hr (keeps_of_mayWrite horg hc hf hw (.inl ⟨id, new, data, rfl⟩))
  | acceptInvitation id new data now =>
    exact hchecked hr (keeps_of_mayWrite horg hc hf hw (.inr (.inl ⟨id, new, data, now, rfl⟩)))
  | assignRole new id role isPrimary =>
    exact hchecked hr
      (keeps_of_mayWrite horg hc hf hw (.inr (.inr (.inl ⟨new, id, role, isPrimary, rfl⟩))))
  | promoteAssignment k =>
    exact hchecked hr (keeps_of_mayWrite horg hc hf hw (.inr (.inr (.inr (.inl ⟨k, rfl⟩)))))
  | activateAssignment k =>
    exact hchecked hr (keeps_of_mayWrite horg hc hf hw (.inr (.inr (.inr (.inr ⟨k, rfl⟩)))))
  | updateUser id new data => exact hcounted hr
  | deleteUser id => exact hcounted hr
  | deactivateAssignment k => exact hcounted hr
  | removeAssignment k => exact hcounted hr
  | createCandidate id new profileId data =>
    obtain ⟨huser, hassignment, _⟩ := hr
    have hfenced : Fenced o before (applyAll before log) :=
      candidate_fenced hs.1.intact huser hassignment hw
    rw [show after = applyAll before log from ha]
    exact ⟨fenced_safe hs.1.intact hs.2 hfenced, fun _ => hfenced⟩
  | updateCandidate id data =>
    rcases hr with hnil | ⟨p, hp, rfl⟩
    · exact hnothing hnil
    · rw [show after = applyAll before _ from ha]
      have hcond := fun u hu => hflip id data p u rfl hp hu
      have hid : ∀ u, before.users.get p.userId = some u → u.id = p.userId :=
        fun u hu => Table.key_get hu
      refine ⟨flip_safe hs.2 (fun u hu hactive hd hadmin => ?_) fun u hu hactive hd => ?_,
        fun hk => flip_fenced (fun u hu hactive hd hadmin => ?_) fun u hu hactive hd => ?_⟩
      · obtain ⟨_, i, hi, hother⟩ := (hcond u hu).1 hactive hd (by rw [hid u hu]; exact hadmin)
        exact ⟨i, by rw [← hid u hu]; exact hi, hother⟩
      · have h := ((hcond u hu).2 hactive hd).1
        rw [hid u hu] at h
        exact h
      · exact ((hcond u hu).1 hactive hd (by rw [hid u hu]; exact hadmin)).1 hk
      · have h := ((hcond u hu).2 hactive hd).2 hk
        rw [hid u hu] at h
        exact h
  | resetPassword id hash => exact hinert (inert_of_mayWrite hw (by simp))
  | resetAdminPassword name hash => exact hinert (inert_of_mayWrite hw (by simp))
  | createInvitation id email role hash now => exact hinert (inert_of_mayWrite hw (by simp))
  | revokeInvitation id now => exact hinert (inert_of_mayWrite hw (by simp))
  | requestPasswordReset new name hash clock => exact hinert (inert_of_mayWrite hw (by simp))
  | consumePasswordReset hash password i j => exact hinert (inert_of_mayWrite hw (by simp))
  | logout epoch => exact hinert (inert_of_mayWrite hw (by simp))
  | changePassword current password => exact hinert (inert_of_mayWrite hw (by simp))
  | updateProfile name => exact hinert (inert_of_mayWrite hw (by simp))

theorem mayWrite_insertProfile {ctx : Context} {c : AccountCommand} {q : CandidateProfile}
    (h : c.mayWrite ctx (.insertProfile q)) :
    ∃ id new data, c = .createCandidate id new q.id data := by
  cases c <;> simp_all [AccountCommand.mayWrite]

theorem commit_profiles {r : Request} {held : List LockKey} {log : List Write} {s : Db} {o : String}
    (hw : ∀ w ∈ log, r.command.mayWrite r.ctx w) (hr : r.Respects o held log s) {k : String}
    {p : CandidateProfile} (hp : s.profiles.get k = some p) :
    (applyAll s log).profiles.get k = some p := by
  refine applyAll_invariant (P := fun (t : Db) => t.profiles.get k = some p) ?_ hp
  intro w hm t ht
  rw [get_profiles, ht]
  cases w with
  | insertProfile q =>
    obtain ⟨ctx, command⟩ := r
    obtain ⟨id, new, data, rfl⟩ := mayWrite_insertProfile (hw _ hm)
    have hne : k ≠ q.id := by
      rintro rfl
      rw [hr.2.2] at hp
      cases hp
    simp [Write.profileAt, hne]
  | _ => rfl

def authority [PasswordVerifier] (o : String) :
    Outline Request.program (fun c : AccountCommit => c.request.ctx.organizationId = o ∧
      FlipAllowed o c) where
  Inv := SafeStore o
  Rely := Guarded o
  Post r a held log s := (r.Commits a log s ∧ ∀ w ∈ log, r.command.mayWrite r.ctx w) ∧ r.Fresh log s ∧
    (r.ctx.organizationId = o → r.Respects o held log s)
  refl := Guarded.refl o
  trans _ _ _ _ := Guarded.trans
  start r s _ := by
    refine wp_and (wp_restrict (fun _ _ _ h => h.rows) (fun _ h => h.1) (program_wp r s))
      (wp_and (wp_restrict (fun _ _ _ h => h.rows) (fun _ h => h.1) (program_fresh r s)) ?_)
    by_cases h : r.ctx.organizationId = o
    · subst h
      exact wp_mono (fun _ _ _ _ _ h _ => h) (program_respects r s)
    · exact wp_mono (fun _ _ _ _ _ _ h' => absurd h' h) (wp_true _)
  commit c held log hb hp ha hk ho hi hg := by
    obtain ⟨⟨hc, hw⟩, hf, hr⟩ := hp
    obtain ⟨hsafe, hfenced⟩ := commit_safe hg.1 hb hc hw (hr hg.1) hf ha hk ho hg.2
    refine ⟨⟨ha ▸ commits_coherent hb.1 hc hw (ha ▸ hi), hsafe⟩,
      fun K hK => ⟨?_, ?_, fun h => hfenced (hK _ h)⟩⟩
    · rw [ha]
      exact Protected.of_unlocked fun w hm k hkw hkK => ho k (hk w hm k hkw) (hK k hkK)
    · intro k p hkp
      rw [ha]
      exact commit_profiles hw (hr hg.1) hkp

section
variable [PasswordVerifier] {o : String} {db : Db}

/-- In a run of one organization whose candidate updates leave its Admins and
Maintainers alone, every committed state is safe. -/
theorem admin_safety (h : Coherent db) (hs : AdminSafe o db) (es : List (Event Request))
    (horg : ∀ r, .start r ∈ es → r.ctx.organizationId = o)
    (hflips : ∀ c ∈ (accountRun db es).history, FlipAllowed o c) :
    AdminSafe o (accountRun db es).committed ∧ ∀ c ∈ (accountRun db es).history,
    AdminSafe o c.after := by
  have hrequests : ∀ c ∈ (accountRun db es).history, c.request.ctx.organizationId = o :=
    run_requests Request.program es (Machine.idle db) horg (fun i t ht => by simp [Machine.slot,
        Machine.idle] at ht)
      (fun c hc => by simp [Machine.idle] at hc)
  obtain ⟨hinv, hcommits, _⟩ := (authority o).sound ⟨h, hs⟩ es fun c hc => ⟨hrequests c hc, hflips c hc⟩
  exact ⟨hinv.2, fun c hc => (hcommits c hc).after.2⟩

end

theorem staffed_safe : AdminSafe "org" staffed where
  admin := ⟨"ada", ⟨ada, rfl, rfl, rfl⟩, "ada-admin", _, rfl, rfl, rfl, rfl, rfl⟩
  exclusive k _ _ hm := by
    obtain ⟨i, a, ha, _, _, hrole, _⟩ := hm
    rw [List.mem_singleton.mp (Table.mem_of_get ha)] at hrole
    cases hrole

/-- An Admin creates a user who becomes Admin too. -/
theorem admin_safety_second :
    let es := alone 0 ⟨⟨"org", "ada"⟩, .createUser "bob" ⟨"bob-role", 1⟩ ⟨"bob", "pw", "Bob",
        .admin, none⟩⟩ 8 ++
      alone 1 ⟨⟨"org", "bob"⟩, .updateUser "ada" ⟨"ada-role", 2⟩ { isActive := some false }⟩ 16
    let _ := plainPasswords
    AdminSafe "org" (accountRun staffed es).committed ∧ ∀ c ∈ (accountRun staffed es).history,
      AdminSafe "org" c.after := by
  intro es _
  refine admin_safety staffed_coherent staffed_safe es ?_ ?_
  · intro r hr
    simp only [es, alone, List.mem_append, List.mem_cons, List.mem_replicate, Event.start.injEq,
      reduceCtorEq, and_false, or_false] at hr
    rcases hr with rfl | rfl <;> rfl
  · have hcommands : (accountRun staffed es).history.map (·.request.command) =
        [.createUser "bob" ⟨"bob-role", 1⟩ ⟨"bob", "pw", "Bob", .admin, none⟩,
          .updateUser "ada" ⟨"ada-role", 2⟩ { isActive := some false }] := by decide +kernel
    intro c hc id data p u hr
    have hmem := List.mem_map_of_mem (f := fun c : AccountCommit => c.request.command) hc
    rw [hcommands] at hmem
    simp [hr] at hmem

/-- The last Admin, who has a candidate profile, is disabled; and a disabled candidate
that was made Admin and Maintainer is woken. -/
theorem admin_safety_broken :
    let ada : Context := ⟨"org", "ada"⟩
    let bob : Context := ⟨"org", "bob"⟩
    let create := alone 0 ⟨ada, .createCandidate "bob" ⟨"bob-candidate", 1⟩ "bob-profile" ⟨"bob",
        "pw", "Bob", none⟩⟩ 12
    let disabled := create ++ alone 1 ⟨ada, .assignRole ⟨"bob-admin", 2⟩ "bob" .admin false⟩ 8 ++
      alone 2 ⟨bob, .updateUser "ada" ⟨"ada-role", 3⟩ { isActive := some false }⟩ 16 ++
      alone 3 ⟨bob, .updateCandidate "bob-profile" { isActive := some false }⟩ 6
    let woken := create ++ alone 1 ⟨ada, .updateCandidate "bob-profile" { isActive := some false }⟩ 6 ++
      alone 2 ⟨ada, .assignRole ⟨"bob-admin", 2⟩ "bob" .admin false⟩ 8 ++
      alone 3 ⟨ada, .assignRole ⟨"bob-maintainer", 3⟩ "bob" .maintainer false⟩ 8 ++
      alone 4 ⟨ada, .updateCandidate "bob-profile" { isActive := some true }⟩ 6
    let _ := plainPasswords
    AdminSafe "org" staffed ∧ ¬ HasAdmin "org" (accountRun staffed disabled).committed ∧
      ¬ Exclusive "org" (accountRun staffed woken).committed := by
  intro ada bob create disabled woken _
  refine ⟨staffed_safe, ?_, ?_⟩
  · rintro ⟨k, ⟨u, hu, _, hactive⟩, _⟩
    have hnone : (accountRun staffed disabled).committed.users.rows.all
      (fun u => !u.isActive) = true := by decide +kernel
    have hinactive := List.all_eq_true.mp hnone u (Table.mem_of_get hu)
    rw [hactive] at hinactive
    cases hinactive
  · intro h
    have huser : (accountRun staffed woken).committed.users.get "bob" =
        some ⟨"bob", "org", "bob", "pw", "Bob", .candidate, true, none, 0⟩ := by decide +kernel
    have hadmin : (accountRun staffed woken).committed.assignments.get "bob-admin" =
        some ⟨"bob-admin", "org", "bob", .admin, false, true, 2⟩ := by decide +kernel
    have hmaintainer : (accountRun staffed woken).committed.assignments.get "bob-maintainer" =
        some ⟨"bob-maintainer", "org", "bob", .maintainer, false, true, 3⟩ := by decide +kernel
    exact h "bob" ⟨_, huser, rfl, rfl⟩ ⟨_, _, hadmin, rfl, rfl, rfl, rfl⟩ ⟨_, _, hmaintainer, rfl,
      rfl, rfl, rfl⟩

end ExamSystem.Accounts
