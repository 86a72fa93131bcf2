import ExamSystem.AccountRuns
import ExamSystem.PrimaryStages

/-!
# The operations on role assignments

Every operation runs under the advisory lock of its organization. Each is proved
from the list of rows it finds there: from a state that lets it keep the primary
it leaves one, and it does not run into the index of active primaries.
-/

namespace ExamSystem.Accounts

open Interleaving

/-! ## Operations -/

inductive RoleCommand
  | assign (new : NewRow) (userId : String) (role : AssignableRole) (isPrimary : Bool)
  | setPrimary (assignmentId : String)
  | activate (assignmentId : String)
  | deactivate (assignmentId : String)
  | remove (assignmentId : String)
  | replacePrimary (userId : String) (new : NewRow) (data : UpdateUser)
  deriving DecidableEq, Repr

structure RoleRequest where
  ctx : Context
  command : RoleCommand
  deriving DecidableEq, Repr

def RoleRequest.route (r : RoleRequest) : Action Reply :=
  match r.command with
  | .assign new userId role isPrimary => assignRole r.ctx new userId role isPrimary
  | .setPrimary assignmentId => promoteAssignment r.ctx assignmentId
  | .activate assignmentId => activateAssignment r.ctx assignmentId
  | .deactivate assignmentId => deactivateAssignment r.ctx assignmentId
  | .remove assignmentId => removeAssignment r.ctx assignmentId
  | .replacePrimary userId new data => updateUserRoute r.ctx userId new data

def RoleRequest.program (r : RoleRequest) : Action (Except AccountError Reply) := r.route.settle

abbrev RoleMachine := Machine Db Write LockKey AccountError RoleRequest (Except AccountError Reply)

abbrev RoleCommit := Commit Db LockKey RoleRequest (Except AccountError Reply)

def roleRun (db : Db) (es : List (Event RoleRequest)) : RoleMachine :=
  Machine.run RoleRequest.program (Machine.idle db) es

/-! ## What is kept -/

/-- Every user with an active assignment of an organization has one active primary, and its role. -/
def EachPrimary (db : Db) : Prop :=
  ∀ o userId, OnePrimary (rowsOf o userId db) ∧ RoleSynced (rowsOf o userId db) (member o userId db)

def assignmentOf (o id : String) (db : Db) : Option UserRoleAssignment :=
  (db.assignments.get id).filter fun a => a.organizationId = o

/-- A row flagged primary that is inactive is deactivated or removed only if the next active
row is primary too. -/
def NextIsPrimary (o id : String) (db : Db) : Prop :=
  ∀ a, assignmentOf o id db = some a → a.isActive = false → a.isPrimary = true →
    ∀ n, nextActive (rowsOf o a.userId db) = some n → n.isPrimary = true

/-- The state in which the operation is executed lets it keep the primary. -/
def RoleRequest.KeepsPrimary (r : RoleRequest) (db : Db) : Prop :=
  match r.command with
  | .assign _ userId role isPrimary => isPrimary = false →
      (∃ u, member r.ctx.organizationId userId db = some u) →
      (∀ a ∈ rowsOf r.ctx.organizationId userId db, a.role ≠ role) →
      ∃ a ∈ rowsOf r.ctx.organizationId userId db, a.isActive = true
  | .activate id => ∀ a, assignmentOf r.ctx.organizationId id db = some a → a.isActive = false →
      a.isPrimary = false → ∃ b ∈ rowsOf r.ctx.organizationId a.userId db, b.isActive = true
  | .deactivate id => NextIsPrimary r.ctx.organizationId id db
  | .remove id => NextIsPrimary r.ctx.organizationId id db
  | _ => True

def RoleCommand.mayRefuse (c : RoleCommand) (e : AccountError) : Prop :=
  match c with
  | .assign _ _ _ _ => Refused e ∨ (∃ u a m, e = .adminMaintainerExclusion u a m)
  | .replacePrimary _ _ _ => Refused e ∨ e = .cannotDisableSelf ∨
      (∃ u a m, e = .adminMaintainerExclusion u a m) ∨ e = .lastActiveAdmin
  | _ => e = .notFound ∨ (∃ u a m, e = .adminMaintainerExclusion u a m) ∨ e = .lastActiveAdmin

theorem mayRefuse_exclusion (c : RoleCommand) (u a m : String) :
    c.mayRefuse (.adminMaintainerExclusion u a m) := by
  cases c with
  | assign new userId role isPrimary => exact .inr ⟨u, a, m, rfl⟩
  | replacePrimary userId new data => exact .inr (.inr (.inl ⟨u, a, m, rfl⟩))
  | _ => exact .inr (.inl ⟨u, a, m, rfl⟩)

def Kept (o : String) (K : List LockKey) (log : List Write) (s : Db) : Prop :=
  log = [] ∨ ∃ userId l₀ l m, Stage o userId l₀ l m K log s ∧ OnePrimary l ∧ RoleSynced l m

section
variable {o id userId : String} {s s' : Db}

theorem assignmentOf_eq_some {a : UserRoleAssignment} :
    assignmentOf o id s = some a ↔ a ∈ rowsOf o a.userId s ∧ a.id = id := by
  rw [assignmentOf, Option.filter_eq_some_iff, mem_rowsOf, decide_eq_true_eq]
  constructor
  · intro ⟨hget, ho⟩
    have hid : a.id = id := Table.key_get hget
    exact ⟨⟨by rw [hid]; exact hget, ho, rfl⟩, hid⟩
  · intro ⟨⟨hget, ho, _⟩, hid⟩
    exact ⟨hid ▸ hget, ho⟩

theorem assignmentOf_same (h : SameOrg o s s') : assignmentOf o id s' = assignmentOf o id s := by
  apply Option.ext
  intro a
  rw [assignmentOf_eq_some, assignmentOf_eq_some, h.rows]

theorem keepsPrimary_same {r : RoleRequest} (h : SameOrg r.ctx.organizationId s s')
    (hr : r.KeepsPrimary s') : r.KeepsPrimary s := by
  obtain ⟨ctx, command⟩ := r
  cases command with
  | assign new userId role isPrimary =>
    simp only [RoleRequest.KeepsPrimary, h.rows, h.members] at hr
    exact hr
  | activate id =>
    simp only [RoleRequest.KeepsPrimary, h.rows, assignmentOf_same h] at hr
    exact hr
  | deactivate id =>
    simp only [RoleRequest.KeepsPrimary, NextIsPrimary, h.rows, assignmentOf_same h] at hr
    exact hr
  | remove id =>
    simp only [RoleRequest.KeepsPrimary, NextIsPrimary, h.rows, assignmentOf_same h] at hr
    exact hr
  | _ => exact trivial

theorem Kept.reserved {K : List LockKey} {log : List Write} (h : Kept o K log s)
    (hr : Reserved K s s') : Kept o K log s' := by
  rcases h with hnil | ⟨userId, l₀, l, m, hst, hkept⟩
  · exact .inl hnil
  · exact .inr ⟨userId, l₀, l, m, hst.reserved hr, hkept⟩

end

/-! ## Steps and ends of an operation -/

section
variable {r : RoleRequest} {Inv : Db → Prop} {α : Type} {K : List LockKey} {log : List Write} {s : Db}

abbrev Keeps (r : RoleRequest) (Inv : Db → Prop) (p : Action α) (K : List LockKey)
    (log : List Write) (s : Db) : Prop :=
  p.wpe Reserved Inv (fun _ K log s => r.KeepsPrimary s → Kept r.ctx.organizationId K log s)
    (fun e s => r.KeepsPrimary s → r.command.mayRefuse e)
    K log s

theorem keeps_unless (hlock : .authority r.ctx.organizationId ∈ K) (hnot : ¬ r.KeepsPrimary s)
    (p : Action α) : Keeps r Inv p K log s := by
  have hstable : ∀ {K : List LockKey} {s s' : Db}, .authority r.ctx.organizationId ∈ K →
      ¬ r.KeepsPrimary s → Reserved K s s' → ¬ r.KeepsPrimary s' :=
    fun hlock hnot hr h => hnot (keepsPrimary_same (hr.organizations _ hlock) h)
  unfold Keeps
  induction p generalizing K log s with
  | done a => exact fun s' hr _ h => absurd h (hstable hlock hnot hr)
  | fail e => exact fun s' hr _ h => absurd h (hstable hlock hnot hr)
  | stmt locks writes next ih =>
    exact fun s' hr _ => ih _ (List.mem_append_right _ hlock) (hstable hlock hnot hr)

theorem keeps_done (h : Kept r.ctx.organizationId K log s) (a : α) :
    Keeps r Inv (.done a) K log s := fun _ hr _ _ => h.reserved hr

theorem keeps_fail {e : AccountError} (h : r.command.mayRefuse e) :
    Keeps r Inv (.fail e : Action α) K log s := fun _ _ _ _ => h

theorem keeps_exclusion {f : Unit → Action α}
    (h : ∀ s', Reserved K s s' → Keeps r Inv (f ()) K log s') :
    Keeps r Inv (checkAdminMaintainerExclusion r.ctx >>= f) K log s := by
  unfold Keeps
  rw [checkAdminMaintainerExclusion, Prog.bind_assoc]
  refine wpe_query fun s' hr _ => ?_
  split
  · exact keeps_fail (mayRefuse_exclusion _ _ _ _)
  · exact h s' hr

theorem keeps_effectiveAdmin {f : Unit → Action α} (hE : r.command.mayRefuse .lastActiveAdmin)
    (h : ∀ s', Reserved K s s' → Keeps r Inv (f ()) K log s') :
    Keeps r Inv (checkEffectiveAdmin r.ctx >>= f) K log s := by
  unfold Keeps
  rw [checkEffectiveAdmin, Prog.bind_assoc]
  refine wpe_query fun s' hr _ => ?_
  split
  · exact keeps_fail hE
  · exact h s' hr

theorem keeps_checked (h : Kept r.ctx.organizationId K log s) (a : α) :
    Keeps r Inv (checkAdminMaintainerExclusion r.ctx >>= fun _ => .done a) K log s :=
  keeps_exclusion fun _ hr => keeps_done (h.reserved hr) a

theorem keeps_checks (hE : r.command.mayRefuse .lastActiveAdmin)
    (h : Kept r.ctx.organizationId K log s) (a : α) :
    Keeps r Inv (checkAdminMaintainerExclusion r.ctx >>= fun _ => checkEffectiveAdmin r.ctx >>=
        fun _ => .done a) K log s :=
  keeps_exclusion fun _ hr => keeps_effectiveAdmin hE fun _ hr' =>
    keeps_done ((h.reserved hr).reserved hr') a

section
variable {userId : String} {l₀ l : List UserRoleAssignment} {m : Option User}

theorem keeps_synced (hst : Stage r.ctx.organizationId userId l₀ l m K log s) (hone : OnePrimary l)
    {f : Option AssignableRole → Action α}
    (h : ∀ role K' log' s', Kept r.ctx.organizationId K' log' s' → Keeps r Inv (f role) K' log' s') :
    Keeps r Inv (syncUsersRoleFromPrimary .readCommitted r.ctx userId >>= f) K log s :=
  hst.sync fun role _ _ _ hst' => h role _ _ _ (.inr ⟨userId, l₀, l, _, hst', hone, synced_role _ _⟩)

/-- The next active row becomes the primary, and its role the role of the user. -/
theorem keeps_next (hst : Stage r.ctx.organizationId userId l₀ l m K log s) (hready : Ready l)
    {f : Option AssignableRole → Action α}
    (h : ∀ role K' log' s', Kept r.ctx.organizationId K' log' s' → Keeps r Inv (f role) K' log' s') :
    Keeps r Inv (promoteNextActiveForUser .readCommitted r.ctx userId >>= fun _ =>
      syncUsersRoleFromPrimary .readCommitted r.ctx userId >>= f) K log s :=
  hst.promoteNext hready.free fun _ _ _ hst' => keeps_synced hst' (hready.promoted hst.nodup) h

end

theorem keeps_locked {f : Unit → Action α}
    (h : ∀ K s', .authority r.ctx.organizationId ∈ K → Inv s' → Reserved [] s s' →
      r.KeepsPrimary s' → Keeps r Inv (f ()) K [] s') :
    Keeps r Inv (Prog.lock [.authority r.ctx.organizationId] >>= f) [] [] s := by
  refine wpe_lock fun s' hr hi => ?_
  have hlock : LockKey.authority r.ctx.organizationId ∈ [.authority r.ctx.organizationId] ++ [] :=
    List.mem_append_left _ List.mem_cons_self
  by_cases hC : r.KeepsPrimary s'
  · exact h _ s' hlock hi hr hC
  · exact keeps_unless hlock hC _

end

/-! ## The assignment that was found -/

/-- What the transaction found: the assignment, the rows of its user and the user. -/
structure Found (r : RoleRequest) (t : UserRoleAssignment) (l : List UserRoleAssignment)
    (m : Option User) (K : List LockKey) (s : Db) :
    Prop where
  stage : Stage r.ctx.organizationId t.userId l l m K [] s
  mem : t ∈ l
  one : OnePrimary l
  synced : RoleSynced l m
  assignment : assignmentOf r.ctx.organizationId t.id s = some t
  keeps : r.KeepsPrimary s

section
variable {r : RoleRequest} {t : UserRoleAssignment} {l l' : List UserRoleAssignment}
    {m : Option User} {K K' : List LockKey} {log : List Write} {s s' : Db}

theorem keeps_found {α : Type} {id : String} (hlock : .authority r.ctx.organizationId ∈ K)
    {f : Option UserRoleAssignment → Action α} (hnone : ∀ s', Keeps r EachPrimary (f none) K [] s')
    (hsome : ∀ t l m s', t.id = id → Found r t l m K s' → Keeps r EachPrimary (f (some t)) K [] s') :
    Keeps r EachPrimary (findAssignment .readCommitted r.ctx id >>= f) K [] s := by
  refine wpe_query fun s' _ hi => ?_
  rw [applyAll_nil]
  have hfound : ((s'.assignments.get id).filter fun a => a.organizationId = r.ctx.organizationId) =
    assignmentOf r.ctx.organizationId id s' := rfl
  rw [hfound]
  cases ht : assignmentOf r.ctx.organizationId id s' with
  | none => exact hnone s'
  | some t =>
    by_cases hC : r.KeepsPrimary s'
    · obtain ⟨hmem, hid⟩ := assignmentOf_eq_some.mp ht
      obtain ⟨hone, hsynced⟩ := hi r.ctx.organizationId t.userId
      exact hsome t _ _ s' hid ⟨.start hlock, hmem, hone, hsynced, hid.symm ▸ ht, hC⟩
    · exact keeps_unless hlock hC _

theorem Found.same (hf : Found r t l m K s) {a : UserRoleAssignment} (ha : a ∈ l) (h : a.id = t.id) :
    a = t :=
  List.inj_on_of_nodup_map hf.stage.nodup ha hf.mem h

theorem Found.demoted (hf : Found r t l m K s) (hactive : t.isActive = false) :
    NoPrimary (patchRows (fun a => ofAssignee r.ctx t.userId a && isActivePrimary a && !decide
          (a.id = t.id)) demote l) := by
  refine noPrimary_patch fun a ha => ?_
  split
  · exact sets_demote a
  case isFalse hsel =>
    rw [own_rows hf.stage.before ha, Bool.true_and, Bool.and_eq_true, Bool.not_eq_true',
      decide_eq_false_iff_not] at hsel
    refine Bool.eq_false_iff.mpr fun hprimary => hsel ⟨hprimary, fun he => ?_⟩
    rw [hf.same ha he, isActivePrimary_iff, hactive] at hprimary
    cases hprimary.2

theorem Found.activated (hf : Found r t l m K s) (hp : t.isPrimary = false) {x : UserRoleAssignment}
    (hx : Sole l x) :
    Sole (patchRows (fun a => a.id = t.id) { isActive := some true } l) x := by
  refine hx.patch_others (decide_eq_false fun he => ?_) fun a ha hsel => ?_
  · have hprimary := (isActivePrimary_iff.mp hx.mem.2).1
    rw [hf.same hx.mem.1 he, hp] at hprimary
    cases hprimary
  · rw [hf.same ha (of_decide_eq_true hsel)]
    simp [isActivePrimary, AssignmentPatch.set, hp]

theorem Found.dropped (hf : Found r t l m K s) (hd : Dropped t l l') (hp : t.isPrimary = false)
    (hst : Stage r.ctx.organizationId t.userId l l' m K' log s') :
    Kept r.ctx.organizationId K' log s' := by
  refine .inr ⟨t.userId, l, l', m, hst, ?_⟩
  rcases hd.unflagged hf.stage.nodup hf.mem hp hf.one with ⟨x, hx, hx'⟩ | hidle
  · exact ⟨hx'.one, hf.synced.same hx hx'⟩
  · exact ⟨one_of_idle hidle, synced_of_idle hidle⟩

theorem Found.ready (hf : Found r t l m K s) (hd : Dropped t l l') (hp : t.isPrimary = true)
    (hnext : NextIsPrimary r.ctx.organizationId t.id s) : Ready l' := by
  refine hd.flagged hf.stage.nodup hf.mem hp hf.one fun hactive => ?_
  have hnext := hnext t hf.assignment hactive hp
  rw [hf.stage.before] at hnext
  exact hnext

end

/-! ## The operations -/

theorem Reserved.member {K : List LockKey} {s s' : Db} (h : Reserved K s s') {o userId : String}
    {u : User} (hu : Accounts.member o userId s = some u) :
    ∃ v, Accounts.member o userId s' = some v := by
  rw [Accounts.member, Option.filter_eq_some_iff, decide_eq_true_eq] at hu
  obtain ⟨v, hv, ho⟩ := h.users userId u hu.1
  exact ⟨v, Option.filter_eq_some_iff.mpr ⟨hv, decide_eq_true (ho.trans hu.2)⟩⟩

theorem ofUser_member {ctx : Context} {userId : String} {v : Db} :
    (v.users.get userId).filter (ofUser ctx userId) = member ctx.organizationId userId v := by
  rw [member]
  cases h : v.users.get userId with
  | none => rfl
  | some u =>
    have hid : u.id = userId := Table.key_get h
    simp [Option.filter, ofUser, hid]

theorem demoted_none {ctx : Context} {userId : String} {l : List UserRoleAssignment} {v : Db}
    (h : rowsOf ctx.organizationId userId v = l) :
    NoPrimary (patchRows (fun a => ofAssignee ctx userId a && a.isPrimary) demote l) := by
  refine noPrimary_patch fun a ha => ?_
  split
  · exact sets_demote a
  case isFalse hp =>
    rw [own_rows h ha, Bool.true_and] at hp
    simp [isActivePrimary, hp]

section
variable {ctx : Context} {s : Db}

theorem assign_keeps (new : NewRow) (userId : String) (role : AssignableRole) (isPrimary : Bool) :
    Keeps ⟨ctx, .assign new userId role isPrimary⟩ EachPrimary
      (assignRole ctx new userId role isPrimary) [] [] s := by
  unfold assignRole findByOrganizationAndId
  refine wpe_query fun s₁ _ _ => ?_
  rw [applyAll_nil, ofUser_member]
  cases ht : member ctx.organizationId userId s₁ with
  | none => exact keeps_done (.inl rfl) _
  | some u =>
    simp only [Option.isNone_some, Bool.false_eq_true, if_false]
    unfold mutateWithAuthorityInvariants assignWithinTransaction
    simp only [Prog.bind_assoc]
    refine keeps_locked fun K s₂ hlock hi hr₂ hC => ?_
    have hst : Stage ctx.organizationId userId _ _ _ K [] s₂ := .start hlock
    obtain ⟨hone, hsynced⟩ := hi ctx.organizationId userId
    cases isPrimary with
    | true =>
      simp only [Bool.and_self, if_true, Prog.bind_assoc]
      refine hst.update (fun v hv => select_own hv)
        (fun a _ _ hset => absurd hset (by simp [sets_demote a])) fun K₃ log₃ s₃ hst₃ => ?_
      refine hst₃.insert ⟨rfl, rfl⟩ (fun _ => demoted_none rfl) (fun e he _ _ => .inl he)
        fun K₄ log₄ s₄ _ hst₄ => ?_
      simp only [newAssignment, if_true, Prog.bind_assoc]
      exact keeps_synced hst₄ (sole_append (demoted_none rfl) rfl).one fun _ _ _ _ hk =>
        keeps_checked hk (Reply.created new.id)
    | false =>
      simp only [Bool.false_and, Bool.false_eq_true, if_false]
      refine hst.insert ⟨rfl, rfl⟩ (fun hp => by cases hp) (fun e he _ _ => .inl he) fun K₃ log₃ s₃
        hfresh hst₃ => ?_
      -- the user found before the lock is still there
      obtain ⟨x, hx⟩ := hone (hC rfl (hr₂.member ht) hfresh)
      simp only [newAssignment, Bool.false_eq_true, if_false]
      exact keeps_checked (.inr ⟨userId, _, _, _, hst₃, (hx.append rfl).one,
          hsynced.same hx (hx.append rfl)⟩) (Reply.created new.id)

theorem promote_keeps (id : String) :
    Keeps ⟨ctx, .setPrimary id⟩ EachPrimary (promoteAssignment ctx id) [] [] s := by
  unfold promoteAssignment mutateWithAuthorityInvariants setPrimaryWithinTransaction
  simp only [Prog.bind_assoc]
  refine keeps_locked fun K s₁ hlock _ _ _ => ?_
  refine keeps_found hlock (fun s₂ => keeps_exclusion fun _ _ => keeps_fail (.inl rfl)) fun t l m s₂
    hid hf => ?_
  subst hid
  simp only [Prog.bind_assoc]
  refine hf.stage.update (fun v hv => select_own hv)
    (fun a _ _ hset => absurd hset (by simp [sets_demote a])) fun K₃ log₃ s₃ hst₃ => ?_
  have hnone := demoted_none hf.stage.before
  obtain ⟨t', ht', hid, hu⟩ : ∃ t' ∈ patchRows (fun a => ofAssignee ctx t.userId a && a.isPrimary)
      demote l, t'.id = t.id ∧ t'.userId = t.userId := by
    refine ⟨_, mem_patchRows.mpr ⟨t, hf.mem, rfl⟩, ?_⟩
    split <;> exact ⟨rfl, rfl⟩
  rw [← hid]
  refine hst₃.update_id ht' (fun _ b hb _ => hnone b hb) fun K₄ log₄ s₄ hst₄ => ?_
  have hu : (promote.set t').userId = t.userId := hu
  simp only [Prog.bind_assoc, hu]
  exact keeps_synced hst₄ (sole_by_id hst₃.nodup ht' hnone rfl).one fun _ _ _ _ hk =>
    keeps_checked hk Reply.ok

theorem activate_keeps (id : String) :
    Keeps ⟨ctx, .activate id⟩ EachPrimary (activateAssignment ctx id) [] [] s := by
  unfold activateAssignment mutateWithAuthorityInvariants activateWithinTransaction
  simp only [Prog.bind_assoc]
  refine keeps_locked fun K s₁ hlock _ _ _ => ?_
  refine keeps_found hlock (fun s₂ => keeps_exclusion fun _ _ => keeps_fail (.inl rfl)) fun t l m s₂
    hid hf => ?_
  subst hid
  have hflag : (AssignmentPatch.set { isActive := some true } t).isPrimary = t.isPrimary := rfl
  cases hactive : t.isActive with
  | true =>
    simp only [hactive, if_true]
    exact keeps_checked (.inl rfl) Reply.ok
  | false =>
    cases hp : t.isPrimary with
    | true =>
      have hnone := hf.demoted hactive
      have hset : isActivePrimary (AssignmentPatch.set { isActive := some true } t) = true :=
        isActivePrimary_iff.mpr ⟨hp, rfl⟩
      simp only [hactive, hp, Bool.false_eq_true, if_false, if_true, Prog.bind_assoc]
      refine hf.stage.update (fun v hv => ?_)
        (fun a _ _ hset => absurd hset (by simp [sets_demote a])) fun K₃ log₃ s₃ hst₃ => ?_
      · simp only [Bool.and_assoc]
        exact select_own hv
      have hkept : t ∈ patchRows (fun a => ofAssignee ctx t.userId a && isActivePrimary a && !decide
          (a.id = t.id)) demote l :=
        mem_kept hf.mem (by simp)
      refine hst₃.update_id hkept (fun _ b hb _ => hnone b hb) fun K₄ log₄ s₄ hst₄ => ?_
      simp only [Option.map_some, Prog.pure_eq, Prog.done_bind, hflag, hp, and_self, if_true,
        Prog.bind_assoc]
      exact keeps_synced hst₄ (sole_by_id hst₃.nodup hkept hnone hset).one fun _ _ _ _ hk =>
        keeps_checked hk Reply.ok
    | false =>
      obtain ⟨x, hx⟩ := hf.one (hf.stage.before ▸ hf.keeps t hf.assignment hactive hp)
      have hsame := hf.activated hp hx
      simp only [hactive, hp, Bool.false_eq_true, if_false, Prog.bind_assoc]
      refine hf.stage.update_id hf.mem (fun h => ?_) fun K₃ log₃ s₃ hst₃ => ?_
      · rw [isActivePrimary_iff, hflag, hp] at h
        cases h.1
      simp only [Option.map_some, Prog.pure_eq, Prog.done_bind, hflag, hp, Bool.false_eq_true,
        and_false, if_false]
      exact keeps_checked (.inr ⟨t.userId, l, _, m, hst₃, hsame.one, hf.synced.same hx hsame⟩) Reply.ok

theorem deactivate_keeps (id : String) :
    Keeps ⟨ctx, .deactivate id⟩ EachPrimary (deactivateAssignment ctx id) [] [] s := by
  unfold deactivateAssignment findAssignment
  refine wpe_query fun s₁ _ _ => ?_
  split
  · exact keeps_fail (.inl rfl)
  · unfold mutateWithEffectiveAdminPostcondition deactivateWithinTransaction
    simp only [Prog.bind_assoc]
    refine keeps_locked fun K s₂ hlock _ _ _ => ?_
    have hE : RoleCommand.mayRefuse (.deactivate id) .lastActiveAdmin := .inr (.inr rfl)
    refine keeps_found hlock (fun s₃ => keeps_checks hE (.inl rfl) Reply.ok) fun t l m s₃ hid hf => ?_
    subst hid
    simp only [Prog.bind_assoc]
    refine hf.stage.update_id hf.mem (fun h => absurd h (by simp [sets_inactive t])) fun K₄ log₄
      s₄ hst₄ => ?_
    have hflag : (AssignmentPatch.set { isActive := some false } t).isPrimary = t.isPrimary := rfl
    cases hp : t.isPrimary with
    | true =>
      simp only [hp, hflag, if_true, Prog.pure_eq, Prog.done_bind, Prog.bind_assoc]
      exact keeps_next hst₄ (hf.ready dropped_inactive hp hf.keeps) fun _ _ _ _ hk =>
        keeps_checks hE hk Reply.ok
    | false =>
      simp only [hp, hflag, Bool.false_eq_true, if_false, Prog.pure_eq, Prog.done_bind]
      exact keeps_checks hE (hf.dropped dropped_inactive hp hst₄) Reply.ok

theorem remove_keeps (id : String) :
    Keeps ⟨ctx, .remove id⟩ EachPrimary (removeAssignment ctx id) [] [] s := by
  unfold removeAssignment findAssignment
  refine wpe_query fun s₁ _ _ => ?_
  split
  · exact keeps_fail (.inl rfl)
  · unfold mutateWithEffectiveAdminPostcondition removeWithinTransaction
    simp only [Prog.bind_assoc]
    refine keeps_locked fun K s₂ hlock _ _ _ => ?_
    have hE : RoleCommand.mayRefuse (.remove id) .lastActiveAdmin := .inr (.inr rfl)
    refine keeps_found hlock (fun s₃ => keeps_checks hE (.inl rfl) Reply.ok) fun t l m s₃ hid hf => ?_
    subst hid
    simp only [Prog.bind_assoc]
    refine hf.stage.delete hf.mem fun _ K₄ log₄ s₄ hst₄ => ?_
    cases hp : t.isPrimary with
    | true =>
      simp only [hp, if_true, Prog.pure_eq, Prog.done_bind, Prog.bind_assoc]
      exact keeps_next hst₄ (hf.ready dropped_removed hp hf.keeps) fun _ _ _ _ hk =>
        keeps_checks hE hk Reply.ok
    | false =>
      simp only [hp, Bool.false_eq_true, if_false, Prog.pure_eq, Prog.done_bind]
      exact keeps_checks hE (hf.dropped dropped_removed hp hst₄) Reply.ok

theorem replaceChangedRole_keeps {r : RoleRequest} {α : Type} {userId : String}
    {l₀ l : List UserRoleAssignment} {m : Option User} {K : List LockKey} {log : List Write}
    (hst : Stage r.ctx.organizationId userId l₀ l m K log s) (hone : OnePrimary l)
    (hfail : ∀ e, Refused e → r.command.mayRefuse e) {new : NewRow} {role : Option AssignableRole}
    {current : AssignableRole} {f : Unit → Action α}
    (h : ∀ l' K' log' s', Stage r.ctx.organizationId userId l₀ l' m K' log' s' → OnePrimary l' →
      Keeps r EachPrimary (f ()) K' log' s') :
    Keeps r EachPrimary (replaceChangedRole r.ctx userId new role current >>= f) K log s := by
  unfold replaceChangedRole
  cases role with
  | none => exact h _ _ _ _ hst hone
  | some newRole =>
    dsimp only
    split
    · exact h _ _ _ _ hst hone
    · rw [Prog.bind_assoc]
      refine hst.replacePrimary ?_ fun _ l' x K' log' s' hx hst' => ?_
      · exact fun e he _ _ => hfail e he
      · exact h l' K' log' s' hst' hx.one

/-- The deactivation step leaves the assignments as they are. -/
theorem revokeDeactivated_keeps {r : RoleRequest} {α : Type} {userId : String}
    {l₀ l : List UserRoleAssignment} {m : Option User} {K : List LockKey} {log : List Write}
    (hst : Stage r.ctx.organizationId userId l₀ l m K log s) {isActive : Option Bool}
    {current : Bool} {f : Unit → Action α}
    (h : ∀ m' K' log' s', Stage r.ctx.organizationId userId l₀ l m' K' log' s' →
      Keeps r EachPrimary (f ()) K' log' s') :
    Keeps r EachPrimary (revokeDeactivated r.ctx userId isActive current >>= f) K log s := by
  unfold revokeDeactivated
  split
  · rw [Prog.bind_assoc, advanceAuthEpoch, Prog.bind_assoc]
    refine hst.updateUser fun K₁ log₁ s₁ hst₁ => ?_
    simp only [Prog.pure_eq, Prog.done_bind, Prog.bind_assoc]
    exact hst₁.deleteTokens fun _ K₂ log₂ s₂ hst₂ => h _ _ _ _ hst₂
  · exact h _ _ _ _ hst

theorem replacePrimary_keeps (userId : String) (new : NewRow) (data : UpdateUser) :
    Keeps ⟨ctx, .replacePrimary userId new data⟩ EachPrimary (updateUserRoute ctx userId new data)
      [] [] s := by
  unfold updateUserRoute findByOrganizationAndId
  split
  · exact keeps_fail (.inr (.inl rfl))
  · refine wpe_query fun s₁ _ _ => ?_
    rw [applyAll_nil, ofUser_member]
    cases member ctx.organizationId userId s₁ with
    | none => exact keeps_done (.inl rfl) _
    | some target =>
      unfold mutateWithEffectiveAdminPostcondition updateUserMutation
      simp only [Prog.bind_assoc]
      refine keeps_locked fun K s₂ hlock hi _ _ => ?_
      have hE : RoleCommand.mayRefuse (.replacePrimary userId new data) .lastActiveAdmin :=
        .inr (.inr (.inr rfl))
      have hst : Stage ctx.organizationId userId _ _ _ K [] s₂ := .start hlock
      obtain ⟨hone, hsynced⟩ := hi ctx.organizationId userId
      refine hst.updateUser fun K₃ log₃ s₃ hst₃ => ?_
      cases hm : member ctx.organizationId userId s₂ with
      | none =>
        refine keeps_checks hE (.inr ⟨userId, _, _, _, hst₃, hone, fun x u _ hu => ?_⟩) Reply.notFound
        rw [hm] at hu
        cases hu
      | some u =>
        simp only [Option.map_some, Prog.bind_assoc]
        refine replaceChangedRole_keeps (r := ⟨ctx, .replacePrimary userId new data⟩) hst₃ hone
          (fun e he => .inl he) fun l' K₄ log₄ s₄ hst₄ hone' => ?_
        refine revokeDeactivated_keeps (r := ⟨ctx, .replacePrimary userId new data⟩) hst₄
          fun m' K₅ log₅ s₅ hst₅ => ?_
        refine keeps_synced (r := ⟨ctx, .replacePrimary userId new data⟩) hst₅ hone' fun role K₆
          log₆ s₆ hk => ?_
        unfold findByOrganizationAndId
        refine wpe_query fun s₇ hr₇ _ => ?_
        exact keeps_checks hE (hk.reserved hr₇) _

end

end ExamSystem.Accounts
