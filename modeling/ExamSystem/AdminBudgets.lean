import ExamSystem.AdminFences

/-!
# One activation a transaction

No command of the role seams makes more than one assignment active.
-/

namespace ExamSystem.Accounts

open Interleaving

section
variable {iso : Isolation} {ctx : Context} {α : Type} {n : Nat}

def Inactive (p : Action α) : Prop := p.Emits fun w => w.activates = none

theorem budget_inactive {p : Action α} (h : Inactive p) : p.Budget Write.isActivation n :=
  Prog.budget_of_emits (Prog.emits_imp (fun w hw => by simp [Write.isActivation, hw]) h)

theorem budget_after {β : Type} {p : Action α} {f : α → Action β} (hp : Inactive p)
    (hf : ∀ a, (f a).Budget Write.isActivation n) :
    (p >>= f).Budget Write.isActivation n := by
  have h := Prog.budget_bind (budget_inactive (n := 0) hp) hf
  rwa [Nat.zero_add] at h

theorem budget_before {β : Type} {p : Action α} {f : α → Action β}
    (hp : p.Budget Write.isActivation n) (hf : ∀ a, Inactive (f a)) :
    (p >>= f).Budget Write.isActivation n :=
      Prog.budget_bind hp fun a => budget_inactive (n := 0) (hf a)

theorem budget_insertRow {w : Write} {check : Db → Option AccountError} :
    (insertRow w check).Budget Write.isActivation 1 := by
  intro db
  beta_reduce
  cases hc : check db with
  | some e =>
    constructor
    · simp
    · exact trivial
  | none =>
    constructor
    · simpa using List.countP_le_length (p := Write.isActivation) (l := [w])
    · exact trivial

theorem budget_updateAssignment {k : String} {patch : AssignmentPatch} :
    (updateAssignments iso (fun a => a.id = k) patch).Budget Write.isActivation 1 := by
  refine budget_before ?_ fun _ => trivial
  refine budget_after emits_snapshot fun snap db => ?_
  have hkey : ∀ x ∈ again (fun a : UserRoleAssignment => decide (a.id = k))
    (snap.assignments.rows.filter fun a => decide (a.id = k))
      db.assignments, x.id = k := fun x hx => by simpa using (mem_again hx).2.1
  constructor
  · beta_reduce
    rcases Table.at_most_one again_nodup hkey with h | ⟨x, h, _⟩
    · rw [h]
      simp
    · rw [h]
      exact List.countP_le_length
  · dsimp only
    split
    · exact trivial
    · split <;> exact trivial

theorem inactive_demote {p : UserRoleAssignment → Bool} : Inactive (updateAssignments iso p demote) :=
  emits_updateAssignments fun _ _ => rfl

theorem inactive_sync {userId : String} : Inactive (syncUsersRoleFromPrimary iso ctx userId) :=
  emits_sync fun _ => rfl

theorem inactive_revokeDeactivated {id : String} {isActive : Option Bool} {current : Bool} :
    Inactive (revokeDeactivated ctx id isActive current) := by
  unfold revokeDeactivated
  split
  · exact Prog.emits_bind (Prog.emits_bind (emits_updateUser rfl) fun _ => trivial) fun _ =>
      Prog.emits_bind (emits_deleteTokens fun _ => rfl) fun _ => trivial
  · exact trivial

theorem budget_insertAssignment {a : UserRoleAssignment} :
    (insertAssignment a).Budget Write.isActivation 1 :=
  budget_before budget_insertRow fun _ => trivial

theorem budget_assign {new : NewRow} {userId : String} {role : AssignableRole}
    {isPrimary isActive : Bool} :
    (assignWithinTransaction iso ctx new userId role isPrimary isActive).Budget
      Write.isActivation 1 := by
  unfold assignWithinTransaction
  split
  · exact budget_after inactive_demote fun _ => budget_insertAssignment
  · exact budget_insertAssignment

theorem budget_ensurePrimary {new : NewRow} {userId : String} {role : AssignableRole} :
    (ensurePrimaryAssignmentWithinTransaction iso ctx new userId role).Budget Write.isActivation 1 := by
  refine budget_after inactive_demote fun _ => budget_after (emits_query _) fun existing => ?_
  cases existing with
  | some e => exact budget_updateAssignment
  | none => exact budget_before budget_insertAssignment fun _ => trivial

theorem budget_setPrimary {assignmentId : String} :
    (setPrimaryWithinTransaction iso ctx assignmentId).Budget Write.isActivation 1 := by
  refine budget_after (emits_query _) fun target => ?_
  cases target with
  | none => exact trivial
  | some t => exact budget_after inactive_demote fun _ => budget_updateAssignment

theorem budget_activate {assignmentId : String} :
    (activateWithinTransaction iso ctx assignmentId).Budget Write.isActivation 1 := by
  refine budget_after (emits_query _) fun before => ?_
  cases before with
  | none => exact trivial
  | some b =>
    dsimp only
    split
    · exact trivial
    · split
      · exact budget_after inactive_demote fun _ => budget_before budget_updateAssignment fun _ =>
          trivial
      · exact budget_before budget_updateAssignment fun _ => trivial

theorem budget_authorityInvariants {mutate : Action α} (h : mutate.Budget Write.isActivation 1) :
    (mutateWithAuthorityInvariants ctx mutate).Budget Write.isActivation 1 :=
  budget_after (Prog.emits_lock _) fun _ => budget_before h fun _ =>
    Prog.emits_bind emits_exclusion fun _ => trivial

theorem budget_effectiveAdminPostcondition {mutate : Action α}
    (h : mutate.Budget Write.isActivation 1) :
    (mutateWithEffectiveAdminPostcondition ctx mutate).Budget Write.isActivation 1 :=
  budget_after (Prog.emits_lock _) fun _ => budget_before h fun _ =>
    Prog.emits_bind emits_exclusion fun _ => Prog.emits_bind emits_effectiveAdmin fun _ => trivial

end

/-! ## The commands -/

section
variable (ctx : Context)

theorem budget_createUser (id : String) (new : NewRow) (data : CreateUser) :
    (createUser ctx id new data).Budget Write.isActivation 1 := by
  refine budget_before (budget_authorityInvariants ?_) fun _ => trivial
  exact budget_after (emits_createUnique rfl) fun _ => budget_before budget_assign fun _ => trivial

theorem budget_acceptInvitation (id : String) (new : NewRow) (data : AcceptInvitation) (now : Int) :
    (acceptInvitation ctx id new data now).Budget Write.isActivation 1 := by
  refine budget_before (budget_authorityInvariants ?_) fun created => ?_
  · refine budget_after (emits_updateInvitations fun _ _ => rfl) fun invitation => ?_
    cases invitation with
    | none => exact trivial
    | some i => exact budget_after (emits_createUnique rfl) fun _ =>
      budget_before budget_assign fun _ => trivial
  · cases created <;> exact trivial

theorem budget_promoteAssignment (assignmentId : String) :
    (promoteAssignment ctx assignmentId).Budget Write.isActivation 1 := by
  refine budget_before
    (budget_authorityInvariants (budget_before budget_setPrimary fun value => ?_)) fun promoted => ?_
  · cases value with
    | none => exact trivial
    | some value => exact Prog.emits_bind inactive_sync fun _ => trivial
  · split <;> exact trivial

theorem budget_activateAssignment (assignmentId : String) :
    (activateAssignment ctx assignmentId).Budget Write.isActivation 1 := by
  refine budget_before (budget_authorityInvariants (budget_before budget_activate fun result => ?_))
    fun activated => ?_
  · cases result with
    | none => exact trivial
    | some result =>
      dsimp only
      split
      · exact Prog.emits_bind inactive_sync fun _ => trivial
      · exact trivial
  · split <;> exact trivial

theorem budget_updateUserMutation (id : String) (new : NewRow) (data : UpdateUser) (target : User) :
    (updateUserMutation ctx id new data target).Budget Write.isActivation 1 := by
  refine budget_after (emits_updateUser rfl) fun updated => ?_
  cases updated with
  | none => exact trivial
  | some _ =>
    refine budget_before ?_ fun _ => Prog.emits_bind inactive_revokeDeactivated fun _ =>
      Prog.emits_bind inactive_sync fun _ => emits_query _
    unfold replaceChangedRole
    split
    · exact trivial
    · split
      · exact trivial
      · refine budget_before ?_ fun _ => trivial
        exact budget_after (emits_updateAssignments fun _ _ => rfl) fun _ => budget_ensurePrimary

end

end ExamSystem.Accounts
