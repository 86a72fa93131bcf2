import ExamSystem.PrimaryRoutes

/-!
# One primary role

Where a secondary assignment is assigned or activated only next to an active
one, and a row that is deactivated or removed while inactive is not flagged
primary over another active row, every run keeps one active primary for each
user with an active assignment, and no operation runs into the index of active
primaries.
-/

namespace ExamSystem.Accounts

open Interleaving

/-! ## Runs -/

theorem route_keeps (r : RoleRequest) (s : Db) : Keeps r EachPrimary r.route [] [] s := by
  obtain ⟨ctx, command⟩ := r
  cases command with
  | assign new userId role isPrimary => exact assign_keeps new userId role isPrimary
  | setPrimary id => exact promote_keeps id
  | activate id => exact activate_keeps id
  | deactivate id => exact deactivate_keeps id
  | remove id => exact remove_keeps id
  | replacePrimary userId new data => exact replacePrimary_keeps userId new data

section
variable {o userId : String} {l₀ l : List UserRoleAssignment} {m : Option User}
    {K K' : List LockKey} {log : List Write} {s : Db}

theorem Stage.keys (h : Stage o userId l₀ l m K log s) (hK : ∀ k ∈ K, k ∈ K') :
    Stage o userId l₀ l m K' log s :=
  ⟨hK _ h.lock, h.before, h.rows, h.member, fun w hw => (h.within w hw).keys hK⟩

theorem Kept.keys (h : Kept o K log s) (hK : ∀ k ∈ K, k ∈ K') : Kept o K' log s := by
  rcases h with hnil | ⟨userId, l₀, l, m, hst, hkept⟩
  · exact .inl hnil
  · exact .inr ⟨userId, l₀, l, m, hst.keys hK, hkept⟩

theorem Kept.eachPrimary (h : Kept o K log s) (hs : EachPrimary s) : EachPrimary (applyAll s log) := by
  rcases h with rfl | ⟨userId, l₀, l, m, hst, hone, hsynced⟩
  · exact hs
  · intro o' userId'
    by_cases heq : o' = o ∧ userId' = userId
    · rw [heq.1, heq.2, hst.rows, hst.member]
      exact ⟨hone, hsynced⟩
    · rw [rowsOf_within hst.within heq, member_within hst.within heq]
      exact hs o' userId'

theorem Kept.reserves (h : Kept o K log s) (hlocked : ∀ w ∈ log, ∀ k ∈ w.keys, k ∈ K)
    (hapart : ∀ k ∈ K, k ∉ K') :
    Reserved K' s (applyAll s log) := by
  rcases h with rfl | ⟨userId, l₀, l, m, hst, _⟩
  · exact .refl K' s
  · have hother : ∀ o', .authority o' ∈ K' → ∀ userId', ¬ (o' = o ∧ userId' = userId) :=
      fun o' ho' _ he => hapart _ hst.lock (he.1 ▸ ho')
    exact {
      rows := .of_unlocked fun w hw k hk => hapart k (hlocked w hw k hk)
      users := fun k u hu => users_within hst.within hu
      organizations := fun o' ho' =>
        ⟨fun i => rowsOf_within hst.within (hother o' ho' i),
          fun i => member_within hst.within (hother o' ho' i)⟩ }

end

def roles : Outline RoleRequest.program (fun c : RoleCommit => c.request.KeepsPrimary c.before) where
  Inv := EachPrimary
  Rely := Reserved
  Post r reply K log s := r.KeepsPrimary s → (∀ e, reply = .error e → r.command.mayRefuse e) ∧
    Kept r.ctx.organizationId K log s
  refl := Reserved.refl
  trans _ _ _ _ := Reserved.trans
  start r s _ := by
    refine wp_mono (fun reply K log s _ hp hC => ?_) (wp_settle ?_ ?_ ?_ (route_keeps r s))
    · cases reply with
      | ok a => exact ⟨fun e he => (by cases he), hp hC⟩
      | error e =>
        refine ⟨fun e' he => ?_, .inl hp.1⟩
        cases he
        exact hp.2 hC
    · exact fun _ _ _ _ => Reserved.trans
    · exact fun _ _ _ _ => Reserved.mono
    · exact fun _ _ _ _ _ hK hQ hC => (hQ hC).keys hK
  commit c held log hi hp ha hk ho _ hgood := by
    obtain ⟨_, hkept⟩ := hp hgood
    rw [ha]
    exact ⟨hkept.eachPrimary hi, fun K hK => hkept.reserves hk fun k hk' hkK => ho k hk' (hK k hkK)⟩

/-! ## The authority of a user -/

theorem listActiveForUser_eq (ctx : Context) (userId : String) (s : Db) :
    listActiveForUser ctx userId s = actives (rowsOf ctx.organizationId userId s) := by
  rw [actives, rowsOf, List.filter_filter]
  refine List.filter_congr fun a _ => ?_
  unfold ofAssignee
  rw [Bool.and_comm]

theorem authority_of_one {l : List UserRoleAssignment} (h : OnePrimary l) {o userId : String}
    {e : AuthorityFailure} (he : deriveAssignmentAuthority (actives l) o userId = .error e) :
    e ≠ .zeroPrimaryWithActive ∧ e ≠ .multiplePrimary := by
  have hactives : (actives l).filter (·.isActive) = actives l := by
    rw [actives, List.filter_filter]
    simp
  unfold deriveAssignmentAuthority at he
  rw [hactives] at he
  split at he
  · cases he
    decide
  · cases ha : actives l with
    | nil =>
      rw [ha] at he
      cases he
      decide
    | cons a as =>
      have hmem : a ∈ actives l := by
        rw [ha]
        exact List.mem_cons_self
      obtain ⟨x, hx⟩ := h ⟨a, mem_actives.mp hmem⟩
      simp only [sole_actives.mp hx] at he
      rw [ha] at he
      dsimp only at he
      split at he <;> cases he
      decide

/-! ## The property of a run -/

/-- A state in which every user has one primary, and the authority of every user follows. -/
structure PrimarySafe (s : Db) : Prop where
  primary : EachPrimary s
  authority : ∀ ctx userId e, deriveAssignmentAuthority
    (listActiveForUser ctx userId s) ctx.organizationId userId = .error e →
    e ≠ .zeroPrimaryWithActive ∧ e ≠ .multiplePrimary

structure OnePrimaryEach (db : Db) (es : List (Event RoleRequest)) : Prop where
  final : PrimarySafe (roleRun db es).committed
  states : ∀ c ∈ (roleRun db es).history, PrimarySafe c.after
  refusals : ∀ c ∈ (roleRun db es).history, ∀ e, c.reply = .error e →
    c.request.command.mayRefuse e ∧ e ≠ .uniqueViolation "user_role_assignments_active_primary_unique"

theorem EachPrimary.safe {s : Db} (h : EachPrimary s) : PrimarySafe s where
  primary := h
  authority ctx userId e he := by
    rw [listActiveForUser_eq] at he
    exact authority_of_one (h ctx.organizationId userId).1 he

theorem Refused.not_primary {e : AccountError} (h : Refused e) :
    e ≠ .uniqueViolation "user_role_assignments_active_primary_unique" := by
  rintro rfl
  rcases h with ⟨index, he, hne⟩ | ⟨constraint, he⟩
  · exact hne (AccountError.uniqueViolation.inj he).symm
  · cases he

theorem mayRefuse_not_primary {c : RoleCommand} {e : AccountError} (h : c.mayRefuse e) :
    e ≠ .uniqueViolation "user_role_assignments_active_primary_unique" := by
  cases c with
  | assign new userId role isPrimary =>
    rcases h with h | ⟨u, a, m, rfl⟩
    · exact h.not_primary
    · exact fun he => by cases he
  | replacePrimary userId new data =>
    rcases h with h | rfl | ⟨u, a, m, rfl⟩ | rfl
    · exact h.not_primary
    all_goals exact fun he => by cases he
  | _ => rcases h with rfl | ⟨u, a, m, rfl⟩ | rfl <;> exact fun he => by cases he

/-- In a run whose operations are each executed in a state that lets them, every user keeps
one primary. -/
theorem each_user_has_one_primary {db : Db} (h : EachPrimary db) (es : List (Event RoleRequest))
    (hgood : ∀ c ∈ (roleRun db es).history, c.request.KeepsPrimary c.before) :
    OnePrimaryEach db es := by
  obtain ⟨hfinal, hcommits, _⟩ := roles.sound h es hgood
  refine ⟨EachPrimary.safe hfinal, fun c hc => EachPrimary.safe (hcommits c hc).after,
    fun c hc e he => ?_⟩
  obtain ⟨held, log, hpost, _⟩ := (hcommits c hc).post
  have hrefuse := (hpost (hgood c hc)).1 e he
  exact ⟨hrefuse, mayRefuse_not_primary hrefuse⟩

/-! ## Runs on one user -/

instance (o id : String) (db : Db) : Decidable (NextIsPrimary o id db) :=
  decidable_of_iff (∀ a ∈ assignmentOf o id db, a.isActive = false → a.isPrimary = true →
    ∀ n ∈ nextActive (rowsOf o a.userId db), n.isPrimary = true) Iff.rfl

instance (r : RoleRequest) (db : Db) : Decidable (r.KeepsPrimary db) :=
  match r with
  | ⟨ctx, .assign _ userId role isPrimary⟩ =>
    decidable_of_iff (isPrimary = false → (member ctx.organizationId userId db).isSome = true →
      (∀ a ∈ rowsOf ctx.organizationId userId db, a.role ≠ role) →
      ∃ a ∈ rowsOf ctx.organizationId userId db, a.isActive = true)
      (by rw [Option.isSome_iff_exists]; exact Iff.rfl)
  | ⟨_, .setPrimary _⟩ => isTrue trivial
  | ⟨ctx, .activate id⟩ =>
    decidable_of_iff (∀ a ∈ assignmentOf ctx.organizationId id db, a.isActive = false →
      a.isPrimary = false → ∃ b ∈ rowsOf ctx.organizationId a.userId db, b.isActive = true) Iff.rfl
  | ⟨ctx, .deactivate id⟩ => inferInstanceAs (Decidable (NextIsPrimary ctx.organizationId id db))
  | ⟨ctx, .remove id⟩ => inferInstanceAs (Decidable (NextIsPrimary ctx.organizationId id db))
  | ⟨_, .replacePrimary _ _ _⟩ => isTrue trivial

def bob : User := ⟨"bob", "org", "bob", "pw", "Bob", .teacher, true, none, 0⟩

def rostered : Db where
  users := ⟨[ada, bob], by decide⟩
  assignments :=
    ⟨[⟨"ada-admin", "org", "ada", .admin, true, true, 0⟩, ⟨"bob-teacher", "org", "bob", .teacher,
          true, true, 0⟩], by decide⟩
  profiles := Table.empty
  tokens := Table.empty
  invitations := Table.empty

theorem single_primary {a : UserRoleAssignment} {u : User} (hp : isActivePrimary a = true)
    (hr : u.role = a.role) :
    OnePrimary [a] ∧ RoleSynced [a] (some u) := by
  have hsole : Sole [a] a := by simp [Sole, hp]
  refine ⟨hsole.one, fun x v hx hv => ?_⟩
  rw [← Option.some.inj hv, hr, hsole.unique hx.mem.1 hx.mem.2]

theorem rostered_primary : EachPrimary rostered := by
  intro o userId
  by_cases hu : o = "org" ∧ (userId = "ada" ∨ userId = "bob")
  · obtain ⟨rfl, rfl | rfl⟩ := hu
    · have hrows : rowsOf "org" "ada" rostered = [⟨"ada-admin", "org", "ada", .admin, true, true,
          0⟩] := by decide
      have hmember : member "org" "ada" rostered = some ada := by decide
      rw [hrows, hmember]
      exact single_primary rfl rfl
    · have hrows : rowsOf "org" "bob" rostered = [⟨"bob-teacher", "org", "bob", .teacher, true,
          true, 0⟩] := by decide
      have hmember : member "org" "bob" rostered = some bob := by decide
      rw [hrows, hmember]
      exact single_primary rfl rfl
  · have hnil : rowsOf o userId rostered = [] := by
      refine List.filter_eq_nil_iff.mpr fun a ha hp => hu ?_
      simp only [decide_eq_true_eq] at hp
      rcases List.mem_cons.mp ha with rfl | ha
      · exact ⟨hp.1.symm, .inl hp.2.symm⟩
      · rw [List.mem_singleton.mp ha] at hp
        exact ⟨hp.1.symm, .inr hp.2.symm⟩
    rw [hnil]
    exact ⟨one_of_idle (by simp), synced_of_idle (by simp)⟩

def inTurn (commands : List RoleCommand) : List (Event RoleRequest) :=
  commands.zipIdx.flatMap fun (c, i) => .start ⟨⟨"org", "ada"⟩, c⟩ :: List.replicate 20 (.advance i)

/-- A second role becomes the primary one, and the former primary is deactivated, activated
again and removed. -/
theorem each_user_has_one_primary_changed :
    let es := inTurn [.assign ⟨"bob-proctor", 1⟩ "bob" .proctor false, .setPrimary "bob-proctor",
      .deactivate "bob-teacher", .activate "bob-teacher", .remove "bob-proctor"]
    (roleRun rostered es).history.map (·.reply) = [.ok (.created "bob-proctor"), .ok .ok, .ok .ok,
      .ok .ok, .ok .ok] ∧ OnePrimaryEach rostered es := by
  intro es
  have hkeeps : ((roleRun rostered es).history.all fun c => decide
      (c.request.KeepsPrimary c.before)) = true := by decide +kernel
  exact ⟨by decide +kernel,
    each_user_has_one_primary rostered_primary es fun c hc => of_decide_eq_true
      (List.all_eq_true.mp hkeeps c hc)⟩

/-- The former primary cannot be removed after the primary was replaced, and a
role assigned when no assignment is active is no primary. -/
theorem former_primary_not_removed :
    let replaced := inTurn [.assign ⟨"bob-proctor", 1⟩ "bob" .proctor false,
      .replacePrimary "bob" ⟨"bob-grader", 2⟩ { role := some .grader }, .remove "bob-teacher"]
    let reassigned := inTurn [.deactivate "bob-teacher",
      .assign ⟨"bob-proctor", 1⟩ "bob" .proctor false]
    EachPrimary rostered ∧ ¬ OnePrimaryEach rostered replaced ∧
      ¬ OnePrimaryEach rostered reassigned := by
  intro replaced reassigned
  have hviolation : ((roleRun rostered replaced).history.any fun c =>
      decide (c.reply = .error (.uniqueViolation "user_role_assignments_active_primary_unique"))) =
        true := by decide +kernel
  have hzero : deriveAssignmentAuthority (listActiveForUser ⟨"org",
      "ada"⟩ "bob" (roleRun rostered reassigned).committed) "org" "bob" =
      .error .zeroPrimaryWithActive := by decide +kernel
  refine ⟨rostered_primary, fun h => ?_, fun h => ?_⟩
  · obtain ⟨c, hc, hreply⟩ := List.any_eq_true.mp hviolation
    exact (h.refusals c hc _ (of_decide_eq_true hreply)).2 rfl
  · exact (h.final.authority ⟨"org", "ada"⟩ "bob" _ hzero).1 rfl

end ExamSystem.Accounts
