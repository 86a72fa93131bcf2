import ExamSystem.Outcomes
import ExamSystem.AccountCommits
import ExamSystem.PrimaryViews

/-!
# The statements of an operation on one user's assignments

What a transaction that holds the organization's lock knows between two of its
statements: the rows of the user when it took the lock, the rows as it has
rewritten them, and that its writes are about this user only.
-/

namespace ExamSystem.Accounts

open Interleaving

/-! ## Statements that may fail -/

section
variable {Rely : List LockKey → Db → Db → Prop} {Inv : Db → Prop} {α β : Type}
    {Q : β → List LockKey → List Write → Db → Prop} {E : AccountError → Db → Prop}
    {held : List LockKey} {log : List Write} {s : Db}

theorem wpe_query {q : Db → α} {f : α → Action β}
    (h : ∀ s', Rely held s s' → Inv s' → (f (q (applyAll s' log))).wpe Rely Inv Q E held log s') :
    (query .readCommitted q >>= f).wpe Rely Inv Q E held log s := by
  intro s' hr hi
  rw [List.append_nil]
  exact h s' hr hi

theorem wpe_lock {ks : List LockKey} {f : Unit → Action β}
    (h : ∀ s', Rely held s s' → Inv s' → (f ()).wpe Rely Inv Q E (ks ++ held) log s') :
    (Prog.lock ks >>= f).wpe Rely Inv Q E held log s := by
  intro s' hr hi
  rw [List.append_nil]
  have hks : Machine.needs (fun _ : Db => ks) (fun _ => ([] : List Write)) (applyAll s' log) = ks :=
    List.append_nil ks
  rw [hks]
  exact h s' hr hi

theorem wpe_modify [DecidableEq α] {key : α → String} {table : Db → Table key}
    {rowKeys : α → List LockKey} {p : Db → α → Bool} {write : α → List Write}
    {check : Db → List α → Option AccountError} {f : List α → Action β}
    (h : ∀ s₁, Rely held s s₁ → Inv s₁ → ∀ s₂, Rely held s₁ s₂ → Inv s₂ →
      ∀ found rows, found = (table (applyAll s₁ log)).rows.filter (p (applyAll s₁ log)) →
      rows = again (p (applyAll s₂ log)) found (table (applyAll s₂ log)) →
      check (applyAll s₂ log) rows = none ∧
      (f rows).wpe Rely Inv Q E (found.flatMap rowKeys ++ (rows.flatMap write).flatMap Write.keys ++
          held) (log ++ rows.flatMap write) s₂) :
    (modifyRows table .readCommitted rowKeys p write check >>= f).wpe Rely Inv Q E held log s := by
  intro s₁ hr₁ hi₁ s₂ hr₂ hi₂
  obtain ⟨hc, hnext⟩ := h s₁ hr₁ hi₁ s₂ hr₂ hi₂ _ _ rfl rfl
  simp only [List.append_nil, id, hc, Isolation.isRepeatable, Bool.false_eq_true, false_and, if_false]
  exact hnext

theorem wpe_insertRow {w : Write} {check : Db → Option AccountError} {f : Unit → Action β}
    (h : ∀ s', Rely held s s' → Inv s' → check (applyAll s' log) = none →
      (f ()).wpe Rely Inv Q E (w.keys ++ w.keys ++ held) (log ++ [w]) s')
    (hfail : ∀ e s', Rely held s s' → check (applyAll s' log) = some e → ∀ s'', E e s'') :
    (insertRow w check >>= f).wpe Rely Inv Q E held log s := by
  intro s' hr hi
  cases hc : check (applyAll s' log) with
  | some e =>
    simp only [hc]
    exact fun s'' _ _ => hfail e s' hr hc s''
  | none =>
    have hnext := h s' hr hi hc
    simp only [Machine.needs, hc, Option.isNone_none, if_true, List.flatMap_cons, List.flatMap_nil,
      List.append_nil]
    exact hnext

end

/-! ## Between two statements -/

/-- What is known between two statements: `l₀` are the committed rows of the user,
`l` and `m` its rows and the user as the transaction sees them. -/
structure Stage (o userId : String) (l₀ l : List UserRoleAssignment) (m : Option User)
    (K : List LockKey) (log : List Write) (s : Db) :
    Prop where
  lock : .authority o ∈ K
  before : rowsOf o userId s = l₀
  rows : rowsOf o userId (applyAll s log) = l
  member : member o userId (applyAll s log) = m
  within : ∀ w ∈ log, w.Within o userId K s

section
variable {o userId : String} {l₀ l : List UserRoleAssignment} {m : Option User}
    {K K' : List LockKey} {log ws : List Write} {s s' : Db}

theorem Stage.start (h : .authority o ∈ K) :
    Stage o userId (rowsOf o userId s) (rowsOf o userId s) (Accounts.member o userId s) K [] s :=
  ⟨h, rfl, rfl, rfl, by simp⟩

theorem Stage.reserved (h : Stage o userId l₀ l m K log s) (hr : Reserved K s s') :
    Stage o userId l₀ l m K log s' where
  lock := h.lock
  before := ((hr.organizations o h.lock).rows userId).trans h.before
  rows := (rowsOf_congr ((hr.organizations o h.lock).rows userId)).trans h.rows
  member := (member_congr ((hr.organizations o h.lock).members userId)).trans h.member
  within w hw := (h.within w hw).protected hr.rows

theorem Stage.nodup (h : Stage o userId l₀ l m K log s) : (l.map (·.id)).Nodup := by
  rw [← h.rows]
  exact rowsOf_nodup

/-- After the writes `ws`. -/
theorem Stage.append (h : Stage o userId l₀ l m K log s) (hK : ∀ k ∈ K, k ∈ K')
    (hw : ∀ w ∈ ws, w.Within o userId K' s) {l' : List UserRoleAssignment} {m' : Option User}
    (hrows : rowsOf o userId (applyAll (applyAll s log) ws) = l')
    (hmember : Accounts.member o userId (applyAll (applyAll s log) ws) = m') :
    Stage o userId l₀ l' m' K' (log ++ ws) s where
  lock := hK _ h.lock
  before := h.before
  rows := by rw [applyAll_append]; exact hrows
  member := by rw [applyAll_append]; exact hmember
  within w hm := by
    rcases List.mem_append.mp hm with hm | hm
    · exact (h.within w hm).keys hK
    · exact hw w hm

end

/-! ## Updates of assignments -/

theorem set_set (patch : AssignmentPatch) (a : UserRoleAssignment) :
    patch.set (patch.set a) = patch.set a := by
  obtain ⟨isPrimary, isActive⟩ := patch
  cases isPrimary <;> cases isActive <;> rfl

theorem sets_demote (a : UserRoleAssignment) : isActivePrimary (demote.set a) = false := rfl

theorem sets_inactive (a : UserRoleAssignment) :
    isActivePrimary (AssignmentPatch.set { isActive := some false } a) = false := Bool.and_false _

section
variable {o userId : String} {l : List UserRoleAssignment} {p : UserRoleAssignment → Bool}
    {patch : AssignmentPatch} {v : Db}

theorem rowsOf_updates (xs : List UserRoleAssignment) :
    rowsOf o userId (applyAll v (xs.flatMap fun a => [Write.updateAssignment a.userId a.id patch])) =
      patchRows (fun b => xs.any fun a => b.userId = a.userId ∧ b.id = a.id) patch
        (rowsOf o userId v) := by
  induction xs generalizing v with
  | nil => exact (patchRows_id fun _ _ h => by cases h).symm
  | cons x xs ih =>
    rw [List.flatMap_cons, List.singleton_append, applyAll_cons, ih, rowsOf_apply, Write.onRows,
      patchRows, patchRows, List.map_map]
    refine List.map_congr_left fun b _ => ?_
    simp only [Function.comp, List.any_cons]
    by_cases hx : b.userId = x.userId ∧ b.id = x.id
    · have hset : (patch.set b).userId = b.userId ∧ (patch.set b).id = b.id := ⟨rfl, rfl⟩
      simp only [hx.1, hx.2, hset.1, hset.2, and_self, decide_true, if_true, Bool.true_or]
      split
      · exact set_set patch b
      · rfl
    · simp only [hx, decide_false, if_false, Bool.false_or, Bool.false_eq_true]

theorem rowsOf_selected (h : rowsOf o userId v = l) :
    rowsOf o userId
      (applyAll v ((l.filter p).flatMap fun a => [Write.updateAssignment a.userId a.id patch])) =
      patchRows p patch l := by
  rw [rowsOf_updates, h]
  refine patchRows_congr fun b hb => ?_
  rw [Bool.eq_iff_iff, List.any_eq_true]
  constructor
  · rintro ⟨a, ha, he⟩
    obtain ⟨ha, hp⟩ := List.mem_filter.mp ha
    have hsame : b = a := List.inj_on_of_nodup_map (h ▸ rowsOf_nodup) hb ha (of_decide_eq_true he).2
    rw [hsame]
    exact hp
  · intro hp
    exact ⟨b, List.mem_filter.mpr ⟨hb, hp⟩, by simp⟩

theorem member_assignments (xs : List UserRoleAssignment) (write : UserRoleAssignment → Write)
    (hw : ∀ a m, (write a).onMember o userId m = m) :
    member o userId (applyAll v (xs.flatMap fun a => [write a])) = member o userId v := by
  refine applyAll_invariant (P := fun (t : Db) => member o userId t = member o userId v) ?_ rfl
  intro w hm t ht
  obtain ⟨a, _, hm⟩ := List.mem_flatMap.mp hm
  rw [member_apply, ht, List.mem_singleton.mp hm, hw]

theorem again_selected (h : rowsOf o userId v = l) :
    again p (l.filter p) v.assignments = l.filter p := by
  have hsame : ∀ r ∈ l.filter p, v.assignments.get r.id = some r := by
    intro r hr
    rw [← h] at hr
    exact (mem_rowsOf.mp (List.mem_filter.mp hr).1).1
  rw [again, List.filterMap_congr hsame, List.filterMap_some, List.filter_filter]
  simp

end

section
variable {o userId : String} {l : List UserRoleAssignment} {t : UserRoleAssignment} {ctx : Context}
    {q : UserRoleAssignment → Bool} {v : Db}

theorem select_own (h : rowsOf ctx.organizationId userId v = l) :
    (v.assignments.rows.filter fun a => ofAssignee ctx userId a && q a) = l.filter fun a =>
      ofAssignee ctx userId a && q a := by
  rw [← h, rowsOf, List.filter_filter]
  refine List.filter_congr fun a _ => ?_
  unfold ofAssignee
  by_cases ha : a.organizationId = ctx.organizationId ∧ a.userId = userId <;> simp [ha]

theorem find_own (h : rowsOf ctx.organizationId userId v = l) :
    (v.assignments.rows.find? fun a => ofAssignee ctx userId a && q a) = l.find? q := by
  rw [← h, rowsOf, List.find?_filter]
  congr 1
  funext a
  rw [Bool.eq_iff_iff]
  simp [ofAssignee]

theorem own_rows (h : rowsOf ctx.organizationId userId v = l) {a : UserRoleAssignment} (ha : a ∈ l) :
    ofAssignee ctx userId a = true := by
  rw [← h] at ha
  obtain ⟨_, ho, hu⟩ := mem_rowsOf.mp ha
  simp [ofAssignee, ho, hu]

theorem select_id (h : rowsOf o userId v = l) (ht : t ∈ l) :
    (v.assignments.rows.filter fun a => decide (a.id = t.id)) = [t] ∧
    (l.filter fun a => decide (a.id = t.id)) = [t] := by
  have hget : v.assignments.get t.id = some t := (mem_rowsOf.mp (h ▸ ht)).1
  have hall : (v.assignments.rows.filter fun a => decide (a.id = t.id)) = [t] :=
    Table.filter_unique hget (by simp) fun x _ hx => of_decide_eq_true hx
  refine ⟨hall, ?_⟩
  obtain ⟨_, hto, htu⟩ := mem_rowsOf.mp (h ▸ ht)
  rw [← h, rowsOf, List.filter_comm, hall]
  simp [hto, htu]

end

section
variable {o userId : String} {l₀ l : List UserRoleAssignment} {m : Option User} {K : List LockKey}
    {log : List Write} {s : Db} {Inv : Db → Prop} {β : Type}
    {Q : β → List LockKey → List Write → Db → Prop} {E : AccountError → Db → Prop}

/-- An update of rows of the user that leaves one active primary violates nothing. -/
theorem Stage.update (h : Stage o userId l₀ l m K log s) {p : UserRoleAssignment → Bool}
    {patch : AssignmentPatch}
    (hp : ∀ v, rowsOf o userId v = l → v.assignments.rows.filter p = l.filter p)
    (hfree : ∀ a ∈ l, p a = true → isActivePrimary (patch.set a) = true → ∀ b ∈ l, b.id ≠ a.id →
      isActivePrimary b = false) {f : Option UserRoleAssignment → Action β}
    (hnext : ∀ K' log' s', Stage o userId l₀ (patchRows p patch l) m K' log' s' →
      (f ((l.filter p).head?.map patch.set)).wpe Reserved Inv Q E K' log' s') :
    (updateAssignments .readCommitted p patch >>= f).wpe Reserved Inv Q E K log s := by
  rw [updateAssignments, Prog.bind_assoc]
  refine wpe_modify fun s₁ h₁ _ s₂ h₂ _ found rows hfound hrows => ?_
  have hst₁ := h.reserved h₁
  have hst₂ := hst₁.reserved h₂
  rw [hp _ hst₁.rows] at hfound
  rw [hfound, again_selected hst₂.rows] at hrows
  subst hfound hrows
  have hown : ∀ a ∈ l.filter p, a ∈ rowsOf o userId (applyAll s₂ log) :=
    fun a ha => hst₂.rows.symm ▸ (List.mem_filter.mp ha).1
  constructor
  · rw [if_neg]
    intro hany
    obtain ⟨a, ha, htaken⟩ := List.any_eq_true.mp hany
    obtain ⟨_, hao, hau⟩ := mem_rowsOf.mp (hown a ha)
    simp only [primaryTaken, Bool.and_eq_true, List.any_eq_true, decide_eq_true_eq] at htaken
    obtain ⟨hset, b, hb, hne, hbo, hbu, hprimary⟩ := htaken
    have hbl : b ∈ l := hst₂.rows ▸ mem_rowsOf.mpr ⟨Table.mem_rows.mp hb, hbo.trans hao, hbu.trans hau⟩
    have hfalse := hfree a (List.mem_filter.mp ha).1 (List.mem_filter.mp ha).2 hset b hbl hne
    rw [hprimary] at hfalse
    cases hfalse
  · refine hnext _ _ s₂ (hst₂.append (fun k hk => List.mem_append_right _ hk) ?_
        (rowsOf_selected hst₂.rows) ?_)
    · intro w hw
      obtain ⟨a, ha, hw⟩ := List.mem_flatMap.mp hw
      rw [List.mem_singleton.mp hw]
      refine ⟨List.mem_append_left _ (List.mem_append_left _ (List.mem_flatMap.mpr ⟨a, ha,
              List.mem_cons_self⟩)), ?_⟩
      exact committed_within hst₂.within (hown a ha)
    · rw [member_assignments _ _ fun _ _ => rfl]
      exact hst₂.member

theorem Stage.update_id (h : Stage o userId l₀ l m K log s) {patch : AssignmentPatch}
    {t : UserRoleAssignment} (ht : t ∈ l)
    (hfree : isActivePrimary (patch.set t) = true → ∀ b ∈ l, b.id ≠ t.id →
      isActivePrimary b = false) {f : Option UserRoleAssignment → Action β}
    (hnext : ∀ K' log' s', Stage o userId l₀ (patchRows (fun a => a.id = t.id) patch l) m K' log'
        s' → (f (some (patch.set t))).wpe Reserved Inv Q E K' log' s') :
    (updateAssignments .readCommitted (fun a => a.id = t.id) patch >>= f).wpe Reserved Inv Q E K
      log s := by
  have hsingle := (select_id h.rows ht).2
  refine h.update (fun v hv => ?_) ?_ fun K' log' s' hst => ?_
  · rw [(select_id hv ht).1, hsingle]
  · intro a ha hp hset
    have hsame : a = t := by
      have hmem : a ∈ l.filter fun a => decide (a.id = t.id) := List.mem_filter.mpr ⟨ha, hp⟩
      rw [hsingle] at hmem
      exact List.mem_singleton.mp hmem
    rw [hsame] at hset ⊢
    exact hfree hset
  · rw [hsingle]
    exact hnext K' log' s' hst

/-- What an insert of an assignment is refused with, other than for a second active primary. -/
def Refused (e : AccountError) : Prop :=
  (∃ index, e = .uniqueViolation index ∧ index ≠ "user_role_assignments_active_primary_unique") ∨
    ∃ constraint, e = .foreignKeyViolation constraint

theorem Stage.insert (h : Stage o userId l₀ l m K log s) {a : UserRoleAssignment}
    (ha : a.organizationId = o ∧ a.userId = userId) (hfree : isActivePrimary a = true → NoPrimary l)
    (hfail : ∀ e, Refused e → ∀ s', E e s') {f : UserRoleAssignment → Action β}
    (hnext : ∀ K' log' s', (∀ b ∈ l, b.role ≠ a.role) → Stage o userId l₀ (l ++ [a]) m K' log' s' →
      (f a).wpe Reserved Inv Q E K' log' s') :
    (insertAssignment a >>= f).wpe Reserved Inv Q E K log s := by
  rw [insertAssignment, Prog.bind_assoc]
  refine wpe_insertRow (fun s' hr _ hcheck => ?_) fun e s' hr hcheck => ?_
  · have hst := h.reserved hr
    have hfresh := assignmentConflict_none hcheck
    refine hnext _ _ s' (fun b hb hrole => ?_)
      (hst.append (fun k hk => List.mem_append_right _ hk) ?_ ?_ ?_)
    · obtain ⟨hget, hbo, hbu⟩ := mem_rowsOf.mp (hst.rows.symm ▸ hb)
      unfold assignmentConflict at hcheck
      rw [if_neg (by simp [hfresh]), if_pos] at hcheck
      · cases hcheck
      · exact List.any_eq_true.mpr ⟨b, Table.mem_of_get hget, by simp [hbo, hbu, ha.1, ha.2, hrole]⟩
    · intro w hw
      rw [List.mem_singleton.mp hw]
      refine ⟨ha, by simp [Write.keys, UserRoleAssignment.keys], fun b hb => ?_⟩
      by_contra hne
      have hid : b.id = a.id := Table.key_get hb
      have hmem : b ∈ rowsOf b.organizationId b.userId (applyAll s' log) := by
        rw [rowsOf_within hst.within hne]
        exact mem_rowsOf.mpr ⟨by rw [hid]; exact hb, rfl, rfl⟩
      have hview := (mem_rowsOf.mp hmem).1
      rw [hid, hfresh] at hview
      cases hview
    · rw [applyAll_cons, applyAll_nil, rowsOf_apply, Write.onRows, hst.rows, if_pos ha,
        List.filter_eq_self.mpr]
      intro b hb
      have hget := (mem_rowsOf.mp (hst.rows.symm ▸ hb)).1
      simpa using Table.get_of_mem_ne hfresh (Table.mem_of_get hget)
    · rw [applyAll_cons, applyAll_nil, member_apply]
      exact hst.member
  · have hst := h.reserved hr
    refine hfail e ?_
    unfold assignmentConflict at hcheck
    split at hcheck
    · exact .inl ⟨_, (Option.some.inj hcheck).symm, by decide⟩
    · split at hcheck
      · exact .inl ⟨_, (Option.some.inj hcheck).symm, by decide⟩
      · split at hcheck
        case isTrue htaken =>
          simp only [primaryTaken, Bool.and_eq_true, List.any_eq_true, decide_eq_true_eq] at htaken
          obtain ⟨hprimary, b, hb, _, hbo, hbu, hbp⟩ := htaken
          have hbl : b ∈ l := hst.rows ▸ mem_rowsOf.mpr ⟨Table.mem_rows.mp hb, hbo.trans ha.1,
            hbu.trans ha.2⟩
          rw [hfree hprimary b hbl] at hbp
          cases hbp
        case isFalse =>
          split at hcheck
          · exact .inr ⟨_, (Option.some.inj hcheck).symm⟩
          · cases hcheck

theorem Stage.delete (h : Stage o userId l₀ l m K log s) {t : UserRoleAssignment} (ht : t ∈ l)
    {f : List UserRoleAssignment → Action β}
    (hnext : ∀ r K' log' s', Stage o userId l₀ (l.filter fun a => !decide (a.id = t.id)) m K' log'
        s' → (f r).wpe Reserved Inv Q E K' log' s') :
    (modifyRows (·.assignments) .readCommitted UserRoleAssignment.keys (fun _ a => a.id = t.id)
      (fun a => [.deleteAssignment a.userId a.id]) (fun _ _ => none) >>= f).wpe Reserved Inv Q E K
        log s := by
  refine wpe_modify fun s₁ h₁ _ s₂ h₂ _ found rows hfound hrows => ?_
  have hst₁ := h.reserved h₁
  have hst₂ := hst₁.reserved h₂
  rw [(select_id hst₁.rows ht).1] at hfound
  have hrows : rows = [t] := by
    rw [hrows, hfound, ← (select_id hst₂.rows ht).2, again_selected hst₂.rows]
  rw [hfound, hrows]
  have hown : t ∈ rowsOf o userId (applyAll s₂ log) := hst₂.rows.symm ▸ ht
  refine ⟨rfl, hnext _ _ _ s₂ (hst₂.append (fun k hk => List.mem_append_right _ hk) ?_ ?_ ?_)⟩
  · intro w hw
    obtain ⟨a, ha, hw⟩ := List.mem_flatMap.mp hw
    rw [List.mem_singleton.mp hw, List.mem_singleton.mp ha]
    exact ⟨by simp [UserRoleAssignment.keys], committed_within hst₂.within hown⟩
  · rw [List.flatMap_singleton, applyAll_cons, applyAll_nil, rowsOf_apply, Write.onRows, hst₂.rows]
    refine List.filter_congr fun a ha => ?_
    have hau := (mem_rowsOf.mp (hst₂.rows.symm ▸ ha)).2.2
    have htu := (mem_rowsOf.mp hown).2.2
    rw [hau, htu]
    simp
  · rw [member_assignments _ _ fun _ _ => rfl]
    exact hst₂.member

/-! ## Updates of the user -/

theorem users_selected {ctx : Context} {v : Db} (h : Accounts.member ctx.organizationId userId v = m) :
    v.users.rows.filter (ofUser ctx userId) = m.toList := by
  subst h
  cases hm : Accounts.member ctx.organizationId userId v with
  | none =>
    refine List.filter_eq_nil_iff.mpr fun u hu hp => ?_
    simp only [ofUser, decide_eq_true_eq] at hp
    have hget : v.users.get userId = some u := hp.2 ▸ Table.get_of_mem hu
    simp [Accounts.member, Option.filter, hget, hp.1] at hm
  | some u =>
    rw [Accounts.member, Option.filter_eq_some_iff, decide_eq_true_eq] at hm
    have hid : u.id = userId := Table.key_get hm.1
    refine Table.filter_unique (by rw [hid]; exact hm.1) (by simp [ofUser, hm.2, hid]) fun x _ hx => ?_
    rw [ofUser_id hx, hid]

theorem again_user {ctx : Context} {v : Db} (h : Accounts.member ctx.organizationId userId v = m) :
    again (ofUser ctx userId) m.toList v.users = m.toList := by
  have hsame : ∀ u ∈ m.toList, v.users.get u.id = some u := by
    intro u hu
    rw [← users_selected h] at hu
    exact Table.get_of_mem (List.mem_filter.mp hu).1
  rw [again, List.filterMap_congr hsame, List.filterMap_some, ← users_selected h, List.filter_filter]
  simp

/-- An update of the user writes it if it is of the organization. -/
theorem Stage.updateUser {ctx : Context} (h : Stage ctx.organizationId userId l₀ l m K log s)
    {patch : UserPatch} {f : Option User → Action β}
    (hnext : ∀ K' log' s', Stage ctx.organizationId userId l₀ l (m.map patch.set) K' log' s' →
      (f (m.map patch.set)).wpe Reserved Inv Q E K' log' s') :
    (Accounts.updateUser .readCommitted ctx userId patch >>= f).wpe Reserved Inv Q E K log s := by
  rw [Accounts.updateUser, updateUsers, Prog.bind_assoc]
  refine wpe_modify fun s₁ h₁ _ s₂ h₂ _ found rows hfound hrows => ?_
  have hst₁ := h.reserved h₁
  have hst₂ := hst₁.reserved h₂
  rw [users_selected hst₁.member] at hfound
  rw [hfound, again_user hst₂.member] at hrows
  rw [hfound, hrows]
  refine ⟨rfl, ?_⟩
  have hhead : m.toList.head?.map patch.set = m.map patch.set := by cases m <;> rfl
  rw [hhead]
  refine hnext _ _ s₂ (hst₂.append (fun k hk => List.mem_append_right _ hk) ?_ ?_ ?_)
  · intro w hw
    obtain ⟨u, hu, hw⟩ := List.mem_flatMap.mp hw
    have hmember : Accounts.member ctx.organizationId userId (applyAll s₂ log) = some u := by
      rw [hst₂.member]
      exact Option.mem_toList.mp hu
    rw [Accounts.member, Option.filter_eq_some_iff, decide_eq_true_eq] at hmember
    have hid : u.id = userId := Table.key_get hmember.1
    rw [List.mem_singleton.mp hw]
    refine ⟨hid, List.mem_append_left _ (List.mem_append_left _ (List.mem_flatMap.mpr ⟨u, hu,
            List.mem_cons_self⟩)), fun x hx => ?_⟩
    by_contra hne
    rw [hid] at hx
    have hview : Accounts.member x.organizationId userId (applyAll s₂ log) = some x := by
      rw [member_within hst₂.within fun he => hne he.1]
      simp [Accounts.member, Option.filter, hx]
    rw [Accounts.member, Option.filter_eq_some_iff, hmember.1] at hview
    exact hne (by rw [← Option.some.inj hview.1]; exact hmember.2)
  · rw [← hst₂.rows]
    refine applyAll_invariant
      (P := fun (t : Db) => rowsOf ctx.organizationId userId t = rowsOf ctx.organizationId userId
        (applyAll s₂ log)) ?_ rfl
    intro w hm t ht
    obtain ⟨u, _, hm⟩ := List.mem_flatMap.mp hm
    rw [rowsOf_apply, ht, List.mem_singleton.mp hm]
    rfl
  · cases hm : m with
    | none =>
      rw [hm] at hst₂
      exact hst₂.member
    | some u =>
      have hmember := hst₂.member
      rw [hm] at hmember
      have hid : u.id = userId := by
        rw [Accounts.member, Option.filter_eq_some_iff] at hmember
        exact Table.key_get hmember.1
      rw [Option.toList_some, List.flatMap_singleton, applyAll_cons, applyAll_nil,
        member_apply, hmember]
      simp [Write.onMember, hid]

theorem Stage.deleteTokens {ctx : Context} (h : Stage o userId l₀ l m K log s) {f : Nat → Action β}
    (hnext : ∀ n K' log' s', Stage o userId l₀ l m K' log' s' → (f n).wpe Reserved Inv Q E K' log' s') :
    (deleteAllForUserWithinTransaction .readCommitted ctx userId >>= f).wpe Reserved Inv Q E K
      log s := by
  rw [deleteAllForUserWithinTransaction, Prog.bind_assoc]
  refine wpe_modify fun s₁ h₁ _ s₂ h₂ _ found rows _ _ => ⟨rfl, ?_⟩
  have hst₂ := (h.reserved h₁).reserved h₂
  have hwrites : ∀ w ∈ rows.flatMap (fun t => [Write.deleteToken t.userId t.id]),
      ∃ u k, w = .deleteToken u k := by
    intro w hw
    obtain ⟨t, _, hw⟩ := List.mem_flatMap.mp hw
    exact ⟨_, _, List.mem_singleton.mp hw⟩
  refine hnext _ _ _ s₂ (hst₂.append (fun k hk => List.mem_append_right _ hk) ?_ ?_ ?_)
  · intro w hw
    obtain ⟨u, k, rfl⟩ := hwrites w hw
    exact trivial
  · rw [← hst₂.rows]
    refine applyAll_invariant (P := fun (t : Db) => rowsOf o userId t = rowsOf o userId
        (applyAll s₂ log)) ?_ rfl
    intro w hw t ht
    obtain ⟨u, k, rfl⟩ := hwrites w hw
    rw [rowsOf_apply, ht]
    rfl
  · rw [← hst₂.member]
    refine applyAll_invariant
      (P := fun (t : Db) => Accounts.member o userId t = Accounts.member o userId
        (applyAll s₂ log)) ?_ rfl
    intro w hw t ht
    obtain ⟨u, k, rfl⟩ := hwrites w hw
    rw [member_apply, ht]
    rfl

/-! ## Steps of the repository -/

section
variable {ctx : Context}

theorem Stage.sync (h : Stage ctx.organizationId userId l₀ l m K log s)
    {f : Option AssignableRole → Action β}
    (hnext : ∀ r K' log' s', Stage ctx.organizationId userId l₀ l (synced l m) K' log' s' →
      (f r).wpe Reserved Inv Q E K' log' s') :
    (syncUsersRoleFromPrimary .readCommitted ctx userId >>= f).wpe Reserved Inv Q E K log s := by
  rw [syncUsersRoleFromPrimary, Prog.bind_assoc]
  refine wpe_query fun s' hr _ => ?_
  have hst := h.reserved hr
  rw [find_own hst.rows]
  unfold synced at hnext
  cases hp : l.find? isActivePrimary with
  | none =>
    rw [hp] at hnext
    exact hnext _ _ _ _ hst
  | some p =>
    rw [hp] at hnext
    dsimp only
    rw [Prog.bind_assoc]
    exact hst.updateUser fun K' log' s' hst' => hnext _ _ _ _ hst'

/-- The promotion of the next active row. -/
theorem Stage.promoteNext (h : Stage ctx.organizationId userId l₀ l m K log s)
    (hfree : ∀ n, nextActive l = some n → ∀ b ∈ l, b.id ≠ n.id → isActivePrimary b = false)
    {f : Unit → Action β}
    (hnext : ∀ K' log' s', Stage ctx.organizationId userId l₀ (promotedNext l) m K' log' s' →
      (f ()).wpe Reserved Inv Q E K' log' s') :
    (promoteNextActiveForUser .readCommitted ctx userId >>= f).wpe Reserved Inv Q E K log s := by
  rw [promoteNextActiveForUser, Prog.bind_assoc]
  refine wpe_query fun s' hr _ => ?_
  have hst := h.reserved hr
  have hleast : earliestActive ctx userId (applyAll s' log) = nextActive l := by
    rw [earliestActive, nextActive, ← hst.rows, rowsOf, List.filter_filter]
    congr 1
    refine List.filter_congr fun a _ => ?_
    rw [Bool.and_comm]
    rfl
  rw [hleast]
  unfold promotedNext at hnext
  cases hn : nextActive l with
  | none =>
    rw [hn] at hnext
    exact hnext _ _ _ hst
  | some n =>
    rw [hn] at hnext
    dsimp only
    rw [Prog.bind_assoc]
    exact hst.update_id (nextActive_mem hn).1 (fun _ => hfree n hn) fun K' log' s' hst' =>
      hnext _ _ _ hst'

theorem Stage.replacePrimary (h : Stage ctx.organizationId userId l₀ l m K log s)
    (hfail : ∀ e, Refused e → ∀ s', E e s') {new : NewRow} {role : AssignableRole}
    {f : Option UserRoleAssignment → Action β}
    (hnext : ∀ r l' x K' log' s', Sole l' x → Stage ctx.organizationId userId l₀ l' m K' log' s' →
      (f r).wpe Reserved Inv Q E K' log' s') :
    (replacePrimaryRoleWithinTransaction .readCommitted ctx new userId role >>= f).wpe Reserved Inv
      Q E K log s := by
  rw [replacePrimaryRoleWithinTransaction, Prog.bind_assoc]
  refine h.update (fun v hv => select_own hv)
    (fun a _ _ hset => absurd hset (by simp [sets_inactive a])) fun K₁ log₁ s₁ hst₁ => ?_
  have hnone : NoPrimary (patchRows (fun a => ofAssignee ctx userId a && isActivePrimary a)
      { isActive := some false } l) := by
    refine noPrimary_patch fun a ha => ?_
    split
    · exact sets_inactive a
    case isFalse hp => simpa [own_rows h.rows ha] using hp
  generalize patchRows (fun a => ofAssignee ctx userId a && isActivePrimary a)
    { isActive := some false } l = l₁ at hst₁ hnone
  rw [ensurePrimaryAssignmentWithinTransaction, Prog.bind_assoc]
  refine hst₁.update (fun v hv => select_own hv)
    (fun a _ _ hset => absurd hset (by simp [sets_demote a])) fun K₂ log₂ s₂ hst₂ => ?_
  rw [patchRows_id fun a ha hp => absurd hp (by simp [hnone a ha])] at hst₂
  rw [Prog.bind_assoc]
  refine wpe_query fun s₃ hr _ => ?_
  have hst₃ := hst₂.reserved hr
  rw [find_own hst₃.rows]
  cases he : l₁.find? fun a => decide (a.role = role) with
  | some e =>
    have hmem := List.mem_of_find?_eq_some he
    refine hst₃.update_id hmem (fun _ b hb _ => hnone b hb) fun K' log' s' hst' =>
      hnext _ _ (promote.set e) _ _ _ ?_ hst'
    exact sole_by_id hst₃.nodup hmem hnone rfl
  | none =>
    dsimp only
    rw [Prog.bind_assoc]
    exact hst₃.insert ⟨rfl, rfl⟩ (fun _ => hnone) hfail fun K' log' s' _ hst' => hnext _ _ _ _ _ _
      (sole_append hnone rfl) hst'

end

end

end ExamSystem.Accounts
