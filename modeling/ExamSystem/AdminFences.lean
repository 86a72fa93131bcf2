import ExamSystem.AccountRuns

/-!
# Authority under the advisory lock

Who holds a role in an organization, and what stays of it while a transaction
holds the organization's advisory lock. The checks of the seams are made before
the commit; these lemmas carry what a check saw over to the state committed.
-/

namespace ExamSystem.Accounts

open Interleaving

/-! ## Admins -/

def HoldsRole (o : String) (db : Db) (userId : String) (role : AssignableRole) : Prop :=
  ∃ k a, db.assignments.get k = some a ∧ a.organizationId = o ∧ a.userId = userId ∧ a.role = role ∧
    a.isActive = true

def ActiveUser (o : String) (db : Db) (userId : String) : Prop :=
  ∃ u, db.users.get userId = some u ∧ u.organizationId = o ∧ u.isActive = true

def HasAdmin (o : String) (db : Db) : Prop := ∃ k, ActiveUser o db k ∧ HoldsRole o db k .admin

def Exclusive (o : String) (db : Db) : Prop := ∀ k, ActiveUser o db k → HoldsRole o db k .admin →
    ¬ HoldsRole o db k .maintainer

/-- The organization has an active Admin, and no active user is both Admin and Maintainer. -/
structure AdminSafe (o : String) (db : Db) : Prop where
  admin : HasAdmin o db
  exclusive : Exclusive o db

/-! ## Fences -/

def Extends (r r' : Option UserRoleAssignment) : Prop := r' = r ∨ r = none ∧ ∃ a, r' = some a ∧
    a.role = .candidate

/-- What the transactions without the advisory lock leave of an organization. -/
structure Fenced (o : String) (s s' : Db) : Prop where
  assignments : ∀ k, Extends (s.assignments.get k) (s'.assignments.get k)
  users : ∀ k u, s.users.get k = some u → ∃ u', s'.users.get k = some u' ∧
    u'.organizationId = u.organizationId ∧
    (u.isActive = true → u'.isActive = false → ¬ HoldsRole o s k .admin) ∧
    (u.isActive = false → u'.isActive = true → ¬ HoldsRole o s k .admin ∧ ¬ HoldsRole o s k .maintainer)

section
variable {o : String} {s t u : Db}

theorem extends_some {r : Option UserRoleAssignment} {a : UserRoleAssignment}
    (h : Extends r (some a)) (ha : a.role ≠ .candidate) :
    r = some a := by
  rcases h with h | ⟨_, b, hb, hrole⟩
  · exact h.symm
  · rw [Option.some.injEq] at hb
    exact absurd (hb ▸ hrole) ha

theorem extends_of_some {r : Option UserRoleAssignment} {a : UserRoleAssignment}
    (h : Extends (some a) r) : r = some a := by
  rcases h with h | ⟨h, _⟩
  · exact h
  · cases h

theorem holdsRole_extends (h : ∀ k, Extends (s.assignments.get k) (t.assignments.get k))
    {k : String} {role : AssignableRole} (hr : role ≠ .candidate) :
    HoldsRole o t k role ↔ HoldsRole o s k role := by
  constructor
  · intro ⟨i, a, ha, ho, hu, hrole, hactive⟩
    exact ⟨i, a, extends_some (ha ▸ h i) (hrole ▸ hr), ho, hu, hrole, hactive⟩
  · intro ⟨i, a, ha, hrest⟩
    exact ⟨i, a, extends_of_some (ha ▸ h i), hrest⟩

namespace Fenced

theorem refl (o : String) (s : Db) : Fenced o s s where
  assignments _ := .inl rfl
  users k u hu := ⟨u, hu, rfl, fun h h' => absurd (h.symm.trans h') (by decide),
    fun h h' => absurd (h.symm.trans h') (by decide)⟩

theorem trans (h : Fenced o s t) (h' : Fenced o t u) : Fenced o s u where
  assignments k := by
    rcases h'.assignments k with hk | ⟨hk, a, ha⟩
    · rw [hk]; exact h.assignments k
    · rcases h.assignments k with hs | ⟨hs, b, hb, _⟩
      · exact .inr ⟨hs ▸ hk, a, ha⟩
      · rw [hb] at hk; cases hk
  users k v hv := by
    obtain ⟨v', hv', ho, hsleep, hwake⟩ := h.users k v hv
    obtain ⟨v'', hv'', ho', hsleep', hwake'⟩ := h'.users k v' hv'
    have hadmin : HoldsRole o t k .admin ↔ HoldsRole o s k .admin :=
      holdsRole_extends h.assignments (by decide)
    have hmaintainer : HoldsRole o t k .maintainer ↔ HoldsRole o s k .maintainer :=
      holdsRole_extends h.assignments (by decide)
    rw [hadmin] at hsleep'
    rw [hadmin, hmaintainer] at hwake'
    refine ⟨v'', hv'', ho'.trans ho, fun hactive hslept => ?_, fun hinactive hwoken => ?_⟩
    · cases hmid : v'.isActive with
      | true => exact hsleep' hmid hslept
      | false => exact hsleep hactive hmid
    · cases hmid : v'.isActive with
      | true => exact hwake hinactive hmid
      | false => exact hwake' hmid hwoken

end Fenced

theorem fenced_safe (hi : s.intact = true) (h : AdminSafe o s) (hf : Fenced o s t) : AdminSafe o t where
  admin := by
    obtain ⟨k, ⟨u, hu, ho, hactive⟩, hadmin⟩ := h.admin
    obtain ⟨u', hu', ho', hsleep, _⟩ := hf.users k u hu
    refine ⟨k, ⟨u', hu', ho'.trans ho, ?_⟩, (holdsRole_extends hf.assignments (by decide)).mpr hadmin⟩
    by_contra hslept
    exact hsleep hactive (Bool.eq_false_iff.mpr hslept) hadmin
  exclusive k hactive hadmin hmaintainer := by
    rw [holdsRole_extends hf.assignments (by decide)] at hadmin hmaintainer
    have ⟨_, a, ha, _, hak, _⟩ := hadmin
    obtain ⟨u, hu⟩ := assignee_exists hi ha
    rw [hak] at hu
    obtain ⟨u', hu', ho, _, hwake⟩ := hf.users k u hu
    obtain ⟨v, hv, hvo, hva⟩ := hactive
    rw [hu', Option.some.injEq] at hv
    subst hv
    cases hu₀ : u.isActive with
    | true => exact h.exclusive k ⟨u, hu, ho ▸ hvo, hu₀⟩ hadmin hmaintainer
    | false => exact (hwake hu₀ hva).2 hmaintainer

end

/-! ## The view of a transaction -/

def Write.activates : Write → Option (String × String)
  | insertAssignment a => if a.isActive then some (a.id, a.userId) else none
  | updateAssignment userId id patch => if patch.isActive = some true then some (id, userId) else none
  | _ => none

def Write.isActivation (w : Write) : Bool := w.activates.isSome

section
variable {o : String} {s t : Db} {log : List Write}

theorem extends_view (h : ∀ k, Extends (s.assignments.get k) (t.assignments.get k)) (k : String) :
    Extends ((applyAll s log).assignments.get k) ((applyAll t log).assignments.get k) := by
  induction log generalizing s t with
  | nil => exact h k
  | cons w log ih =>
    refine ih fun i => ?_
    rw [get_assignments, get_assignments]
    rcases h i with hi | ⟨hs, a, ha, hrole⟩
    · rw [hi]
      exact .inl rfl
    · rw [hs, ha]
      cases w with
      | insertAssignment b =>
        by_cases hk : i = b.id
        · exact .inl (by simp [Write.assignmentAt, hk])
        · exact .inr ⟨by simp [Write.assignmentAt, hk], a, by simp [Write.assignmentAt, hk], hrole⟩
      | updateAssignment userId id patch =>
        refine .inr ⟨by simp [Write.assignmentAt], ?_⟩
        by_cases hk : i = id
        · exact ⟨if a.userId = userId then patch.set a else a, by simp [Write.assignmentAt, hk],
            by by_cases hu : a.userId = userId <;> simp [hu, AssignmentPatch.set, hrole]⟩
        · exact ⟨a, by simp [Write.assignmentAt, hk], hrole⟩
      | deleteAssignment userId id =>
        by_cases hk : i = id ∧ a.userId = userId
        · exact .inl (by simp [Write.assignmentAt, hk.1, hk.2])
        · refine .inr ⟨by simp [Write.assignmentAt], a, ?_, hrole⟩
          by_cases hid : i = id
          · simp [Write.assignmentAt, hid, show a.userId ≠ userId from fun hu => hk ⟨hid, hu⟩]
          · simp [Write.assignmentAt, hid]
      | deleteUser id =>
        by_cases hk : a.userId = id
        · exact .inl (by simp [Write.assignmentAt, hk])
        · exact .inr ⟨rfl, a, by simp [Write.assignmentAt, hk], hrole⟩
      | _ => exact .inr ⟨rfl, a, rfl, hrole⟩

theorem users_congr {k : String} (h : s.users.get k = t.users.get k) :
    (applyAll s log).users.get k = (applyAll t log).users.get k := by
  induction log generalizing s t with
  | nil => exact h
  | cons w log ih => exact ih (by rw [get_users, get_users, h])

/-- Two rows of a user of which the second is active only if the first is, or if it was woken. -/
def Lags (woken : Prop) (r r' : Option User) : Prop :=
  r = r' ∨ ∃ u u', r = some u ∧ r' = some u' ∧ u'.organizationId = u.organizationId ∧
    (u'.isActive = true → u.isActive = true ∨ woken)

theorem lags_view {woken : Prop} {k : String} (h : Lags woken (s.users.get k) (t.users.get k)) :
    Lags woken ((applyAll s log).users.get k) ((applyAll t log).users.get k) := by
  induction log generalizing s t with
  | nil => exact h
  | cons w log ih =>
    apply ih
    rw [get_users, get_users]
    rcases h with h | ⟨u, u', hu, hu', ho, hactive⟩
    · rw [h]
      exact .inl rfl
    · rw [hu, hu']
      cases w with
      | insertUser v =>
        by_cases hk : k = v.id
        · exact .inl (by simp [Write.userAt, hk])
        · exact .inr ⟨u, u', by simp [Write.userAt, hk], by simp [Write.userAt, hk], ho, hactive⟩
      | updateUser id patch =>
        by_cases hk : k = id
        · refine .inr ⟨patch.set u, patch.set u', by simp [Write.userAt, hk], by simp [Write.userAt,
              hk], ho, ?_⟩
          cases hp : patch.isActive with
          | none => simpa [UserPatch.set, hp] using hactive
          | some b => simp only [UserPatch.set, hp, Option.getD_some]; exact .inl
        · exact .inr ⟨u, u', by simp [Write.userAt, hk], by simp [Write.userAt, hk], ho, hactive⟩
      | deleteUser id =>
        by_cases hk : k = id
        · exact .inl (by simp [Write.userAt, hk])
        · exact .inr ⟨u, u', by simp [Write.userAt, hk], by simp [Write.userAt, hk], ho, hactive⟩
      | _ => exact .inr ⟨u, u', rfl, rfl, ho, hactive⟩

theorem activation_origin {i : String} {a : UserRoleAssignment}
    (h : (applyAll s log).assignments.get i = some a) (ha : a.isActive = true) :
    (∃ b, s.assignments.get i = some b ∧ b.organizationId = a.organizationId ∧ b.userId = a.userId ∧
      b.role = a.role ∧ b.isActive = true) ∨ ∃ w ∈ log, w.activates = some (i, a.userId) := by
  induction log generalizing s with
  | nil => exact .inl ⟨a, h, rfl, rfl, rfl, ha⟩
  | cons w log ih =>
    rcases ih h with ⟨b, hb, ho, hu, hr, hactive⟩ | ⟨v, hv, hact⟩
    · rw [get_assignments] at hb
      cases w with
      | insertAssignment c =>
        simp only [Write.assignmentAt] at hb
        by_cases hk : i = c.id
        · rw [if_pos hk, Option.some.injEq] at hb
          subst hb
          exact .inr ⟨_, List.mem_cons_self, by simp [Write.activates, hactive, hk, hu]⟩
        · rw [if_neg hk] at hb
          exact .inl ⟨b, hb, ho, hu, hr, hactive⟩
      | updateAssignment userId id patch =>
        simp only [Write.assignmentAt] at hb
        by_cases hk : i = id
        · rw [if_pos hk, Option.map_eq_some_iff] at hb
          obtain ⟨c, hc, hcb⟩ := hb
          by_cases hcu : c.userId = userId
          · rw [if_pos hcu] at hcb
            subst hcb
            cases hp : patch.isActive with
            | none => exact .inl ⟨c, hc, ho, hu, hr, by simpa [AssignmentPatch.set, hp] using hactive⟩
            | some p =>
              have hp' : p = true := by simpa [AssignmentPatch.set, hp] using hactive
              refine .inr ⟨_, List.mem_cons_self, ?_⟩
              simp [Write.activates, hp, hp', hk, ← hu, ← hcu, AssignmentPatch.set]
          · rw [if_neg hcu] at hcb
            exact .inl ⟨b, hc.trans (congrArg some hcb), ho, hu, hr, hactive⟩
        · rw [if_neg hk] at hb
          exact .inl ⟨b, hb, ho, hu, hr, hactive⟩
      | deleteAssignment userId id =>
        simp only [Write.assignmentAt] at hb
        by_cases hk : i = id
        · rw [if_pos hk, Option.filter_eq_some_iff] at hb
          exact .inl ⟨b, hb.1, ho, hu, hr, hactive⟩
        · rw [if_neg hk] at hb
          exact .inl ⟨b, hb, ho, hu, hr, hactive⟩
      | deleteUser id =>
        simp only [Write.assignmentAt, Option.filter_eq_some_iff] at hb
        exact .inl ⟨b, hb.1, ho, hu, hr, hactive⟩
      | _ => exact .inl ⟨b, hb, ho, hu, hr, hactive⟩
    · exact .inr ⟨v, List.mem_cons_of_mem w hv, hact⟩

end

/-! ## From the check to the commit -/

theorem count_pair {α : Type} {p : α → Bool} {l : List α} {x y : α} (hx : x ∈ l) (hy : y ∈ l)
    (hpx : p x = true) (hpy : p y = true) (hne : x ≠ y) : 2 ≤ l.countP p := by
  have hfilter : ∀ z ∈ [x, y], z ∈ l.filter p := by
    intro z hz
    rcases List.mem_cons.mp hz with rfl | hz
    · exact List.mem_filter.mpr ⟨hx, hpx⟩
    · rw [List.mem_singleton.mp hz]
      exact List.mem_filter.mpr ⟨hy, hpy⟩
  have hnodup : [x, y].Nodup := by simp [hne]
  rw [List.countP_eq_length_filter]
  exact (List.subperm_of_subset hnodup hfilter).length_le

section
variable {o : String} {s t : Db} {log : List Write}

theorem one_role (hone : log.countP Write.isActivation ≤ 1) {k : String}
    (hadmin : HoldsRole o (applyAll s log) k .admin)
    (hmaintainer : HoldsRole o (applyAll s log) k .maintainer) :
    HoldsRole o s k .admin ∨ HoldsRole o s k .maintainer := by
  obtain ⟨i, a, ha, hao, hau, har, haa⟩ := hadmin
  obtain ⟨j, b, hb, hbo, hbu, hbr, hba⟩ := hmaintainer
  rcases activation_origin ha haa with ⟨c, hc, hco, hcu, hcr, hca⟩ | ⟨v, hv, hact⟩
  · exact .inl ⟨i, c, hc, hco.trans hao, hcu.trans hau, hcr.trans har, hca⟩
  · rcases activation_origin hb hba with ⟨c, hc, hco, hcu, hcr, hca⟩ | ⟨w, hw, hact'⟩
    · exact .inr ⟨j, c, hc, hco.trans hbo, hcu.trans hbu, hcr.trans hbr, hca⟩
    · have hne : v ≠ w := by
        rintro rfl
        rw [hact, Option.some.injEq, Prod.mk.injEq] at hact'
        rw [hact'.1, hb, Option.some.injEq] at ha
        rw [← ha, hbr] at har
        cases har
      have htwo := count_pair hv hw (p := Write.isActivation) (by simp [Write.isActivation, hact])
        (by simp [Write.isActivation, hact']) hne
      omega

/-- What the exclusion check saw holds of the state committed. -/
theorem exclusive_view (hi : s.intact = true) (hf : Fenced o s t)
    (hone : log.countP Write.isActivation ≤ 1) (hchecked : Exclusive o (applyAll s log)) :
    Exclusive o (applyAll t log) := by
  intro k ⟨u, hu, huo, hua⟩ hadmin hmaintainer
  rw [holdsRole_extends (extends_view hf.assignments) (by decide)] at hadmin hmaintainer
  have hrole := one_role hone hadmin hmaintainer
  have huser : ∃ v, s.users.get k = some v := by
    rcases hrole with ⟨_, a, ha, _, hau, _⟩ | ⟨_, a, ha, _, hau, _⟩
    · rw [← hau]; exact assignee_exists hi ha
    · rw [← hau]; exact assignee_exists hi ha
  obtain ⟨v, hv⟩ := huser
  obtain ⟨v', hv', ho, _, hwake⟩ := hf.users k v hv
  have hlags : Lags (v.isActive = false ∧ v'.isActive = true) (s.users.get k) (t.users.get k) := by
    refine .inr ⟨v, v', hv, hv', ho, fun hactive => ?_⟩
    cases hva : v.isActive with
    | true => exact .inl rfl
    | false => exact .inr ⟨rfl, hactive⟩
  rcases lags_view hlags with h | ⟨w, w', hw, hw', hwo, hwake'⟩
  · exact hchecked k ⟨u, h.trans hu, huo, hua⟩ hadmin hmaintainer
  · rw [hu, Option.some.injEq] at hw'
    subst hw'
    rcases hwake' hua with hactive | ⟨hinactive, hwoken⟩
    · exact hchecked k ⟨w, hw, hwo.symm.trans huo, hactive⟩ hadmin hmaintainer
    · rcases hrole with h | h
      · exact (hwake hinactive hwoken).1 h
      · exact (hwake hinactive hwoken).2 h

/-- An Admin that the count check saw is one in the state committed: it was one before
the transaction, or the transaction made it one and holds its row. -/
theorem admin_view {held : List LockKey} (hf : Fenced o s t)
    (husers : ∀ k, .user k ∈ held → t.users.get k = s.users.get k)
    (hkeys : ∀ w ∈ log, ∀ k ∈ w.keys, k ∈ held)
    (hact : ∀ w ∈ log, ∀ i k, w.activates = some (i, k) → .user k ∈ held)
    (h : HasAdmin o (applyAll s log)) : HasAdmin o (applyAll t log) := by
  obtain ⟨k, ⟨u, hu, huo, hua⟩, hadmin⟩ := h
  refine ⟨k, ?_, (holdsRole_extends (extends_view hf.assignments) (by decide)).mpr hadmin⟩
  by_cases hk : .user k ∈ held
  · exact ⟨u, (users_congr (husers k hk)).trans hu, huo, hua⟩
  · have hunlocked : ∀ db : Db, (applyAll db log).users.get k = db.users.get k := fun db =>
      users_unlocked fun w hw hkw => hk (hkeys w hw _ hkw)
    rw [hunlocked] at hu
    have hbefore : HoldsRole o s k .admin := by
      obtain ⟨i, a, ha, hao, hau, har, haa⟩ := hadmin
      rcases activation_origin ha haa with ⟨c, hc, hco, hcu, hcr, hca⟩ | ⟨w, hw, hwa⟩
      · exact ⟨i, c, hc, hco.trans hao, hcu.trans hau, hcr.trans har, hca⟩
      · exact absurd (hact w hw i a.userId hwa) (hau ▸ hk)
    obtain ⟨u', hu', ho, hsleep, _⟩ := hf.users k u hu
    refine ⟨u', (hunlocked t).trans hu', ho.trans huo, ?_⟩
    by_contra hslept
    exact hsleep hua (Bool.eq_false_iff.mpr hslept) hbefore

/-! ## Writes that take no authority away -/

def Write.keepsAdmin (o : String) : Write → Prop
  | insertUser u => u.organizationId = o ∧ u.isActive = true
  | updateUser _ patch => patch.isActive ≠ some false
  | deleteUser _ => False
  | updateAssignment _ _ patch => patch.isActive ≠ some false
  | deleteAssignment _ _ => False
  | _ => True

theorem keeps_admin (h : HasAdmin o s) (hw : ∀ w ∈ log, w.keepsAdmin o)
    (hfresh : ∀ a, .insertAssignment a ∈ log → s.assignments.get a.id = none) :
    HasAdmin o (applyAll s log) := by
  obtain ⟨k, hactive, i, a, ha, hao, hau, har, haa⟩ := h
  have hkeep : ActiveUser o (applyAll s log) k ∧ ∃ b, (applyAll s log).assignments.get i = some b ∧
      b.organizationId = o ∧ b.userId = k ∧ b.role = .admin ∧ b.isActive = true := by
    refine applyAll_invariant (P := fun (s : Db) => ActiveUser o s k ∧
      ∃ b, s.assignments.get i = some b ∧ b.organizationId = o ∧
      b.userId = k ∧ b.role = .admin ∧ b.isActive = true) ?_ ⟨hactive, a, ha, hao, hau, har, haa⟩
    intro w hm db ⟨⟨u, hu, huo, hua⟩, b, hb, hbo, hbu, hbr, hba⟩
    have hkeeps := hw w hm
    constructor
    · rw [ActiveUser, get_users, hu]
      cases w with
      | insertUser v =>
        by_cases hk : k = v.id
        · exact ⟨v, by simp [Write.userAt, hk], hkeeps.1, hkeeps.2⟩
        · exact ⟨u, by simp [Write.userAt, hk], huo, hua⟩
      | updateUser id patch =>
        by_cases hk : k = id
        · refine ⟨patch.set u, by simp [Write.userAt, hk], huo, ?_⟩
          cases hp : patch.isActive with
          | none => simp [UserPatch.set, hp, hua]
          | some p => cases p <;> simp_all [UserPatch.set, Write.keepsAdmin]
        · exact ⟨u, by simp [Write.userAt, hk], huo, hua⟩
      | deleteUser id => exact hkeeps.elim
      | _ => exact ⟨u, rfl, huo, hua⟩
    · rw [get_assignments, hb]
      cases w with
      | insertAssignment c =>
        have hne : i ≠ c.id := by
          rintro rfl
          rw [hfresh c hm] at ha
          cases ha
        exact ⟨b, by simp [Write.assignmentAt, hne], hbo, hbu, hbr, hba⟩
      | updateAssignment userId id patch =>
        by_cases hk : i = id ∧ b.userId = userId
        · refine ⟨patch.set b, by simp [Write.assignmentAt, hk.1, hk.2], hbo, hbu, hbr, ?_⟩
          cases hp : patch.isActive with
          | none => simp [AssignmentPatch.set, hp, hba]
          | some p => cases p <;> simp_all [AssignmentPatch.set, Write.keepsAdmin]
        · refine ⟨b, ?_, hbo, hbu, hbr, hba⟩
          by_cases hid : i = id
          · simp [Write.assignmentAt, hid, show b.userId ≠ userId from fun hu => hk ⟨hid, hu⟩]
          · simp [Write.assignmentAt, hid]
      | deleteUser id => exact hkeeps.elim
      | deleteAssignment userId id => exact hkeeps.elim
      | _ => exact ⟨b, rfl, hbo, hbu, hbr, hba⟩
  obtain ⟨hactive, b, hb, hrest⟩ := hkeep
  exact ⟨k, hactive, i, b, hb, hrest⟩

end

/-! ## Commands without the lock -/

def Write.isInert : Write → Prop
  | insertUser _ => False
  | updateUser _ patch => patch.isActive = none
  | deleteUser _ => False
  | insertAssignment _ => False
  | updateAssignment _ _ _ => False
  | deleteAssignment _ _ => False
  | _ => True

section
variable {o : String} {s : Db} {log : List Write}

theorem inert_fenced (h : ∀ w ∈ log, w.isInert) : Fenced o s (applyAll s log) where
  assignments k := by
    refine .inl (applyAll_invariant
        (P := fun (t : Db) => t.assignments.get k = s.assignments.get k) ?_ rfl)
    intro w hw t ht
    rw [get_assignments, ht]
    cases w with
    | insertAssignment a => exact (h _ hw).elim
    | updateAssignment userId id patch => exact (h _ hw).elim
    | deleteAssignment userId id => exact (h _ hw).elim
    | deleteUser id => exact (h _ hw).elim
    | _ => rfl
  users k u hu := by
    have hkeep : ∃ u', (applyAll s log).users.get k = some u' ∧
        u'.organizationId = u.organizationId ∧ u'.isActive = u.isActive := by
      refine applyAll_invariant (P := fun (t : Db) => ∃ u', t.users.get k = some u' ∧
        u'.organizationId = u.organizationId ∧ u'.isActive = u.isActive) ?_ ⟨u, hu, rfl, rfl⟩
      intro w hw t ⟨u', hu', ho, ha⟩
      rw [get_users, hu']
      cases w with
      | insertUser v => exact (h _ hw).elim
      | deleteUser id => exact (h _ hw).elim
      | updateUser id patch =>
        have hp : patch.isActive = none := h _ hw
        by_cases hk : k = id
        · exact ⟨patch.set u', by simp [Write.userAt, hk], ho, by simp [UserPatch.set, hp, ha]⟩
        · exact ⟨u', by simp [Write.userAt, hk], ho, ha⟩
      | _ => exact ⟨u', rfl, ho, ha⟩
    obtain ⟨u', hu', ho, ha⟩ := hkeep
    exact ⟨u', hu', ho, fun hb hs => absurd (hb.symm.trans (ha.symm.trans hs)) (by decide),
      fun hb hs => absurd (hb.symm.trans (ha.symm.trans hs)) (by decide)⟩

/-- A new candidate gets a Candidate assignment and touches no other user. -/
theorem candidate_fenced {ctx : Context} {id profileId : String} {new : NewRow}
    {data : CreateCandidate} (hi : s.intact = true) (huser : s.users.get id = none)
    (hassignment : s.assignments.get new.id = none)
    (hw : ∀ w ∈ log, (AccountCommand.createCandidate id new profileId data).mayWrite ctx w) :
    Fenced o s (applyAll s log) where
  assignments k := by
    by_cases hk : k = new.id
    · have hcandidate : ∀ a, (applyAll s log).assignments.get k = some a → a.role = .candidate := by
        refine applyAll_invariant (P := fun (t : Db) => ∀ a, t.assignments.get k = some a →
          a.role = .candidate) ?_
          (fun a ha => by rw [hk, hassignment] at ha; cases ha)
        intro w hm t ht a ha
        rw [get_assignments] at ha
        rcases hw w hm with rfl | ⟨j, rfl⟩ | rfl | rfl
        · exact ht a ha
        · simp only [Write.assignmentAt] at ha
          split at ha
          · rw [Option.map_eq_some_iff] at ha
            obtain ⟨b, hb, rfl⟩ := ha
            have hrole := ht b hb
            split
            · exact hrole
            · exact hrole
          · exact ht a ha
        · simp only [Write.assignmentAt, newAssignment, hk, if_true, Option.some.injEq] at ha
          rw [← ha]
        · exact ht a ha
      cases ha : (applyAll s log).assignments.get k with
      | none => exact .inl (by rw [hk, hassignment])
      | some a => exact .inr ⟨by rw [hk, hassignment], a, rfl, hcandidate a ha⟩
    · refine .inl (applyAll_invariant
          (P := fun (t : Db) => t.assignments.get k = s.assignments.get k) ?_ rfl)
      intro w hm t ht
      rw [get_assignments, ht]
      rcases hw w hm with rfl | ⟨j, rfl⟩ | rfl | rfl
      · rfl
      · cases ha : s.assignments.get k with
        | none => simp [Write.assignmentAt]
        | some a =>
          have hne : a.userId ≠ id := by
            rintro rfl
            obtain ⟨v, hv⟩ := assignee_exists hi ha
            rw [huser] at hv
            cases hv
          simp [Write.assignmentAt, hne]
      · simp [Write.assignmentAt, newAssignment, hk]
      · rfl
  users k u hu := by
    have hk : k ≠ id := by
      rintro rfl
      rw [huser] at hu
      cases hu
    have hsame : (applyAll s log).users.get k = s.users.get k := by
      refine applyAll_invariant (P := fun (t : Db) => t.users.get k = s.users.get k) ?_ rfl
      intro w hm t ht
      rw [get_users, ht]
      rcases hw w hm with rfl | ⟨j, rfl⟩ | rfl | rfl
      · simp [Write.userAt, hk]
      · rfl
      · rfl
      · rfl
    exact ⟨u, hsame.trans hu, rfl, fun h h' => absurd (h.symm.trans h') (by decide),
      fun h h' => absurd (h.symm.trans h') (by decide)⟩

end

/-! ## What the checks see -/

theorem exclusive_of_no_violation {ctx : Context} {db : Db}
    (h : findAdminMaintainerExclusionViolations ctx db = []) :
    Exclusive ctx.organizationId db := by
  intro k ⟨u, hu, _, hua⟩ ⟨i, a, ha, hao, hau, har, haa⟩ ⟨j, b, hb, hbo, hbu, hbr, hba⟩
  have hactive : ∃ v ∈ db.users.rows, v.id = k ∧ v.isActive = true := ⟨u, Table.mem_of_get hu,
    Table.key_get hu, hua⟩
  have hmem : ∀ c role, db.assignments.get c.id = some c → c.organizationId = ctx.organizationId →
      c.userId = k → c.role = role → c.isActive = true → c ∈ effectiveAssignments ctx role db := by
    intro c role hc hco hcu hcr hca
    refine List.mem_filter.mpr ⟨Table.mem_of_get hc, ?_⟩
    simpa [hco, hcu, hcr, hca] using hactive
  have hadmin := hmem a .admin ((Table.key_get ha).symm ▸ ha) hao hau har haa
  have hmaintainer := hmem b .maintainer ((Table.key_get hb).symm ▸ hb) hbo hbu hbr hba
  have hviolation : (⟨a.userId, a.id, b.id⟩ : ExclusionViolation) ∈
      findAdminMaintainerExclusionViolations ctx db :=
    List.mem_flatMap.mpr ⟨a, hadmin,
      List.mem_map.mpr ⟨b, List.mem_filter.mpr ⟨hmaintainer, by simp [hau, hbu]⟩, rfl⟩⟩
  rw [h] at hviolation
  cases hviolation

theorem admin_of_count {ctx : Context} {db : Db}
    (h : countEffectiveActiveUsersWithRole ctx .admin db ≠ 0) :
    HasAdmin ctx.organizationId db := by
  obtain ⟨u, hu⟩ := List.exists_mem_of_ne_nil _ (List.ne_nil_of_length_pos (Nat.pos_of_ne_zero h))
  obtain ⟨hmem, hp⟩ := List.mem_filter.mp hu
  simp only [decide_eq_true_eq] at hp
  obtain ⟨ho, hactive, a, ha, hof, hrole, haa⟩ := hp
  simp only [ofAssignee, decide_eq_true_eq] at hof
  exact ⟨u.id, ⟨u, Table.get_of_mem hmem, ho, hactive⟩, a.id, a, Table.get_of_mem ha, hof.1, hof.2,
    hrole, haa⟩

end ExamSystem.Accounts
