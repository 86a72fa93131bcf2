import ExamSystem.AccountLocks
import ExamSystem.PrimaryRows

/-!
# The assignments of one user under the advisory lock

The rows of a user in an organization are a list that each write changes as a
function of it. Under the organization's lock no other transaction changes this
list or the user, so the statements of a transaction work on one list from the
first to the last.
-/

namespace ExamSystem.Accounts

open Interleaving

/-! ## Rows and writes -/

/-- The assignments of the user in the organization, in the order of the table. -/
def rowsOf (o userId : String) (db : Db) : List UserRoleAssignment :=
  db.assignments.rows.filter fun a => a.organizationId = o ∧ a.userId = userId

def member (o userId : String) (db : Db) : Option User := (db.users.get userId).filter fun u =>
      u.organizationId = o

namespace Write

def onRows (o userId : String) (w : Write) (l : List UserRoleAssignment) : List UserRoleAssignment :=
  match w with
  | insertAssignment a => l.filter (fun b => !decide (b.id = a.id)) ++ if a.organizationId = o ∧
      a.userId = userId then [a] else []
  | updateAssignment u id patch => patchRows (fun b => b.userId = u ∧ b.id = id) patch l
  | deleteAssignment u id => l.filter fun b => !decide (b.userId = u ∧ b.id = id)
  | deleteUser id => l.filter fun b => !decide (b.userId = id)
  | _ => l

def onMember (o userId : String) (w : Write) (m : Option User) : Option User :=
  match w with
  | insertUser u => if userId = u.id then (some u).filter fun u => u.organizationId = o else m
  | updateUser id patch => if userId = id then m.map patch.set else m
  | deleteUser id => if userId = id then none else m
  | _ => m

end Write

section
variable {o userId : String} {db s t : Db} {log : List Write}

theorem mem_rowsOf {a : UserRoleAssignment} :
    a ∈ rowsOf o userId db ↔ db.assignments.get a.id = some a ∧ a.organizationId = o ∧
    a.userId = userId := by
  rw [rowsOf, List.mem_filter, Table.mem_rows, decide_eq_true_eq]

theorem rowsOf_nodup : ((rowsOf o userId db).map (·.id)).Nodup := Table.filter_nodup db.assignments _

theorem rowsOf_apply (w : Write) :
    rowsOf o userId (Journal.apply db w) = w.onRows o userId (rowsOf o userId db) := by
  cases w with
  | insertAssignment a =>
    refine (List.filter_append _ _).trans ?_
    rw [Write.onRows, rowsOf, List.filter_comm]
    congr 1
    by_cases h : a.organizationId = o ∧ a.userId = userId <;> simp [h]
  | updateAssignment u id patch =>
    refine List.filter_map.trans ?_
    rw [Write.onRows, patchRows, rowsOf]
    congr 2
    funext a
    simp only [Function.comp]
    split <;> rfl
  | deleteAssignment u id => exact List.filter_comm _ _ _
  | deleteUser id => exact List.filter_comm _ _ _
  | _ => rfl

theorem member_apply (w : Write) :
    member o userId (Journal.apply db w) = w.onMember o userId (member o userId db) := by
  rw [member, get_users]
  cases w with
  | insertUser u =>
    simp only [Write.userAt, Write.onMember]
    split <;> rfl
  | updateUser id patch =>
    simp only [Write.userAt, Write.onMember, member]
    split
    · cases hu : db.users.get userId with
      | none => rfl
      | some u =>
        have horg : (patch.set u).organizationId = u.organizationId := rfl
        by_cases h : u.organizationId = o <;> simp [Option.filter, h, horg]
    · rfl
  | deleteUser id =>
    simp only [Write.userAt, Write.onMember]
    split <;> rfl
  | _ => rfl

theorem rowsOf_congr (h : rowsOf o userId s = rowsOf o userId t) :
    rowsOf o userId (applyAll s log) = rowsOf o userId (applyAll t log) := by
  induction log generalizing s t with
  | nil => exact h
  | cons w log ih => exact ih (by rw [rowsOf_apply, rowsOf_apply, h])

theorem member_congr (h : member o userId s = member o userId t) :
    member o userId (applyAll s log) = member o userId (applyAll t log) := by
  induction log generalizing s t with
  | nil => exact h
  | cons w log ih => exact ih (by rw [member_apply, member_apply, h])

end

/-! ## What the others leave -/

/-- The two states have the same users and assignments of the organization. -/
structure SameOrg (o : String) (s s' : Db) : Prop where
  rows : ∀ userId, rowsOf o userId s' = rowsOf o userId s
  members : ∀ userId, member o userId s' = member o userId s

/-- What a transaction that holds the keys `K` knows of a commit of another one. -/
structure Reserved (K : List LockKey) (s s' : Db) : Prop where
  rows : Protected K s s'
  users : ∀ k u, s.users.get k = some u → ∃ v, s'.users.get k = some v ∧
    v.organizationId = u.organizationId
  organizations : ∀ o, .authority o ∈ K → SameOrg o s s'

namespace Reserved

variable {K : List LockKey} {s t u : Db}

theorem refl (K : List LockKey) (s : Db) : Reserved K s s :=
  ⟨.refl K s, fun _ u h => ⟨u, h, rfl⟩, fun _ _ => ⟨fun _ => rfl, fun _ => rfl⟩⟩

theorem trans (h : Reserved K s t) (h' : Reserved K t u) : Reserved K s u where
  rows := h.rows.trans h'.rows
  users k u hu := by
    obtain ⟨v, hv, hvo⟩ := h.users k u hu
    obtain ⟨w, hw, hwo⟩ := h'.users k v hv
    exact ⟨w, hw, hwo.trans hvo⟩
  organizations o ho := by
    have h₁ := h.organizations o ho
    have h₂ := h'.organizations o ho
    exact ⟨fun i => (h₂.rows i).trans (h₁.rows i), fun i => (h₂.members i).trans (h₁.members i)⟩

theorem mono {K' : List LockKey} (hK : ∀ k ∈ K, k ∈ K') (h : Reserved K' s t) : Reserved K s t :=
  ⟨h.rows.mono hK, h.users, fun o ho => h.organizations o (hK _ ho)⟩

end Reserved

/-! ## Writes within the rows of one user -/

/-- The write is about the user `userId` of the organization `o`: a row that it
names is locked, and if it is committed it is of that user. -/
def Write.Within (o userId : String) (K : List LockKey) (s : Db) (w : Write) : Prop :=
  match w with
  | insertAssignment a => (a.organizationId = o ∧ a.userId = userId) ∧ .assignment a.id ∈ K ∧
      ∀ b, s.assignments.get a.id = some b → b.organizationId = o ∧ b.userId = userId
  | updateAssignment _ id _ => .assignment id ∈ K ∧ ∀ b, s.assignments.get id = some b →
      b.organizationId = o ∧ b.userId = userId
  | deleteAssignment _ id => .assignment id ∈ K ∧ ∀ b, s.assignments.get id = some b →
      b.organizationId = o ∧ b.userId = userId
  | updateUser id _ => id = userId ∧ .user id ∈ K ∧ ∀ u, s.users.get id = some u → u.organizationId = o
  | insertUser _ => False
  | deleteUser _ => False
  | _ => True

section
variable {o userId : String} {K K' : List LockKey} {s s' : Db} {log : List Write} {w : Write}

theorem Write.Within.keys (hK : ∀ k ∈ K, k ∈ K') (h : w.Within o userId K s) :
    w.Within o userId K' s := by
  cases w with
  | insertAssignment a => exact ⟨h.1, hK _ h.2.1, h.2.2⟩
  | updateAssignment u id patch => exact ⟨hK _ h.1, h.2⟩
  | deleteAssignment u id => exact ⟨hK _ h.1, h.2⟩
  | updateUser id patch => exact ⟨h.1, hK _ h.2.1, h.2.2⟩
  | insertUser u => exact h
  | deleteUser id => exact h
  | _ => exact trivial

theorem Write.Within.protected (hp : Protected K s s') (h : w.Within o userId K s) :
    w.Within o userId K s' := by
  cases w with
  | insertAssignment a => exact ⟨h.1, h.2.1, fun b hb => h.2.2 b (hp.assignments _ b h.2.1 hb)⟩
  | updateAssignment u id patch => exact ⟨h.1, fun b hb => h.2 b (hp.assignments _ b h.1 hb)⟩
  | deleteAssignment u id => exact ⟨h.1, fun b hb => h.2 b (hp.assignments _ b h.1 hb)⟩
  | updateUser id patch =>
    exact ⟨h.1, h.2.1, fun u hu => h.2.2 u (by rw [← hp.users id h.2.1]; exact hu)⟩
  | insertUser u => exact h
  | deleteUser id => exact h
  | _ => exact trivial

theorem rowsOf_within (hw : ∀ w ∈ log, w.Within o userId K s) {o' userId' : String}
    (hne : ¬ (o' = o ∧ userId' = userId)) :
    rowsOf o' userId' (applyAll s log) = rowsOf o' userId' s := by
  have hother : ∀ b ∈ rowsOf o' userId' s, ∀ id, (∀ c, s.assignments.get id = some c →
      c.organizationId = o ∧ c.userId = userId) → b.id ≠ id := by
    intro b hb id hid he
    obtain ⟨hget, hbo, hbu⟩ := mem_rowsOf.mp hb
    have hown := hid b (he ▸ hget)
    exact hne ⟨hbo.symm.trans hown.1, hbu.symm.trans hown.2⟩
  refine applyAll_invariant (P := fun (v : Db) => rowsOf o' userId' v = rowsOf o' userId' s) ?_ rfl
  intro w hm v hv
  rw [rowsOf_apply, hv]
  have hin := hw w hm
  cases w with
  | insertAssignment a =>
    have hnot : ¬ (a.organizationId = o' ∧ a.userId = userId') :=
      fun h => hne ⟨h.1.symm.trans hin.1.1, h.2.symm.trans hin.1.2⟩
    rw [Write.onRows, if_neg hnot, List.append_nil, List.filter_eq_self.mpr]
    intro b hb
    simpa using hother b hb a.id hin.2.2
  | updateAssignment u id patch =>
    refine patchRows_id fun b hb hp => ?_
    simp only [decide_eq_true_eq] at hp
    exact absurd hp.2 (hother b hb id hin.2)
  | deleteAssignment u id =>
    refine List.filter_eq_self.mpr fun b hb => ?_
    simp [hother b hb id hin.2]
  | insertUser u => exact absurd hin id
  | deleteUser id => exact absurd hin (fun h => h)
  | _ => rfl

theorem member_within (hw : ∀ w ∈ log, w.Within o userId K s) {o' userId' : String}
    (hne : ¬ (o' = o ∧ userId' = userId)) :
    member o' userId' (applyAll s log) = member o' userId' s := by
  refine applyAll_invariant (P := fun (v : Db) => member o' userId' v = member o' userId' s) ?_ rfl
  intro w hm v hv
  rw [member_apply, hv]
  have hin := hw w hm
  cases w with
  | updateUser id patch =>
    rw [Write.onMember]
    split
    case isTrue hid =>
      subst hid
      have hnone : member o' userId' s = none := by
        rw [member, Option.filter_eq_none_iff]
        intro u hu he
        rw [decide_eq_true_eq] at he
        exact hne ⟨he.symm.trans (hin.2.2 u hu), hin.1⟩
      rw [hnone]
      rfl
    case isFalse => rfl
  | insertUser u => exact absurd hin id
  | deleteUser id => exact absurd hin (fun h => h)
  | _ => rfl

theorem users_within (hw : ∀ w ∈ log, w.Within o userId K s) {k : String} {u : User}
    (hu : s.users.get k = some u) :
    ∃ v, (applyAll s log).users.get k = some v ∧ v.organizationId = u.organizationId := by
  refine applyAll_invariant (P := fun (t : Db) => ∃ v, t.users.get k = some v ∧
    v.organizationId = u.organizationId) ?_ ⟨u, hu, rfl⟩
  intro w hm t ⟨v, hv, hvo⟩
  have hin := hw w hm
  rw [get_users, hv]
  cases w with
  | updateUser id patch =>
    simp only [Write.userAt]
    split
    · exact ⟨patch.set v, rfl, hvo⟩
    · exact ⟨v, rfl, hvo⟩
  | insertUser u => exact absurd hin (fun h => h)
  | deleteUser id => exact absurd hin (fun h => h)
  | _ => exact ⟨v, rfl, hvo⟩

theorem committed_within (hw : ∀ w ∈ log, w.Within o userId K s) {a : UserRoleAssignment}
    (ha : a ∈ rowsOf o userId (applyAll s log)) (b : UserRoleAssignment)
    (hb : s.assignments.get a.id = some b) : b.organizationId = o ∧ b.userId = userId := by
  by_contra hne
  have hid : b.id = a.id := Table.key_get hb
  have hmem : b ∈ rowsOf b.organizationId b.userId (applyAll s log) := by
    rw [rowsOf_within hw hne]
    exact mem_rowsOf.mpr ⟨by rw [hid]; exact hb, rfl, rfl⟩
  obtain ⟨hview, _⟩ := mem_rowsOf.mp hmem
  obtain ⟨haview, hao, hau⟩ := mem_rowsOf.mp ha
  rw [hid, haview, Option.some.injEq] at hview
  exact hne (hview ▸ ⟨hao, hau⟩)

end

end ExamSystem.Accounts
