import ExamSystem.AccountRepos

/-!
# One primary among the assignments of a user

The assignments of one user are a list of rows with different ids. A row that is
deactivated keeps its primary flag, so the operations flag, demote and promote
rows that are not all active; what they keep is that an active row means exactly
one active primary.
-/

namespace ExamSystem.Accounts

/-- Rewrite the rows that `p` selects. -/
def patchRows (p : UserRoleAssignment → Bool) (patch : AssignmentPatch) (l : List UserRoleAssignment) :
    List UserRoleAssignment :=
  l.map fun a => if p a then patch.set a else a

def Sole (l : List UserRoleAssignment) (x : UserRoleAssignment) : Prop := l.filter isActivePrimary = [x]

def OnePrimary (l : List UserRoleAssignment) : Prop := (∃ a ∈ l, a.isActive = true) → ∃ x, Sole l x

def NoPrimary (l : List UserRoleAssignment) : Prop := ∀ a ∈ l, isActivePrimary a = false

section
variable {l : List UserRoleAssignment} {x t : UserRoleAssignment} {p q : UserRoleAssignment → Bool}
    {patch : AssignmentPatch}

theorem isActivePrimary_iff {a : UserRoleAssignment} :
    isActivePrimary a = true ↔ a.isPrimary = true ∧ a.isActive = true := by
  simp [isActivePrimary]

/-! ## The active primary -/

theorem Sole.mem (h : Sole l x) : x ∈ l ∧ isActivePrimary x = true := by
  have hx : x ∈ l.filter isActivePrimary := by
    rw [h]
    exact List.mem_singleton.mpr rfl
  exact List.mem_filter.mp hx

theorem Sole.unique (h : Sole l x) {a : UserRoleAssignment} (ha : a ∈ l)
    (hp : isActivePrimary a = true) : a = x := by
  have hmem : a ∈ l.filter isActivePrimary := List.mem_filter.mpr ⟨ha, hp⟩
  rw [h] at hmem
  exact List.mem_singleton.mp hmem

theorem sole_of (hn : (l.map (·.id)).Nodup) (hx : x ∈ l) (hp : isActivePrimary x = true)
    (hu : ∀ a ∈ l, isActivePrimary a = true → a.id = x.id) : Sole l x := by
  have hmem : x ∈ l.filter isActivePrimary := List.mem_filter.mpr ⟨hx, hp⟩
  have hids : ((l.filter isActivePrimary).map (·.id)).Nodup := (List.filter_sublist.map _).nodup hn
  rcases Table.at_most_one hids (fun a ha => hu a (List.mem_filter.mp ha).1
      (List.mem_filter.mp ha).2) with h | ⟨y, h, _⟩
  · rw [h] at hmem
    cases hmem
  · rw [h, List.mem_singleton] at hmem
    rw [Sole, h, hmem]

theorem Sole.one (h : Sole l x) : OnePrimary l := fun _ => ⟨x, h⟩

theorem one_of_idle (h : ∀ a ∈ l, a.isActive = false) : OnePrimary l := by
  rintro ⟨a, ha, hactive⟩
  rw [h a ha] at hactive
  cases hactive

theorem sole_find (h : Sole l x) : l.find? isActivePrimary = some x := by
  rw [← List.head?_filter, h]
  rfl

theorem OnePrimary.cases (h : OnePrimary l) : (∃ x, Sole l x) ∨ ∀ a ∈ l, a.isActive = false := by
  by_cases hactive : ∃ a ∈ l, a.isActive = true
  · exact .inl (h hactive)
  · refine .inr fun a ha => Bool.eq_false_iff.mpr fun ht => hactive ⟨a, ha, ht⟩

/-! ## Rewritten rows -/

theorem mem_patchRows {b : UserRoleAssignment} :
    b ∈ patchRows p patch l ↔ ∃ a ∈ l, b = if p a then patch.set a else a := by
  rw [patchRows, List.mem_map]
  constructor
  · intro ⟨a, ha, he⟩
    exact ⟨a, ha, he.symm⟩
  · intro ⟨a, ha, he⟩
    exact ⟨a, ha, he.symm⟩

theorem mem_kept (ht : t ∈ l) (h : p t = false) : t ∈ patchRows p patch l :=
  mem_patchRows.mpr ⟨t, ht, by simp [h]⟩

theorem patchRows_id (h : ∀ a ∈ l, p a = true → patch.set a = a) : patchRows p patch l = l := by
  have hsame : ∀ a ∈ l, (if p a then patch.set a else a) = id a := by
    intro a ha
    by_cases hp : p a = true
    · rw [if_pos hp]
      exact h a ha hp
    · rw [if_neg hp]
      rfl
  rw [patchRows, List.map_congr_left hsame, List.map_id]

theorem patchRows_congr (h : ∀ a ∈ l, p a = q a) : patchRows p patch l = patchRows q patch l :=
  List.map_congr_left fun a ha => by rw [h a ha]

theorem patchRows_ids : (patchRows p patch l).map (·.id) = l.map (·.id) := by
  rw [patchRows, List.map_map]
  refine List.map_congr_left fun a _ => ?_
  by_cases hp : p a = true <;> simp [hp, AssignmentPatch.set]

theorem Sole.patch_others (h : Sole l x) (hx : p x = false)
    (hp : ∀ a ∈ l, p a = true → isActivePrimary (patch.set a) = false) :
    Sole (patchRows p patch l) x := by
  have hfilter : l.filter (isActivePrimary ∘ fun a => if p a then patch.set a else a) =
      l.filter isActivePrimary := by
    refine List.filter_congr fun a ha => ?_
    by_cases hpa : p a = true
    · have hne : isActivePrimary a = false := by
        rw [Bool.eq_false_iff]
        intro ht
        rw [h.unique ha ht, hx] at hpa
        cases hpa
      simp [hpa, hp a ha hpa, hne]
    · simp [hpa]
  rw [Sole, patchRows, List.filter_map, hfilter, h]
  simp [hx]

theorem sole_promoted (hn : (l.map (·.id)).Nodup) (ht : t ∈ l)
    (hp : ∀ a ∈ l, p a = true ↔ a.id = t.id)
    (hnone : ∀ a ∈ l, a.id ≠ t.id → isActivePrimary a = false)
    (hset : isActivePrimary (patch.set t) = true) :
    Sole (patchRows p patch l) (patch.set t) := by
  have hpt : p t = true := (hp t ht).mpr rfl
  refine sole_of (by rw [patchRows_ids]; exact hn) (mem_patchRows.mpr ⟨t, ht, by simp [hpt]⟩) hset ?_
  intro b hb hprimary
  obtain ⟨a, ha, rfl⟩ := mem_patchRows.mp hb
  by_cases hpa : p a = true
  · rw [if_pos hpa]
    exact (hp a ha).mp hpa
  · rw [if_neg hpa] at hprimary
    have hne : a.id ≠ t.id := fun he => hpa ((hp a ha).mpr he)
    rw [hnone a ha hne] at hprimary
    cases hprimary

theorem sole_by_id (hn : (l.map (·.id)).Nodup) (ht : t ∈ l) (hnone : NoPrimary l)
    (hset : isActivePrimary (patch.set t) = true) :
    Sole (patchRows (fun a => a.id = t.id) patch l) (patch.set t) :=
  sole_promoted hn ht (fun _ _ => decide_eq_true_iff) (fun a ha _ => hnone a ha) hset

theorem noPrimary_patch (h : ∀ a ∈ l, isActivePrimary (if p a then patch.set a else a) = false) :
    NoPrimary (patchRows p patch l) := by
  intro b hb
  obtain ⟨a, ha, rfl⟩ := mem_patchRows.mp hb
  exact h a ha

/-! ## New and removed rows -/

theorem sole_append (h : NoPrimary l) (ht : isActivePrimary t = true) : Sole (l ++ [t]) t := by
  have hnil : l.filter isActivePrimary = [] := List.filter_eq_nil_iff.mpr fun a ha => by simp [h a ha]
  rw [Sole, List.filter_append, hnil]
  simp [ht]

theorem Sole.append (h : Sole l x) (ht : isActivePrimary t = false) : Sole (l ++ [t]) x := by
  rw [Sole, List.filter_append, h]
  simp [ht]

theorem Sole.filter (h : Sole l x) (hx : p x = true) : Sole (l.filter p) x := by
  rw [Sole, List.filter_comm, h]
  simp [hx]

/-! ## The next primary -/

theorem firstLeast_mem {α : Type} {f : α → Int} :
    ∀ {l : List α} {a : α}, firstLeast f l = some a → a ∈ l
  | [], _, h => by cases h
  | b :: l, a, h => by
    unfold firstLeast at h
    split at h
    · rw [Option.some.injEq] at h
      exact h ▸ List.mem_cons_self
    case h_2 c hc =>
      split at h <;> rw [Option.some.injEq] at h
      · exact h ▸ List.mem_cons_of_mem b (firstLeast_mem hc)
      · exact h ▸ List.mem_cons_self

theorem firstLeast_none {α : Type} {f : α → Int} : ∀ {l : List α}, firstLeast f l = none → l = []
  | [], _ => rfl
  | b :: l, h => by
    unfold firstLeast at h
    split at h
    · cases h
    · split at h <;> cases h

def nextActive (l : List UserRoleAssignment) : Option UserRoleAssignment :=
  firstLeast (·.createdAt) (l.filter (·.isActive))

theorem nextActive_mem (h : nextActive l = some t) : t ∈ l ∧ t.isActive = true :=
  List.mem_filter.mp (firstLeast_mem h)

theorem nextActive_none (h : nextActive l = none) : ∀ a ∈ l, a.isActive = false := by
  intro a ha
  have hnil := List.filter_eq_nil_iff.mp (firstLeast_none h) a ha
  simpa using hnil

def promotedNext (l : List UserRoleAssignment) : List UserRoleAssignment :=
  match nextActive l with
  | none => l
  | some n => patchRows (fun a => a.id = n.id) { isPrimary := some true } l

theorem promotedNext_one (hn : (l.map (·.id)).Nodup) (h : NoPrimary l) :
    OnePrimary (promotedNext l) := by
  unfold promotedNext
  split
  case h_1 hnext => exact one_of_idle (nextActive_none hnext)
  case h_2 n hnext =>
    obtain ⟨hmem, hactive⟩ := nextActive_mem hnext
    have hset : isActivePrimary (AssignmentPatch.set { isPrimary := some true } n) = true :=
      isActivePrimary_iff.mpr ⟨rfl, hactive⟩
    exact (sole_by_id hn hmem h hset).one

theorem promotedNext_same (hn : (l.map (·.id)).Nodup)
    (h : ∀ n, nextActive l = some n → n.isPrimary = true) : promotedNext l = l := by
  unfold promotedNext
  split
  · rfl
  case h_2 n hnext =>
    refine patchRows_id fun a ha hp => ?_
    have hsame : a = n := List.inj_on_of_nodup_map hn ha (nextActive_mem hnext).1 (of_decide_eq_true hp)
    have hprimary := h n hnext
    rw [← hsame] at hprimary
    obtain ⟨_, _, _, _, isPrimary, _, _⟩ := a
    cases hprimary
    rfl

end

/-! ## A row less -/

def actives (l : List UserRoleAssignment) : List UserRoleAssignment := l.filter (·.isActive)

/-- The active rows lost `t`, which was deactivated or removed. -/
def Dropped (t : UserRoleAssignment) (l l' : List UserRoleAssignment) : Prop :=
  actives l' = (actives l).filter fun a => !decide (a.id = t.id)

/-- The next active row may be promoted: there is no active primary, or it is the next one. -/
def Ready (l : List UserRoleAssignment) : Prop := NoPrimary l ∨
    (OnePrimary l ∧ ∀ n, nextActive l = some n → n.isPrimary = true)

section
variable {l l' : List UserRoleAssignment} {x t : UserRoleAssignment}

theorem sole_actives : Sole l x ↔ (actives l).filter (·.isPrimary) = [x] := by
  rw [actives, List.filter_filter]
  rfl

theorem mem_actives {a : UserRoleAssignment} : a ∈ actives l ↔ a ∈ l ∧ a.isActive = true :=
  List.mem_filter

theorem one_actives (h : actives l = actives l') (hl : OnePrimary l) : OnePrimary l' := by
  rintro ⟨a, ha, hactive⟩
  have hmem : a ∈ actives l := by
    rw [h]
    exact mem_actives.mpr ⟨ha, hactive⟩
  obtain ⟨x, hx⟩ := hl ⟨a, mem_actives.mp hmem⟩
  exact ⟨x, sole_actives.mpr (by rw [← h]; exact sole_actives.mp hx)⟩

theorem dropped_inactive :
    Dropped t l (patchRows (fun a => a.id = t.id) { isActive := some false } l) := by
  have hkept : l.filter ((·.isActive) ∘ fun a => if decide (a.id = t.id) then AssignmentPatch.set
      { isActive := some false } a else a) =
      l.filter fun a => !decide (a.id = t.id) && a.isActive := by
    refine List.filter_congr fun a _ => ?_
    by_cases ha : a.id = t.id <;> simp [ha, AssignmentPatch.set]
  rw [Dropped, actives, patchRows, List.filter_map, hkept, actives, List.filter_filter]
  refine (List.map_congr_left fun a ha => ?_).trans (List.map_id _)
  have hne := (List.mem_filter.mp ha).2
  simp only [Bool.and_eq_true, Bool.not_eq_true', decide_eq_false_iff_not] at hne
  simp [hne.1]

theorem dropped_removed : Dropped t l (l.filter fun a => !decide (a.id = t.id)) :=
  List.filter_comm _ _ _

theorem Dropped.unflagged (h : Dropped t l l') (hn : (l.map (·.id)).Nodup) (ht : t ∈ l)
    (hp : t.isPrimary = false) (hl : OnePrimary l) :
    (∃ x, Sole l x ∧ Sole l' x) ∨ ∀ a ∈ l', a.isActive = false := by
  rcases hl.cases with ⟨x, hx⟩ | hidle
  · refine .inl ⟨x, hx, sole_actives.mpr ?_⟩
    have hne : x.id ≠ t.id := by
      intro he
      have hprimary := (isActivePrimary_iff.mp hx.mem.2).1
      rw [List.inj_on_of_nodup_map hn hx.mem.1 ht he, hp] at hprimary
      cases hprimary
    rw [h, List.filter_comm, sole_actives.mp hx]
    simp [hne]
  · refine .inr fun a ha => Bool.eq_false_iff.mpr fun hactive => ?_
    have hmem : a ∈ actives l' := mem_actives.mpr ⟨ha, hactive⟩
    rw [h] at hmem
    obtain ⟨hold, hwas⟩ := mem_actives.mp (List.mem_filter.mp hmem).1
    rw [hidle a hold] at hwas
    cases hwas

theorem Dropped.flagged (h : Dropped t l l') (hn : (l.map (·.id)).Nodup) (ht : t ∈ l)
    (hp : t.isPrimary = true) (hl : OnePrimary l)
    (hnext : t.isActive = false → ∀ n, nextActive l = some n → n.isPrimary = true) : Ready l' := by
  cases hactive : t.isActive with
  | true =>
    obtain ⟨x, hx⟩ := hl ⟨t, ht, hactive⟩
    have hxt : t = x := hx.unique ht (isActivePrimary_iff.mpr ⟨hp, hactive⟩)
    refine .inl fun a ha => Bool.eq_false_iff.mpr fun hprimary => ?_
    obtain ⟨haprimary, haactive⟩ := isActivePrimary_iff.mp hprimary
    have hmem : a ∈ (actives l').filter (·.isPrimary) :=
      List.mem_filter.mpr ⟨mem_actives.mpr ⟨ha, haactive⟩, haprimary⟩
    rw [h, List.filter_comm, sole_actives.mp hx, hxt] at hmem
    simp at hmem
  | false =>
    have hsame : actives l = actives l' := by
      refine (h.trans (List.filter_eq_self.mpr fun a ha => ?_)).symm
      obtain ⟨hal, haactive⟩ := mem_actives.mp ha
      have hne : a.id ≠ t.id := by
        intro he
        rw [List.inj_on_of_nodup_map hn hal ht he, hactive] at haactive
        cases haactive
      simp [hne]
    refine .inr ⟨one_actives hsame hl, fun n hn' => hnext hactive n ?_⟩
    have hleast : nextActive l = nextActive l' :=
      congrArg (firstLeast fun a : UserRoleAssignment => a.createdAt) hsame
    rw [hleast]
    exact hn'

theorem Ready.free (h : Ready l) (n : UserRoleAssignment) (hn : nextActive l = some n)
    (b : UserRoleAssignment) (hb : b ∈ l) (hne : b.id ≠ n.id) :
    isActivePrimary b = false := by
  rcases h with hnone | ⟨hone, hnext⟩
  · exact hnone b hb
  · obtain ⟨hmem, hactive⟩ := nextActive_mem hn
    obtain ⟨x, hx⟩ := hone ⟨n, hmem, hactive⟩
    have hnx := hx.unique hmem (isActivePrimary_iff.mpr ⟨hnext n hn, hactive⟩)
    refine Bool.eq_false_iff.mpr fun hprimary => hne ?_
    rw [hx.unique hb hprimary, hnx]

theorem Ready.promoted (h : Ready l) (hn : (l.map (·.id)).Nodup) : OnePrimary (promotedNext l) := by
  rcases h with hnone | ⟨hone, hnext⟩
  · exact promotedNext_one hn hnone
  · rw [promotedNext_same hn hnext]
    exact hone

end

/-! ## The role of the user -/

def RoleSynced (l : List UserRoleAssignment) (m : Option User) : Prop := ∀ x u, Sole l x →
    m = some u → u.role = x.role

def synced (l : List UserRoleAssignment) (m : Option User) : Option User :=
  match l.find? isActivePrimary with
  | none => m
  | some p => m.map (UserPatch.set { role := some p.role })

theorem synced_role (l : List UserRoleAssignment) (m : Option User) : RoleSynced l (synced l m) := by
  intro x u hx hu
  rw [synced, sole_find hx, Option.map_eq_some_iff] at hu
  obtain ⟨v, _, rfl⟩ := hu
  rfl

section
variable {l l' : List UserRoleAssignment} {m : Option User} {x : UserRoleAssignment}

theorem RoleSynced.same (h : RoleSynced l m) (hx : Sole l x) (hx' : Sole l' x) : RoleSynced l' m := by
  intro y u hy hu
  have hxy : y = x := by simpa using hy.symm.trans hx'
  rw [hxy]
  exact h x u hx hu

theorem synced_of_idle (h : ∀ a ∈ l, a.isActive = false) : RoleSynced l m := by
  intro y u hy _
  have hactive := (isActivePrimary_iff.mp hy.mem.2).2
  rw [h y hy.mem.1] at hactive
  cases hactive

end

end ExamSystem.Accounts
