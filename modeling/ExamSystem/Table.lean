import ExamSystem.Rows

/-!
# Tables with a primary key

A table carries the proof that no two of its rows share a key, so a row is known
by its key and every operation is described by what it leaves at each key.
Nothing here is about a particular program.
-/

structure Table {α κ : Type} (key : α → κ) where
  rows : List α
  nodup : (rows.map key).Nodup
  deriving DecidableEq

namespace Table

variable {α κ : Type} {key : α → κ}

def empty : Table key := ⟨[], List.nodup_nil⟩

theorem filter_nodup (t : Table key) (p : α → Bool) : ((t.rows.filter p).map key).Nodup :=
  (List.filter_sublist.map key).nodup t.nodup

def remove (t : Table key) (p : α → Bool) : Table key := ⟨t.rows.filter fun x => !p x, filter_nodup t _⟩

theorem update_keys {f : α → α} (hf : ∀ x, key (f x) = key x) (t : Table key) (p : α → Bool) :
    (t.rows.map fun x => if p x then f x else x).map key = t.rows.map key := by
  rw [List.map_map]
  refine List.map_congr_left fun x _ => ?_
  by_cases hx : p x = true <;> simp [hx, hf]

def update (t : Table key) (p : α → Bool) (f : α → α) (hf : ∀ x, key (f x) = key x) : Table key :=
  ⟨t.rows.map fun x => if p x then f x else x, by rw [update_keys hf]; exact t.nodup⟩

variable [DecidableEq κ]

def get (t : Table key) (k : κ) : Option α := Rows.row key t.rows k

theorem put_nodup (t : Table key) (r : α) :
    ((t.rows.filter (fun x => !decide (key x = key r)) ++ [r]).map key).Nodup := by
  rw [List.map_append, List.nodup_append]
  refine ⟨filter_nodup t _, by simp, ?_⟩
  intro a ha b hb hab
  obtain ⟨x, hx, rfl⟩ := List.mem_map.mp ha
  have hne : key x ≠ key r := by simpa using (List.mem_filter.mp hx).2
  have hb : b = key r := by simpa using hb
  exact hne (hab.trans hb)

def put (t : Table key) (r : α) : Table key :=
  ⟨t.rows.filter (fun x => !decide (key x = key r)) ++ [r], put_nodup t r⟩

/-! ## What an operation leaves at a key -/

theorem mem_rows {t : Table key} {r : α} : r ∈ t.rows ↔ t.get (key r) = some r :=
  ⟨Rows.row_of_mem key t.nodup, Rows.mem_of_row key⟩

theorem key_get {t : Table key} {k : κ} {r : α} (h : t.get k = some r) : key r = k :=
  Rows.key_of_row key h

theorem mem_of_get {t : Table key} {k : κ} {r : α} (h : t.get k = some r) : r ∈ t.rows :=
  Rows.mem_of_row key h

theorem get_of_mem {t : Table key} {r : α} (h : r ∈ t.rows) : t.get (key r) = some r := mem_rows.mp h

theorem get_eq_some {t : Table key} {k : κ} {r : α} : t.get k = some r ↔ r ∈ t.rows ∧ key r = k := by
  constructor
  · intro h; exact ⟨mem_of_get h, key_get h⟩
  · intro h; rw [← h.2]; exact get_of_mem h.1

@[simp] theorem get_empty (k : κ) : (empty : Table key).get k = none := rfl

/-- Two lookups with the same rows have the same value. -/
theorem get_congr {s t : Table key} {k k' : κ} (h : ∀ r, s.get k = some r ↔ t.get k' = some r) :
    s.get k = t.get k' := by
  cases hs : s.get k with
  | some r => exact ((h r).mp hs).symm
  | none =>
    cases ht : t.get k' with
    | none => rfl
    | some r => rw [(h r).mpr ht] at hs; cases hs

theorem get_put (t : Table key) (r : α) (k : κ) :
    (t.put r).get k = if k = key r then some r else t.get k := by
  by_cases hk : k = key r
  · rw [if_pos hk, get_eq_some]
    exact ⟨by simp [put], hk.symm⟩
  · rw [if_neg hk]
    apply get_congr
    intro x
    rw [get_eq_some, get_eq_some]
    simp only [put, List.mem_append, List.mem_filter, List.mem_singleton, Bool.not_eq_true',
      decide_eq_false_iff_not]
    constructor
    · rintro ⟨hx | hx, hxk⟩
      · exact ⟨hx.1, hxk⟩
      · exact absurd (hx ▸ hxk).symm hk
    · rintro ⟨hx, hxk⟩
      exact ⟨.inl ⟨hx, fun he => hk (hxk.symm.trans he)⟩, hxk⟩

theorem get_of_mem_ne {t : Table key} {k : κ} (h : t.get k = none) {x : α} (hx : x ∈ t.rows) :
    key x ≠ k := by
  intro hk
  rw [← hk, get_of_mem hx] at h
  cases h

theorem rows_put_fresh {t : Table key} {r : α} (h : t.get (key r) = none) :
    (t.put r).rows = t.rows ++ [r] := by
  have hall : t.rows.filter (fun x => !decide (key x = key r)) = t.rows := by
    apply List.filter_eq_self.mpr
    intro x hx
    simpa using get_of_mem_ne h hx
  simp [put, hall]

theorem get_remove (t : Table key) (p : α → Bool) (k : κ) :
    (t.remove p).get k = (t.get k).filter fun x => !p x := by
  apply Option.ext
  intro x
  rw [get_eq_some, Option.filter_eq_some_iff, get_eq_some]
  simp only [remove, List.mem_filter]
  tauto

theorem get_update (t : Table key) (p : α → Bool) {f : α → α} (hf : ∀ x, key (f x) = key x) (k : κ) :
    (t.update p f hf).get k = (t.get k).map fun x => if p x then f x else x := by
  apply Option.ext
  intro y
  rw [get_eq_some, Option.map_eq_some_iff]
  simp only [update, List.mem_map]
  constructor
  · rintro ⟨⟨x, hx, rfl⟩, hk⟩
    refine ⟨x, get_eq_some.mpr ⟨hx, ?_⟩, rfl⟩
    rw [← hk]
    by_cases hp : p x = true <;> simp [hp, hf]
  · rintro ⟨x, hx, rfl⟩
    refine ⟨⟨x, mem_of_get hx, rfl⟩, ?_⟩
    rw [← key_get hx]
    by_cases hp : p x = true <;> simp [hp, hf]

/-- An update whose condition names the key. -/
theorem get_update_at (t : Table key) (p q : α → Bool) (f : α → α) (k₀ : κ)
    (hp : ∀ x, p x = true ↔ key x = k₀ ∧ q x = true) (hf : ∀ x, key (f x) = key x) (k : κ) :
    (t.update p f hf).get k = if k = k₀ then (t.get k).map fun x => if q x then f x else x
    else t.get k := by
  rw [get_update]
  cases h : t.get k with
  | none => simp
  | some x => by_cases hk : k = k₀ <;> simp [hp, key_get h, hk]

theorem get_remove_at (t : Table key) (p q : α → Bool) (k₀ : κ)
    (hp : ∀ x, p x = true ↔ key x = k₀ ∧ q x = true) (k : κ) :
    (t.remove p).get k = if k = k₀ then (t.get k).filter fun x => !q x else t.get k := by
  rw [get_remove]
  cases h : t.get k with
  | none => simp
  | some x =>
    have hx := hp x
    rw [key_get h] at hx
    by_cases hk : k = k₀
    · have hq : p x = q x := by
        rw [Bool.eq_iff_iff, hx]
        simp [hk]
      simp [Option.filter, hk, hq]
    · have hq : p x = false := by
        rw [Bool.eq_false_iff]
        exact fun hp => hk (hx.mp hp).1
      simp [hk, hq]

/-! ## Selections -/

theorem find_eq_some {t : Table key} {p : α → Bool} {r : α} (h : t.rows.find? p = some r) :
    t.get (key r) = some r ∧ p r = true :=
  ⟨get_of_mem (List.mem_of_find?_eq_some h), List.find?_some h⟩

theorem find_eq_none {t : Table key} {p : α → Bool} :
    t.rows.find? p = none ↔ ∀ k r, t.get k = some r → p r = false := by
  rw [List.find?_eq_none]
  constructor
  · intro h k r hr
    simpa using h r (mem_of_get hr)
  · intro h r hr
    simp [h _ r (get_of_mem hr)]

/-- A condition that singles out one row finds it. -/
theorem find_unique {t : Table key} {p : α → Bool} {k : κ} {r : α} (hr : t.get k = some r)
    (hp : p r = true) (hu : ∀ i x, t.get i = some x → p x = true → i = k) :
    t.rows.find? p = some r := by
  cases hf : t.rows.find? p with
  | none => rw [find_eq_none] at hf; rw [hf k r hr] at hp; cases hp
  | some x =>
    obtain ⟨hx, hpx⟩ := find_eq_some hf
    rw [hu _ x hx hpx, hr] at hx
    exact hx.symm

omit [DecidableEq κ] in
/-- Rows with different keys that all have one key are at most one row. -/
theorem at_most_one {rows : List α} (hn : (rows.map key).Nodup) {k : κ} (h : ∀ x ∈ rows, key x = k) :
    rows = [] ∨ ∃ x, rows = [x] ∧ key x = k := by
  match rows, hn, h with
  | [], _, _ => exact .inl rfl
  | [x], _, h => exact .inr ⟨x, rfl, h x (by simp)⟩
  | x :: y :: l, hn, h =>
    have hne : key x ≠ key y := fun he => (List.nodup_cons.mp hn).1 (by simp [he])
    exact absurd ((h x (by simp)).trans (h y (by simp)).symm) hne

/-- A condition that singles out one row selects it. -/
theorem filter_unique {t : Table key} {p : α → Bool} {r : α} (hr : t.get (key r) = some r)
    (hp : p r = true) (hu : ∀ x, t.get (key x) = some x → p x = true → key x = key r) :
    t.rows.filter p = [r] := by
  have hmem : r ∈ t.rows.filter p := List.mem_filter.mpr ⟨mem_of_get hr, hp⟩
  have hkey : ∀ x ∈ t.rows.filter p, key x = key r := by
    intro x hx
    obtain ⟨hx, hpx⟩ := List.mem_filter.mp hx
    exact hu x (get_of_mem hx) hpx
  rcases at_most_one (filter_nodup t p) hkey with h | ⟨x, h, _⟩
  · rw [h] at hmem
    cases hmem
  · rw [h] at hmem ⊢
    rw [List.mem_singleton.mp hmem]

end Table
