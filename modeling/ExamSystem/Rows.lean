import Mathlib.Data.List.Nodup
import Mathlib.Data.List.Perm.Basic

/-!
# Tables of rows

A table is a list of rows with a key. A lookup returns the first row of a key,
an update rewrites the rows of a key in place, an insert appends. Nothing here
is about a particular program.
-/

namespace Rows

variable {α κ : Type} [DecidableEq κ] (key : α → κ)

def row (l : List α) (k : κ) : Option α := l.find? fun x => key x = k

def modify (l : List α) (k : κ) (f : α → α) : List α := l.map fun x => if key x = k then f x else x

/-! ## Lookups -/

theorem mem_of_row {l : List α} {k : κ} {x : α} (h : row key l k = some x) : x ∈ l :=
  List.mem_of_find?_eq_some h

theorem key_of_row {l : List α} {k : κ} {x : α} (h : row key l k = some x) : key x = k := by
  simpa using List.find?_some h

theorem row_eq_none {l : List α} {k : κ} : row key l k = none ↔ ∀ x ∈ l, key x ≠ k := by
  simp [row]

theorem row_of_mem {l : List α} (hn : (l.map key).Nodup) {x : α} (hx : x ∈ l) :
    row key l (key x) = some x := by
  cases h : row key l (key x) with
  | none => exact absurd rfl ((row_eq_none key).mp h x hx)
  | some y => rw [List.inj_on_of_nodup_map hn (mem_of_row key h) hx (key_of_row key h)]

theorem row_append (l m : List α) (k : κ) : row key (l ++ m) k = (row key l k).or (row key m k) := by
  simp [row]

theorem row_concat (l : List α) (x : α) (k : κ) :
    row key (l ++ [x]) k = (row key l k).or (if key x = k then some x else none) := by
  rw [row_append]
  by_cases h : key x = k <;> simp [row, h]

theorem row_concat_fresh {l : List α} {x : α} (h : row key l (key x) = none) (k : κ) :
    row key (l ++ [x]) k = if k = key x then some x else row key l k := by
  rw [row_concat]
  by_cases hk : k = key x
  · subst hk; simp [h]
  · simp [hk, Ne.symm hk]

theorem length_filter_key {l : List α} (hn : (l.map key).Nodup) (k : κ) :
    (l.filter fun x => key x = k).length ≤ 1 := by
  induction l with
  | nil => simp
  | cons x l ih =>
    rw [List.map_cons, List.nodup_cons] at hn
    by_cases hx : key x = k
    · have hnone : l.filter (fun y => key y = k) = [] := by
        rw [List.filter_eq_nil_iff]
        intro y hy hk
        have hyk : key y = k := by simpa using hk
        exact hn.1 (hx.trans hyk.symm ▸ List.mem_map_of_mem hy)
      simp [hx, hnone]
    · simpa [hx] using ih hn.2

theorem filter_key {l : List α} (hn : (l.map key).Nodup) {x : α} (hx : x ∈ l) :
    (l.filter fun y => key y = key x) = [x] := by
  have hmem : x ∈ l.filter fun y => key y = key x := by simp [hx]
  have hlen := length_filter_key key hn (key x)
  generalize (l.filter fun y => key y = key x) = m at hmem hlen
  match m, hmem, hlen with
  | [y], hmem, _ => rw [List.mem_singleton.mp hmem]

theorem row_reverse {l : List α} (hn : (l.map key).Nodup) (k : κ) :
    row key l.reverse k = row key l k := by
  cases h : row key l k with
  | none =>
    rw [row_eq_none] at h ⊢
    exact fun x hx => h x (List.mem_reverse.mp hx)
  | some x =>
    obtain rfl := key_of_row key h
    refine row_of_mem key ?_ (List.mem_reverse.mpr (mem_of_row key h))
    rw [List.map_reverse]
    exact List.nodup_reverse.mpr hn

/-! ## Updates -/

section
variable {f : α → α} (hf : ∀ x, key (f x) = key x)

include hf in
theorem row_modify (l : List α) (k k' : κ) :
    row key (modify key l k f) k' = if k' = k then (row key l k).map f else row key l k' := by
  induction l with
  | nil => simp [row, modify]
  | cons x l ih =>
    simp only [row, modify] at ih
    simp only [row, modify, List.map_cons, List.find?_cons]
    by_cases hx : key x = k
    · by_cases hk : k' = k
      · subst hk; simp [hx, hf]
      · simp only [hx, hf, if_true, hk, if_false, Ne.symm hk, decide_false]
        simpa [hk] using ih
    · by_cases hk : k' = k
      · subst hk; simp only [hx, if_false, decide_false, if_true]
        simpa using ih
      · by_cases hx' : key x = k'
        · simp [hx', hk]
        · simp only [hx, hx', hk, if_false, decide_false]
          simpa [hk] using ih

include hf in
theorem keys_modify (l : List α) (k : κ) : (modify key l k f).map key = l.map key := by
  rw [modify, List.map_map]
  refine List.map_congr_left fun x _ => ?_
  by_cases hx : key x = k <;> simp [hx, hf]

end

/-! ## Inserts -/

theorem keys_concat_nodup {l : List α} {x : α} (hn : (l.map key).Nodup) (h : row key l (key x) = none) :
    ((l ++ [x]).map key).Nodup := by
  rw [List.map_append, List.nodup_append]
  refine ⟨hn, by simp, ?_⟩
  intro a ha b hb
  obtain ⟨y, hy, rfl⟩ := List.mem_map.mp ha
  have : b = key x := by simpa using hb
  subst this
  exact (row_eq_none key).mp h y hy

/-! ## Selections -/

/-- An update that a selection does not look at commutes with it. -/
theorem filter_modify {p : α → Bool} {f : α → α} (h : ∀ x, p (f x) = p x) (l : List α) (k : κ) :
    (modify key l k f).filter p = modify key (l.filter p) k f := by
  induction l with
  | nil => rfl
  | cons x l ih =>
    simp only [modify] at ih
    by_cases hx : key x = k <;> by_cases hp : p x = true <;> simp [modify, hx, h, hp, ih]

/-- A column that an update does not write stays as it is. -/
theorem map_modify {β : Type} {g : α → β} {f : α → α} (h : ∀ x, g (f x) = g x) (l : List α) (k : κ) :
    (modify key l k f).map g = l.map g := by
  rw [modify, List.map_map]
  refine List.map_congr_left fun x _ => ?_
  by_cases hx : key x = k <;> simp [hx, h]

end Rows
