import ExamSystem.Rows
import Mathlib.Order.Lattice

/-!
# Ranks in a list

The rank of a key is the number of elements ahead of it. Elements that have
different keys and small ranks are few, and in increasing order the ranks are the
places. Nothing here is about a particular program.
-/

namespace Ranks

variable {α κ : Type} [LinearOrder κ] (key : α → κ)

def ahead (l : List α) (k : κ) : Nat := l.countP fun x => key x < k

theorem ahead_append (l m : List α) (k : κ) :
    ahead key (l ++ m) k = ahead key l k + ahead key m k := List.countP_append

/-- An element that is not ahead of a key does not move it. -/
theorem ahead_concat_behind {l : List α} {x : α} {k : κ} (h : k ≤ key x) :
    ahead key (l ++ [x]) k = ahead key l k := by
  rw [ahead_append]
  simp [ahead, not_lt.mpr h]

/-- An element that is ahead of a key moves it by one. -/
theorem ahead_concat_ahead {l : List α} {x : α} {k : κ} (h : key x < k) :
    ahead key (l ++ [x]) k = ahead key l k + 1 := by
  rw [ahead_append]
  simp [ahead, h]

theorem ahead_sublist {l m : List α} (h : l.Sublist m) (k : κ) : ahead key l k ≤ ahead key m k :=
  h.countP_le

/-- A list that is not empty has an element that no other is behind. -/
theorem exists_last : ∀ {l : List α}, l ≠ [] → ∃ m ∈ l, ∀ x ∈ l, key x ≤ key m
  | [x], _ => ⟨x, by simp⟩
  | x :: y :: l, _ => by
    obtain ⟨m, hm, hle⟩ := exists_last (l := y :: l) (by simp)
    rcases le_total (key x) (key m) with h | h
    · refine ⟨m, List.mem_cons_of_mem x hm, ?_⟩
      intro z hz
      rcases List.mem_cons.mp hz with rfl | hz
      · exact h
      · exact hle z hz
    · refine ⟨x, by simp, ?_⟩
      intro z hz
      rcases List.mem_cons.mp hz with rfl | hz
      · exact le_refl _
      · exact le_trans (hle z hz) h

/-- The last of some elements has all the others ahead of it. -/
theorem length_le_ahead {l : List α} (hn : (l.map key).Nodup) {m : α} (hm : ∀ x ∈ l, key x ≤ key m) :
    l.length ≤ ahead key l (key m) + 1 := by
  have hlast : l.countP (fun x => !decide (key x < key m)) ≤ 1 := by
    have hsame : l.countP (fun x => !decide (key x < key m)) ≤ l.countP fun x =>
      decide (key x = key m) := by
      apply List.countP_mono_left
      intro x hx hnot
      have hnot : ¬ key x < key m := by simpa using hnot
      simpa using le_antisymm (hm x hx) (not_lt.mp hnot)
    rw [List.countP_eq_length_filter (p := fun x => decide (key x = key m))] at hsame
    exact Nat.le_trans hsame (Rows.length_filter_key key hn (key m))
  have hsplit := List.length_eq_countP_add_countP (fun x => decide (key x < key m)) (l := l)
  simp only [ahead]
  simp only [decide_not, Bool.not_eq_true, decide_eq_false_iff_not] at hsplit hlast
  omega

/-- At most `n` elements have fewer than `n` ahead of them. -/
theorem countP_le_of_ahead {l : List α} (hn : (l.map key).Nodup) {p : α → Bool} {n : Nat}
    (h : ∀ x ∈ l, p x = true → ahead key l (key x) < n) : l.countP p ≤ n := by
  rw [List.countP_eq_length_filter]
  by_cases hempty : l.filter p = []
  · simp [hempty]
  · obtain ⟨m, hm, hle⟩ := exists_last key hempty
    have hfilter : ((l.filter p).map key).Nodup := (List.filter_sublist.map key).nodup hn
    have hlen := length_le_ahead key hfilter hle
    have hsub := ahead_sublist key (List.filter_sublist (l := l) (p := p)) (key m)
    have hm' := h m (List.mem_filter.mp hm).1 (List.mem_filter.mp hm).2
    omega

/-! ## The ranks of distinct keys -/

theorem ahead_lt_length {l : List α} {x : α} (hx : x ∈ l) : ahead key l (key x) < l.length := by
  rw [ahead, List.countP_eq_length_filter, List.length_filter_lt_length_iff_exists]
  exact ⟨x, hx, by simp⟩

theorem ahead_lt_ahead {l : List α} {x y : α} (hx : x ∈ l) (h : key x < key y) :
    ahead key l (key x) < ahead key l (key y) := by
  have hsplit : (l.filter fun z => decide (key z < key y)).filter (fun z => decide (key z < key x)) =
      l.filter fun z => decide (key z < key x) := by
    rw [List.filter_filter]
    refine List.filter_congr fun z _ => ?_
    by_cases hz : key z < key x
    · simp [hz, hz.trans h]
    · simp [hz]
  rw [ahead, ahead, List.countP_eq_length_filter, List.countP_eq_length_filter, ← hsplit,
    List.length_filter_lt_length_iff_exists]
  exact ⟨x, List.mem_filter.mpr ⟨hx, by simpa using h⟩, by simp⟩

/-- Distinct keys have all the ranks below their number. -/
theorem ranks_perm {l : List α} (hn : (l.map key).Nodup) :
    (l.map fun x => ahead key l (key x)).Perm (List.range l.length) := by
  have hranks : (l.map fun x => ahead key l (key x)).Nodup := by
    refine List.Nodup.map_on (fun x hx y hy heq => ?_) hn.of_map
    have hkey : key x = key y := by
      rcases lt_trichotomy (key x) (key y) with hlt | heq' | hgt
      · exact absurd heq (Nat.ne_of_lt (ahead_lt_ahead key hx hlt))
      · exact heq'
      · exact absurd heq (Nat.ne_of_gt (ahead_lt_ahead key hy hgt))
    exact List.inj_on_of_nodup_map hn hx hy hkey
  refine (List.subperm_of_subset hranks fun n hmem => ?_).perm_of_length_le (by simp)
  obtain ⟨x, hx, rfl⟩ := List.mem_map.mp hmem
  exact List.mem_range.mpr (ahead_lt_length key hx)

theorem countP_range (n k : Nat) : (List.range n).countP (fun i => decide (k ≤ i)) = n - k := by
  induction n with
  | zero => simp
  | succ n ih =>
    rw [List.range_succ, List.countP_append, ih]
    by_cases h : k ≤ n
    · simp [h]
      omega
    · simp [h]
      omega

/-- Of the elements ahead of a key, all but the first `n` have a rank of at least `n`. -/
theorem countP_beyond {l : List α} (hn : (l.map key).Nodup) (k : κ) (n : Nat) :
    l.countP (fun x => decide (key x < k) && decide (n ≤ ahead key l (key x))) = ahead key l k - n := by
  let m := l.filter fun x => decide (key x < k)
  have hm : (m.map key).Nodup := (List.filter_sublist.map key).nodup hn
  have hsame : ∀ x ∈ m, ahead key m (key x) = ahead key l (key x) := by
    intro x hx
    have hxk : key x < k := by simpa using (List.mem_filter.mp hx).2
    rw [ahead, ahead, List.countP_filter]
    refine List.countP_congr fun z _ => ?_
    simp only [Bool.and_eq_true, decide_eq_true_eq, and_iff_left_iff_imp]
    exact fun hz => hz.trans hxk
  calc l.countP (fun x => decide (key x < k) && decide (n ≤ ahead key l (key x)))
      = m.countP (fun x => decide (n ≤ ahead key l (key x))) := by
        rw [List.countP_filter]
        exact List.countP_congr fun x _ => by rw [Bool.and_comm]
    _ = m.countP (fun x => decide (n ≤ ahead key m (key x))) :=
      List.countP_congr fun x hx => by rw [hsame x hx]
    _ = (m.map fun x => ahead key m (key x)).countP fun i => decide (n ≤ i) := by
        rw [List.countP_map]
        rfl
    _ = (List.range m.length).countP fun i => decide (n ≤ i) := (ranks_perm key hm).countP_eq _
    _ = ahead key l k - n := by rw [countP_range, ahead, List.countP_eq_length_filter]

/-! ## Places in increasing order -/

/-- In increasing order the place of an element is the number of those ahead of it. -/
theorem ahead_getElem {l : List α} (h : l.Pairwise fun x y => key x < key y) (i : Nat)
    (hi : i < l.length) :
    ahead key l (key l[i]) = i := by
  induction l generalizing i with
  | nil => cases hi
  | cons x l ih =>
    obtain ⟨hx, hl⟩ := List.pairwise_cons.mp h
    cases i with
    | zero =>
      refine List.countP_eq_zero.mpr fun y hy => ?_
      rcases List.mem_cons.mp hy with rfl | hy
      · simp
      · simpa using (hx y hy).le
    | succ i =>
      have hi' : i < l.length := Nat.lt_of_succ_lt_succ hi
      have hlt : key x < key l[i] := hx _ (List.getElem_mem hi')
      rw [ahead, List.countP_cons, List.getElem_cons_succ, if_pos (decide_eq_true hlt)]
      exact congrArg (· + 1) (ih hl i hi')

/-- The places of a list in increasing order. -/
theorem ranks_sorted {l : List α} (h : l.Pairwise fun x y => key x < key y) :
    (l.map fun x => ahead key l (key x)) = List.range l.length := by
  refine List.ext_getElem (by simp) fun i hi _ => ?_
  simp only [List.getElem_map, List.getElem_range]
  exact ahead_getElem key h i (by simpa using hi)

/-- Sorted by their keys, elements with different keys are in increasing order. -/
theorem pairwise_lt {l : List α} (hn : (l.map key).Nodup) (h : l.Pairwise fun x y => key x ≤ key y) :
    l.Pairwise fun x y => key x < key y :=
  (h.and (List.pairwise_map.mp hn)).imp fun hxy => lt_of_le_of_ne hxy.1 hxy.2

/-- A comparator that decides the order of the keys sorts by them. -/
theorem mergeSort_pairwise {l : List α} {le : α → α → Bool}
    (hle : ∀ x y, le x y = decide (key x ≤ key y)) (hn : (l.map key).Nodup) :
    (l.mergeSort le).Pairwise fun x y => key x < key y := by
  have hsorted : (l.mergeSort le).Pairwise fun x y => le x y = true := by
    refine List.pairwise_mergeSort (fun x y z hxy hyz => ?_) (fun x y => ?_) l
    · rw [hle, decide_eq_true_eq] at *
      exact hxy.trans hyz
    · rw [hle, hle, Bool.or_eq_true, decide_eq_true_eq, decide_eq_true_eq]
      exact le_total _ _
  have hkeys : ((l.mergeSort le).map key).Nodup := ((List.mergeSort_perm l le).map key).nodup_iff.mpr hn
  refine pairwise_lt key hkeys (hsorted.imp fun {x y} hxy => ?_)
  rw [hle, decide_eq_true_eq] at hxy
  exact hxy

end Ranks
