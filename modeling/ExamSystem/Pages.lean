import Mathlib.Data.List.Sort

/-!
# Pages of a merge

Two sorted sources are merged and cut into pages. A page needs no more of a
source than as many of its first elements as there are positions up to its end,
and the pages together are the whole.
-/

namespace Pages

variable {α : Type}

/-! ## Prefixes -/

/-- The first `n` of a merge come from the first `n` of each side. -/
theorem take_merge (le : α → α → Bool) : ∀ (n : Nat) (xs ys : List α),
    (List.merge xs ys le).take n = (List.merge (xs.take n) (ys.take n) le).take n
  | 0, _, _ => rfl
  | n + 1, [], ys => by
    rw [List.take_nil, List.nil_merge, List.nil_merge, List.take_take, Nat.min_self]
  | n + 1, x :: xs, [] => by
    rw [List.take_nil, List.merge_right, List.merge_right, List.take_take, Nat.min_self]
  | n + 1, x :: xs, y :: ys => by
    have hshort : ∀ (z : α) (zs : List α), (z :: zs.take n).take n = (z :: zs).take n := by
      intro z zs
      rw [← List.take_succ_cons, List.take_take, Nat.min_eq_left (Nat.le_succ n)]
    have hself : ∀ zs : List α, (zs.take n).take n = zs.take n := by
      intro zs
      rw [List.take_take, Nat.min_self]
    rw [List.take_succ_cons, List.take_succ_cons, List.cons_merge_cons, List.cons_merge_cons]
    by_cases hle : le x y = true
    · rw [if_pos hle, if_pos hle, List.take_succ_cons, List.take_succ_cons,
        take_merge le n xs (y :: ys), take_merge le n (xs.take n) (y :: ys.take n), hself, hshort]
    · rw [if_neg hle, if_neg hle, List.take_succ_cons, List.take_succ_cons,
        take_merge le n (x :: xs) ys, take_merge le n (x :: xs.take n) (ys.take n), hself, hshort]

variable (r : α → α → Prop) [DecidableRel r]

section
variable [Std.Total r] [IsTrans α r]

theorem orderedInsert_merge {x : α} {xs : List α} (h : ∀ z ∈ xs, r x z) : ∀ ys : List α,
    List.orderedInsert r x (List.merge xs ys (r · ·)) = List.merge (x :: xs) ys (r · ·)
  | [] => by
    rw [List.merge_right, List.merge_right]
    cases xs with
    | nil => rfl
    | cons z xs => rw [List.orderedInsert, if_pos (h z List.mem_cons_self)]
  | y :: ys => by
    rw [List.cons_merge_cons]
    by_cases hxy : r x y
    · rw [if_pos (by simpa using hxy)]
      cases xs with
      | nil => rw [List.nil_merge, List.orderedInsert, if_pos hxy]
      | cons z xs =>
        rw [List.cons_merge_cons]
        split
        · rw [List.orderedInsert, if_pos (h z List.mem_cons_self)]
        · rw [List.orderedInsert, if_pos hxy]
    · rw [if_neg (by simpa using hxy), ← orderedInsert_merge h ys]
      have hyx : r y x := (Std.Total.total x y).resolve_left hxy
      cases xs with
      | nil => rw [List.nil_merge, List.nil_merge, List.orderedInsert, if_neg hxy]
      | cons z xs =>
        have hzy : ¬ r z y := fun hzy => hxy (IsTrans.trans _ _ _ (h z List.mem_cons_self) hzy)
        rw [List.cons_merge_cons, if_neg (by simpa using hzy), List.orderedInsert, if_neg hxy]

/-- A stable sort of two sorted lists one after the other is their merge. -/
theorem insertionSort_append {xs ys : List α} (hx : xs.Pairwise r) (hy : ys.Pairwise r) :
    (xs ++ ys).insertionSort r = List.merge xs ys (r · ·) := by
  induction xs with
  | nil => rw [List.nil_append, List.nil_merge, hy.insertionSort_eq]
  | cons x xs ih =>
    rw [List.pairwise_cons] at hx
    rw [List.cons_append, List.insertionSort_cons, ih hx.2, orderedInsert_merge r hx.1]

/-- A page of two sorted sources, from `n` rows of each, is the page of all their rows
when `n` reaches the end of the page or of the rows. -/
theorem page_of_prefixes {xs ys : List α} (hx : xs.Pairwise r) (hy : ys.Pairwise r)
    {offset limit n : Nat} (hn : min (offset + limit) (xs.length + ys.length) ≤ n) :
    (((xs.take n ++ ys.take n).insertionSort r).drop offset).take limit =
      (((xs ++ ys).insertionSort r).drop offset).take limit := by
  rw [insertionSort_append r (hx.sublist (List.take_sublist n xs))
      (hy.sublist (List.take_sublist n ys)), insertionSort_append r hx hy,
    List.take_drop, List.take_drop]
  congr 1
  by_cases hreach : offset + limit ≤ n
  · have hcut : ∀ zs : List α, zs.take (offset + limit) = (zs.take n).take (offset + limit) := by
      intro zs
      rw [List.take_take, Nat.min_eq_left hreach]
    rw [take_merge, take_merge (r · ·) (offset + limit) xs ys, hcut xs, hcut ys]
  · have hall : xs.length + ys.length ≤ n := by omega
    rw [List.take_of_length_le (by omega : xs.length ≤ n),
      List.take_of_length_le (by omega : ys.length ≤ n)]

end

/-! ## All pages -/

/-- The pages of a list, as many as it takes, are the list. -/
theorem flatMap_pages (l : List α) (limit : Nat) : ∀ pages : Nat,
    (List.range pages).flatMap (fun page => (l.drop (page * limit)).take limit) = l.take (pages * limit)
  | 0 => by simp
  | pages + 1 => by
    rw [List.range_succ, List.flatMap_append, flatMap_pages l limit pages, List.flatMap_singleton,
      Nat.succ_mul, List.take_add]

theorem length_le_pages {total limit : Nat} (h : 0 < limit) :
    total ≤ (total + limit - 1) / limit * limit := by
  have hdiv := Nat.div_add_mod (total + limit - 1) limit
  have hmod := Nat.mod_lt (total + limit - 1) h
  rw [Nat.mul_comm] at hdiv
  omega

end Pages
