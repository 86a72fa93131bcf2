import ExamSystem.JsonText

/-!
# Equality up to the order of keys

Two values are the same when one is the other with its members in another order.
A value whose members are arranged by their keys decides it up to that order.
-/

namespace ExamSystem

/-! ## The same value -/

mutual

/-- Equality up to the order of keys, with numbers compared by `r`. -/
def Tree.Same (r : ν → ν → Prop) : Tree ν → Tree ν → Prop
  | .null, .null => True
  | .bool a, .bool b => a = b
  | .num m, .num n => r m n
  | .str s, .str t => s = t
  | .arr xs, .arr ys => Tree.SameElements r xs ys
  | .obj es, .obj fs => es.length = fs.length ∧ Tree.SameEntries r es fs
  | _, _ => False

def Tree.SameElements (r : ν → ν → Prop) : List (Tree ν) → List (Tree ν) → Prop
  | [], [] => True
  | x :: xs, y :: ys => Tree.Same r x y ∧ Tree.SameElements r xs ys
  | _, _ => False

def Tree.SameEntries (r : ν → ν → Prop) : List (JsString × Tree ν) → List (JsString × Tree ν) → Prop
  | [], _ => True
  | (k, v) :: es, fs => (∃ w, (k, w) ∈ fs ∧ Tree.Same r v w) ∧ Tree.SameEntries r es fs

end

mutual

def Tree.Distinct : Tree ν → Prop
  | .null | .bool _ | .num _ | .str _ => True
  | .arr elements => Tree.DistinctElements elements
  | .obj entries => (entries.map Prod.fst).Nodup ∧ Tree.DistinctEntries entries

def Tree.DistinctElements : List (Tree ν) → Prop
  | [] => True
  | v :: elements => v.Distinct ∧ Tree.DistinctElements elements

def Tree.DistinctEntries : List (JsString × Tree ν) → Prop
  | [] => True
  | (_, v) :: entries => v.Distinct ∧ Tree.DistinctEntries entries

end

/-! ## Arrangements -/

def mapValues (f : α → β) (es : List (JsString × α)) : List (JsString × β) :=
  es.map fun e => (e.1, f e.2)

@[simp] theorem mapValues_nil (f : α → β) : mapValues f [] = [] := rfl

@[simp] theorem mapValues_cons (f : α → β) (e : JsString × α) (es : List (JsString × α)) :
    mapValues f (e :: es) = (e.1, f e.2) :: mapValues f es := rfl

@[simp] theorem mapValues_keys (f : α → β) (es : List (JsString × α)) :
    (mapValues f es).map Prod.fst = es.map Prod.fst := by
  simp [mapValues]

structure Arrangement where
  run : {α : Type} → List (JsString × α) → List (JsString × α)
  perm : ∀ {α : Type} (es : List (JsString × α)), (run es).Perm es
  natural : ∀ {α β : Type} (f : α → β) (es : List (JsString × α)),
    run (mapValues f es) = mapValues f (run es)
  unique : ∀ {α : Type} {es fs : List (JsString × α)}, (es.map Prod.fst).Nodup → es.Perm fs →
    run es = run fs

def sortByKey (es : List (JsString × α)) : List (JsString × α) := es.insertionSort fun a b => a.1 ≤ b.1

theorem sortByKey_perm (es : List (JsString × α)) : (sortByKey es).Perm es :=
  List.perm_insertionSort _ _

theorem sortByKey_natural (f : α → β) (es : List (JsString × α)) :
    sortByKey (mapValues f es) = mapValues f (sortByKey es) :=
  (List.map_insertionSort (fun a b : JsString × α => a.1 ≤ b.1)
      (fun a b : JsString × β => a.1 ≤ b.1) (fun e => (e.1, f e.2)) es
    fun _ _ _ _ => Iff.rfl).symm

theorem sortByKey_sorted (es : List (JsString × α)) : (sortByKey es).Pairwise fun a b => a.1 ≤ b.1 := by
  have htotal : Std.Total fun a b : JsString × α => a.1 ≤ b.1 := ⟨fun a b => List.le_total a.1 b.1⟩
  have htrans : IsTrans (JsString × α) fun a b => a.1 ≤ b.1 :=
    ⟨fun _ _ _ hab hbc => List.le_trans hab hbc⟩
  exact List.pairwise_insertionSort _ _

theorem sortByKey_unique {es fs : List (JsString × α)} (hkeys : (es.map Prod.fst).Nodup)
    (h : es.Perm fs) :
    sortByKey es = sortByKey fs := by
  have hperm : (sortByKey es).Perm (sortByKey fs) :=
    (sortByKey_perm es).trans (h.trans (sortByKey_perm fs).symm)
  refine hperm.eq_of_pairwise (fun a b ha hb hab hba => ?_) (sortByKey_sorted es) (sortByKey_sorted fs)
  have hkey : a.1 = b.1 := List.le_antisymm hab hba
  exact List.inj_on_of_nodup_map hkeys ((sortByKey_perm es).mem_iff.mp ha)
    (h.mem_iff.mpr ((sortByKey_perm fs).mem_iff.mp hb)) hkey

def byKey : Arrangement :=
  ⟨sortByKey, sortByKey_perm, sortByKey_natural, sortByKey_unique⟩

mutual

/-- The value with the members of every object arranged and its numbers mapped. -/
def Tree.arrange (A : Arrangement) (t : ν → μ) : Tree ν → Tree μ
  | .null => .null
  | .bool b => .bool b
  | .num n => .num (t n)
  | .str s => .str s
  | .arr elements => .arr (Tree.arrangeElements A t elements)
  | .obj entries => .obj (A.run (Tree.arrangeEntries A t entries))

def Tree.arrangeElements (A : Arrangement) (t : ν → μ) : List (Tree ν) → List (Tree μ)
  | [] => []
  | v :: elements => v.arrange A t :: Tree.arrangeElements A t elements

def Tree.arrangeEntries (A : Arrangement) (t : ν → μ) :
    List (JsString × Tree ν) → List (JsString × Tree μ)
  | [] => []
  | (k, v) :: entries => (k, v.arrange A t) :: Tree.arrangeEntries A t entries

end

section
variable {A : Arrangement} {t : ν → μ}

theorem arrangeEntries_eq (es : List (JsString × Tree ν)) :
    Tree.arrangeEntries A t es = mapValues (Tree.arrange A t) es := by
  induction es with
  | nil => rfl
  | cons e es ih => rw [Tree.arrangeEntries, ih, mapValues_cons]

theorem mem_arrangeEntries {k : JsString} {v : Tree μ} {es : List (JsString × Tree ν)} :
    (k, v) ∈ Tree.arrangeEntries A t es ↔ ∃ w, (k, w) ∈ es ∧ w.arrange A t = v := by
  simp [arrangeEntries_eq, mapValues]

mutual

theorem Tree.same_of_arrange :
    ∀ a b : Tree ν, a.arrange A t = b.arrange A t → Tree.Same (fun m n => t m = t n) a b
  | .null, b, h => by
    cases b with
    | null => trivial
    | bool _ | num _ | str _ | arr _ | obj _ => simp [Tree.arrange] at h
  | .bool x, b, h => by
    cases b with
    | bool y => exact Tree.bool.inj h
    | null | num _ | str _ | arr _ | obj _ => simp [Tree.arrange] at h
  | .num m, b, h => by
    cases b with
    | num n => exact Tree.num.inj h
    | null | bool _ | str _ | arr _ | obj _ => simp [Tree.arrange] at h
  | .str x, b, h => by
    cases b with
    | str y => exact Tree.str.inj h
    | null | bool _ | num _ | arr _ | obj _ => simp [Tree.arrange] at h
  | .arr xs, b, h => by
    cases b with
    | arr ys => exact Tree.sameElements_of_arrange xs ys (Tree.arr.inj h)
    | null | bool _ | num _ | str _ | obj _ => simp [Tree.arrange] at h
  | .obj es, b, h => by
    cases b with
    | obj fs =>
      have hperm : (Tree.arrangeEntries A t es).Perm (Tree.arrangeEntries A t fs) :=
        (A.perm _).symm.trans (Tree.obj.inj h ▸ A.perm _)
      have hlength := hperm.length_eq
      simp only [arrangeEntries_eq, mapValues, List.length_map] at hlength
      exact ⟨hlength, Tree.sameEntries_of_arrange es fs fun e he => hperm.mem_iff.mp he⟩
    | null | bool _ | num _ | str _ | arr _ => simp [Tree.arrange] at h

theorem Tree.sameElements_of_arrange :
    ∀ xs ys : List (Tree ν), Tree.arrangeElements A t xs = Tree.arrangeElements A t ys →
    Tree.SameElements (fun m n => t m = t n) xs ys
  | [], ys, h => by
    cases ys with
    | nil => trivial
    | cons y ys => cases h
  | x :: xs, ys, h => by
    cases ys with
    | nil => cases h
    | cons y ys => exact ⟨Tree.same_of_arrange x y (List.cons.inj h).1,
        Tree.sameElements_of_arrange xs ys (List.cons.inj h).2⟩

theorem Tree.sameEntries_of_arrange : ∀ es fs : List (JsString × Tree ν),
    (∀ e ∈ Tree.arrangeEntries A t es, e ∈ Tree.arrangeEntries A t fs) →
    Tree.SameEntries (fun m n => t m = t n) es fs
  | [], _, _ => trivial
  | (k, v) :: es, fs, h => by
    obtain ⟨w, hw, heq⟩ := mem_arrangeEntries.mp (h (k, v.arrange A t) List.mem_cons_self)
    exact ⟨⟨w, hw, Tree.same_of_arrange v w heq.symm⟩,
      Tree.sameEntries_of_arrange es fs fun e he => h e (List.mem_cons_of_mem _ he)⟩

end

mutual

theorem Tree.arrange_of_same :
    ∀ a b : Tree ν, a.Distinct → Tree.Same (fun m n => t m = t n) a b → a.arrange A t = b.arrange A t
  | .null, b, _, h => by
    cases b with
    | null => rfl
    | bool _ | num _ | str _ | arr _ | obj _ => cases h
  | .bool x, b, _, h => by
    cases b with
    | bool y => exact congrArg Tree.bool h
    | null | num _ | str _ | arr _ | obj _ => cases h
  | .num m, b, _, h => by
    cases b with
    | num n => exact congrArg Tree.num h
    | null | bool _ | str _ | arr _ | obj _ => cases h
  | .str x, b, _, h => by
    cases b with
    | str y => exact congrArg Tree.str h
    | null | bool _ | num _ | arr _ | obj _ => cases h
  | .arr xs, b, hd, h => by
    cases b with
    | arr ys => exact congrArg Tree.arr (Tree.arrangeElements_of_same xs ys hd h)
    | null | bool _ | num _ | str _ | obj _ => cases h
  | .obj es, b, hd, h => by
    cases b with
    | obj fs =>
      obtain ⟨hlength, hentries⟩ := h
      have hkeys : ((Tree.arrangeEntries A t es).map Prod.fst).Nodup := by
        rw [arrangeEntries_eq, mapValues_keys]
        exact hd.1
      have hle : (Tree.arrangeEntries A t fs).length ≤ (Tree.arrangeEntries A t es).length := by
        simp [arrangeEntries_eq, mapValues, hlength]
      -- as many distinct members, each a member of the other
      have hsub := List.subperm_of_subset (.of_map _ hkeys)
        (Tree.arrangeEntries_of_same es fs hd.2 hentries)
      exact congrArg Tree.obj (A.unique hkeys (hsub.perm_of_length_le hle))
    | null | bool _ | num _ | str _ | arr _ => cases h

theorem Tree.arrangeElements_of_same : ∀ xs ys : List (Tree ν), Tree.DistinctElements xs →
    Tree.SameElements (fun m n => t m = t n) xs ys →
    Tree.arrangeElements A t xs = Tree.arrangeElements A t ys
  | [], ys, _, h => by
    cases ys with
    | nil => rfl
    | cons y ys => cases h
  | x :: xs, ys, hd, h => by
    cases ys with
    | nil => cases h
    | cons y ys =>
      rw [Tree.arrangeElements, Tree.arrange_of_same x y hd.1 h.1,
        Tree.arrangeElements_of_same xs ys hd.2 h.2, Tree.arrangeElements]

theorem Tree.arrangeEntries_of_same : ∀ es fs : List (JsString × Tree ν), Tree.DistinctEntries es →
    Tree.SameEntries (fun m n => t m = t n) es fs →
    Tree.arrangeEntries A t es ⊆ Tree.arrangeEntries A t fs
  | [], _, _, _ => List.nil_subset _
  | (k, v) :: es, fs, hd, h => by
    obtain ⟨w, hw, hsame⟩ := h.1
    have hmem : (k, v.arrange A t) ∈ Tree.arrangeEntries A t fs :=
      mem_arrangeEntries.mpr ⟨w, hw, (Tree.arrange_of_same v w hd.1 hsame).symm⟩
    exact List.cons_subset.mpr ⟨hmem, Tree.arrangeEntries_of_same es fs hd.2 h.2⟩

end

theorem arrange_eq_iff {a b : Tree ν} (h : a.Distinct) :
    a.arrange A t = b.arrange A t ↔ Tree.Same (fun m n => t m = t n) a b :=
  ⟨Tree.same_of_arrange a b, Tree.arrange_of_same a b h⟩

end

theorem textEntries_eq (es : List (JsString × Tree NumberToken)) :
    Tree.textEntries es = (mapValues Tree.text es).map fun e =>
      stringifyString e.1 ++ js ":" ++ e.2 := by
  induction es with
  | nil => rfl
  | cons e es ih => rw [Tree.textEntries, ih, mapValues_cons, List.map_cons]

theorem text_arrange_iff {A : Arrangement} {t : ν → NumberToken} {a b : Tree ν} (h : a.Distinct) :
    (a.arrange A t).text = (b.arrange A t).text ↔ Tree.Same (fun m n => t m = t n) a b := by
  rw [← arrange_eq_iff h]
  constructor
  · intro htext
    exact (Tree.text_decode _ _ endsValue_nil endsValue_nil (congrArg (· ++ []) htext)).1
  · exact congrArg Tree.text

end ExamSystem
