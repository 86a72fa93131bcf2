import Mathlib.Data.List.Infix

/-!
# Arrays in memory

Arrays are known by their addresses. A new array gets a new address, so what is
written to it leaves the older arrays as they were. Nothing here is about a
particular program.
-/

structure ArrayHeap (α : Type) where
  arrays : List (Array α)

namespace ArrayHeap

variable {α : Type} {h h₀ h' : ArrayHeap α} {a : Nat}

def read (h : ArrayHeap α) (a : Nat) : Array α := h.arrays.getD a #[]

def alloc (h : ArrayHeap α) (items : Array α) : Nat × ArrayHeap α :=
  (h.arrays.length, ⟨h.arrays ++ [items]⟩)

/-- `array[i] = x`, for an index of the array. -/
def setElement (h : ArrayHeap α) (a i : Nat) (x : α) : ArrayHeap α :=
  ⟨h.arrays.modify a (·.setIfInBounds i x)⟩

def exchange (h : ArrayHeap α) (a i j : Nat) : ArrayHeap α :=
  match (h.read a)[i]?, (h.read a)[j]? with
  | some tmp, some other => (h.setElement a i other).setElement a j tmp
  | _, _ => h

/-! ## Reading -/

def Has (h : ArrayHeap α) (a : Nat) : Prop := a < h.arrays.length

theorem alloc_has (h : ArrayHeap α) (items : Array α) : (h.alloc items).2.Has (h.alloc items).1 := by
  simp [Has, alloc]

@[simp] theorem read_alloc (h : ArrayHeap α) (items : Array α) :
    (h.alloc items).2.read (h.alloc items).1 = items := by
  simp [read, alloc]

theorem setElement_has (h : ArrayHeap α) (a i b : Nat) (x : α) :
    (h.setElement a i x).Has b ↔ h.Has b := by
  simp [Has, setElement]

theorem read_setElement (ha : h.Has a) (i : Nat) (x : α) :
    (h.setElement a i x).read a = (h.read a).setIfInBounds i x := by
  have ha : a < h.arrays.length := ha
  simp [read, setElement, ha]

theorem exchange_has (h : ArrayHeap α) (a i j b : Nat) : (h.exchange a i j).Has b ↔ h.Has b := by
  unfold exchange
  split
  · rw [setElement_has, setElement_has]
  · rfl

theorem read_exchange (ha : h.Has a) (i j : Nat) :
    (h.exchange a i j).read a = (h.read a).swapIfInBounds i j := by
  unfold exchange Array.swapIfInBounds
  split
  case h_1 tmp other hi hj =>
    obtain ⟨hilt, rfl⟩ := Array.getElem?_eq_some_iff.mp hi
    obtain ⟨hjlt, rfl⟩ := Array.getElem?_eq_some_iff.mp hj
    rw [read_setElement ((setElement_has _ _ _ _ _).mpr ha), read_setElement ha, dif_pos hilt,
      dif_pos hjlt, Array.swap_def]
    simp [Array.setIfInBounds, hilt, hjlt]
  case h_2 hnone =>
    by_cases hi : i < (h.read a).size
    · by_cases hj : j < (h.read a).size
      · exact absurd (Array.getElem?_eq_getElem hj) (hnone _ _ (Array.getElem?_eq_getElem hi))
      · rw [dif_pos hi, dif_neg hj]
    · rw [dif_neg hi]

/-! ## What stays -/

def Keeps (h h' : ArrayHeap α) : Prop := h.arrays <+: h'.arrays

theorem Keeps.refl (h : ArrayHeap α) : Keeps h h := List.prefix_rfl

theorem Keeps.trans {h₁ h₂ h₃ : ArrayHeap α} (h : Keeps h₁ h₂) (h' : Keeps h₂ h₃) : Keeps h₁ h₃ :=
  List.IsPrefix.trans h h'

theorem keeps_alloc (h : ArrayHeap α) (items : Array α) : Keeps h (h.alloc items).2 :=
  List.prefix_append _ _

theorem Keeps.has (h : Keeps h₀ h') (ha : h₀.Has a) : h'.Has a := Nat.lt_of_lt_of_le ha h.length_le

theorem Keeps.read (h : Keeps h₀ h') (ha : h₀.Has a) : h'.read a = h₀.read a := by
  have ha : a < h₀.arrays.length := ha
  have hsame : h'.arrays[a]? = some h₀.arrays[a] := List.prefix_iff_getElem?.mp h a ha
  simp [ArrayHeap.read, hsame, ha]

theorem Keeps.setElement (h : Keeps h₀ h') (ha : h₀.arrays.length ≤ a) (i : Nat) (x : α) :
    Keeps h₀ (h'.setElement a i x) := by
  refine List.prefix_iff_getElem?.mpr fun b hb => ?_
  have hne : a ≠ b := by omega
  rw [ArrayHeap.setElement, List.getElem?_modify_ne _ _ hne]
  exact List.prefix_iff_getElem?.mp h b hb

theorem Keeps.exchange (h : Keeps h₀ h') (ha : h₀.arrays.length ≤ a) (i j : Nat) :
    Keeps h₀ (h'.exchange a i j) := by
  unfold ArrayHeap.exchange
  split
  · exact (h.setElement ha _ _).setElement ha _ _
  · exact h

end ArrayHeap
