import ExamSystem.Table
import Mathlib.Logic.Relation

/-!
# What is reached, and whose it is

A property of everything that a relation reaches, and lists that have the same
rows of one owner: a lookup that only accepts rows of the owner tells them
apart no more than the rows do. Nothing here is about a particular program.
-/

namespace Tenancy

/-! ## Everything that is reached -/

section
variable {α : Type} {r r' : α → α → Prop} {p p' : α → Prop} {a b : α}

def Throughout (r : α → α → Prop) (p : α → Prop) (a : α) : Prop :=
  ∀ b, Relation.ReflTransGen r a b → p b

theorem throughout_iff : Throughout r p a ↔ p a ∧ ∀ b, r a b → Throughout r p b := by
  constructor
  · intro h
    exact ⟨h a .refl, fun b hab c hbc => h c (.head hab hbc)⟩
  · rintro ⟨ha, h⟩ c hac
    rcases hac.cases_head with rfl | ⟨b, hab, hbc⟩
    · exact ha
    · exact h b hab c hbc

theorem Throughout.step (h : Throughout r p a) (hab : r a b) : Throughout r p b :=
  (throughout_iff.mp h).2 b hab

/-- Two relations that agree where the property holds reach the same, when it holds throughout. -/
theorem Throughout.reaches (h : Throughout r p a) (hr : ∀ a b, p a → r a b → r' a b)
    (hab : Relation.ReflTransGen r a b) :
    Relation.ReflTransGen r' a b := by
  induction hab with
  | refl => exact .refl
  | tail hac hcb ih => exact ih.tail (hr _ _ (h _ hac) hcb)

theorem Throughout.congr (h : Throughout r p a) (hp : ∀ a, p a → p' a)
    (hr : ∀ a b, p a → r' a b → r a b) : Throughout r' p' a := by
  intro b hab
  have hreach : Relation.ReflTransGen r a b := by
    induction hab with
    | refl => exact .refl
    | tail _ hcb ih => exact ih.tail (hr _ _ (h _ ih) hcb)
  exact hp b (h b hreach)

end

/-! ## The rows of one owner -/

section
variable {α : Type} {p : α → Prop} {s t : List α}

def Agree (p : α → Prop) (s t : List α) : Prop := ∀ x, p x → (x ∈ s ↔ x ∈ t)

theorem Agree.symm (h : Agree p s t) : Agree p t s := fun x hx => (h x hx).symm

theorem Agree.any (h : Agree p s t) {q : α → Bool} (hq : ∀ x, q x = true → p x) :
    s.any q = t.any q := by
  apply Bool.eq_iff_iff.mpr
  simp only [List.any_eq_true]
  constructor
  · rintro ⟨x, hx, hqx⟩
    exact ⟨x, (h x (hq x hqx)).mp hx, hqx⟩
  · rintro ⟨x, hx, hqx⟩
    exact ⟨x, (h x (hq x hqx)).mpr hx, hqx⟩

/-- A lookup of a condition that only the owner's rows meet, one row at most. -/
theorem Agree.find (h : Agree p s t) {q : α → Bool} (hq : ∀ x, q x = true → p x)
    (hs : ∀ x ∈ s, ∀ y ∈ s, q x = true → q y = true → x = y) : s.find? q = t.find? q := by
  apply Option.ext
  intro x
  cases hft : t.find? q with
  | none =>
    have hnone : s.find? q = none := by
      rw [List.find?_eq_none] at hft ⊢
      intro y hy hqy
      exact hft y ((h y (hq y hqy)).mp hy) hqy
    rw [hnone]
  | some y =>
    have hqy := List.find?_some hft
    have hy : y ∈ s := (h y (hq y hqy)).mpr (List.mem_of_find?_eq_some hft)
    cases hfs : s.find? q with
    | none => exact absurd hqy (by simpa using List.find?_eq_none.mp hfs y hy)
    | some z =>
      have hqz := List.find?_some hfs
      rw [hs z (List.mem_of_find?_eq_some hfs) y hy hqz hqy]

variable {κ : Type} [DecidableEq κ] {key : α → κ} [DecidablePred p]

/-- A lookup by key that only accepts rows of the owner. -/
theorem Agree.get {u v : Table key} (h : Agree p u.rows v.rows) (k : κ) :
    (u.get k).filter p = (v.get k).filter p := by
  apply Option.ext
  intro x
  simp only [Option.filter_eq_some_iff, Table.get_eq_some, decide_eq_true_eq]
  constructor
  · rintro ⟨⟨hx, hk⟩, hp⟩
    exact ⟨⟨(h x hp).mp hx, hk⟩, hp⟩
  · rintro ⟨⟨hx, hk⟩, hp⟩
    exact ⟨⟨(h x hp).mpr hx, hk⟩, hp⟩

end

end Tenancy
