import Mathlib.Data.List.Infix

/-!
# Sequences of single and paired units

Some units open a pair and some close one. A sequence is paired when it reads,
from left to right, as single units and pairs; that is a condition on the
neighbours of each unit. Nothing here is about a particular program.
-/

namespace Pairs

variable {α : Type} {opens closes : α → Bool}

inductive Paired (opens closes : α → Bool) : List α → Prop
  | nil : Paired opens closes []
  | single {a : α} {rest : List α} (ho : opens a = false) (hc : closes a = false)
      (h : Paired opens closes rest) :
    Paired opens closes (a :: rest)
  | pair {a b : α} {rest : List α} (ho : opens a = true) (hc : closes b = true)
      (h : Paired opens closes rest) :
    Paired opens closes (a :: b :: rest)

theorem Paired.append {l m : List α} (hl : Paired opens closes l) (hm : Paired opens closes m) :
    Paired opens closes (l ++ m) := by
  induction hl with
  | nil => exact hm
  | single ho hc _ ih => exact .single ho hc ih
  | pair ho hc _ ih => exact .pair ho hc ih

/-- Units that neither open nor close are paired. -/
theorem paired_of_forall {l : List α} (h : ∀ a ∈ l, opens a = false ∧ closes a = false) :
    Paired opens closes l := by
  induction l with
  | nil => exact .nil
  | cons a l ih =>
    rw [List.forall_mem_cons] at h
    exact .single h.1.1 h.1.2 (ih h.2)

/-- A unit that neither opens nor closes is in no pair. -/
theorem Paired.split {l m : List α} {a : α} (ho : opens a = false) (hc : closes a = false)
    (h : Paired opens closes (l ++ a :: m)) :
    Paired opens closes l ∧ Paired opens closes m := by
  generalize hs : l ++ a :: m = s at h
  induction h generalizing l with
  | nil => exact absurd hs (by simp)
  | single hx hx' h ih =>
    cases l with
    | nil =>
      obtain ⟨rfl, rfl⟩ := List.cons.inj hs
      exact ⟨.nil, h⟩
    | cons x l =>
      obtain ⟨rfl, hrest⟩ := List.cons.inj hs
      exact ⟨.single hx hx' (ih hrest).1, (ih hrest).2⟩
  | pair hx hy h ih =>
    match l with
    | [] =>
      obtain ⟨rfl, -⟩ := List.cons.inj hs
      exact absurd hx (by simp [ho])
    | [x] =>
      obtain ⟨rfl, -⟩ := List.cons.inj (List.cons.inj hs).2
      exact absurd hy (by simp [hc])
    | x :: y :: l =>
      obtain ⟨rfl, htail⟩ := List.cons.inj hs
      obtain ⟨rfl, hrest⟩ := List.cons.inj htail
      exact ⟨.pair hx hy (ih hrest).1, (ih hrest).2⟩

inductive Local (opens closes : α → Bool) : Bool → List α → Prop
  | nil {before : Bool} : Local opens closes before []
  | cons {before : Bool} {a : α} {rest : List α} (ahead : opens a = true → rest.head?.any closes = true)
    (behind : closes a = true → before = true) (h : Local opens closes (opens a) rest) : Local opens
      closes before (a :: rest)

/-- After an opening unit, the condition speaks of what follows the pair. -/
theorem Local.after {b : α} {rest : List α} {before : Bool}
    (hdisjoint : ∀ a, opens a = true → closes a = false) (hb : closes b = true)
    (h : Local opens closes before (b :: rest)) : Local opens closes false rest := by
  cases h with
  | cons _ _ h =>
    have hopens : opens b = false := by
      cases ho : opens b with
      | false => rfl
      | true => exact absurd (hdisjoint b ho) (by simp [hb])
    exact hopens ▸ h

theorem Local.paired (hdisjoint : ∀ a, opens a = true → closes a = false) :
    ∀ {l : List α}, Local opens closes false l → Paired opens closes l
  | [], _ => .nil
  | a :: rest, .cons ahead behind h => by
    have hcloses : closes a = false := by
      cases hc : closes a with
      | false => rfl
      | true => exact (behind hc).symm
    cases ho : opens a with
    | false => exact .single ho hcloses (paired hdisjoint (ho ▸ h))
    | true =>
      match rest, ahead ho, h with
      | b :: rest, hb, h =>
        have hb : closes b = true := hb
        exact .pair ho hb (paired hdisjoint (h.after hdisjoint hb))

theorem Paired.isLocal (hdisjoint : ∀ a, opens a = true → closes a = false) {l : List α}
    (h : Paired opens closes l) :
    Local opens closes false l := by
  induction h with
  | nil => exact .nil
  | single ho hc _ ih =>
    exact .cons (fun h => by rw [ho] at h; cases h) (fun h => by rw [hc] at h; cases h) (ho.symm ▸ ih)
  | @pair a b rest ho hc _ ih =>
    have hb : opens b = false := by
      cases h : opens b with
      | false => rfl
      | true => exact absurd (hdisjoint b h) (by simp [hc])
    refine .cons (fun _ => hc) (fun h => ?_) (.cons (fun h => ?_) (fun _ => ho) (hb.symm ▸ ih))
    · rw [hdisjoint a ho] at h
      cases h
    · rw [hb] at h
      cases h

/-- A sequence is paired exactly when the neighbours of its units are right. -/
theorem paired_iff_local (hdisjoint : ∀ a, opens a = true → closes a = false) {l : List α} :
    Paired opens closes l ↔ Local opens closes false l :=
  ⟨Paired.isLocal hdisjoint, Local.paired hdisjoint⟩

end Pairs
