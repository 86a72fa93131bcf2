import Mathlib.Data.List.Forall2
import ExamSystem.Transactions

/-!
# Two runs of a computation

When two computations throw the same errors and return related results, rule by
rule. Nothing here is about a particular program.
-/

namespace TwoRuns

open Tx

variable {ε α β γ δ : Type} {R : α → β → Prop} {S : γ → δ → Prop}

/-- Both throw the same error, or both return, and what they return is related. -/
inductive Agree (R : α → β → Prop) : Except ε α → Except ε β → Prop
  | ok {a : α} {b : β} (h : R a b) : Agree R (.ok a) (.ok b)
  | error (e : ε) : Agree R (.error e) (.error e)

namespace Agree

theorem pure {a : α} {b : β} (h : R a b) : Agree (ε := ε) R (pure a) (pure b) := .ok h

theorem of_eq {x y : Except ε α} (h : x = y) : Agree Eq x y := by
  subst h
  cases x with
  | ok a => exact .ok rfl
  | error e => exact .error e

theorem eq {x y : Except ε α} (h : Agree Eq x y) : x = y := by
  cases h with
  | ok h => rw [h]
  | error e => rfl

theorem mono {Q : α → β → Prop} {x : Except ε α} {y : Except ε β} (h : Agree R x y)
    (hRQ : ∀ a b, R a b → Q a b) :
    Agree Q x y := by
  cases h with
  | ok h => exact .ok (hRQ _ _ h)
  | error e => exact .error e

theorem map_eq {x : Except ε α} {y : Except ε β} {f : α → γ} {g : β → γ} (h : Agree R x y)
    (hfg : ∀ a b, R a b → f a = g b) :
    x.map f = y.map g := by
  cases h with
  | ok h => exact congrArg Except.ok (hfg _ _ h)
  | error e => rfl

/-- What the two runs have returned is known in what follows. -/
theorem bind_ok {x : Except ε α} {y : Except ε β} {f : α → Except ε γ} {g : β → Except ε δ}
    (h : Agree R x y) (hf : ∀ a b, x = .ok a → y = .ok b → R a b → Agree S (f a) (g b)) :
    Agree S (x >>= f) (y >>= g) := by
  cases h with
  | ok h => exact hf _ _ rfl rfl h
  | error e => exact .error e

theorem bind {x : Except ε α} {y : Except ε β} {f : α → Except ε γ} {g : β → Except ε δ}
    (h : Agree R x y) (hf : ∀ a b, R a b → Agree S (f a) (g b)) : Agree S (x >>= f) (y >>= g) :=
  h.bind_ok fun a b _ _ => hf a b

/-- A first step that is the same in both runs. -/
theorem same {x y : Except ε α} {f : α → Except ε γ} {g : α → Except ε δ} (h : x = y)
    (hf : ∀ a, x = .ok a → Agree S (f a) (g a)) : Agree S (x >>= f) (y >>= g) := by
  subst h
  cases x with
  | ok a => exact hf a rfl
  | error e => exact .error e

theorem orThrow {o : Option α} {p : Option β} (h : Option.Rel R o p) (e : ε) :
    Agree R (orThrow o e) (orThrow p e) := by
  cases h with
  | some h => exact .ok h
  | none => exact .error e

end Agree

/-- The same guard on two sides of an equivalence. -/
theorem require_congr {c d : Prop} [Decidable c] [Decidable d] (h : c ↔ d) (e : ε) :
    require c e = require d e := by
  by_cases hc : c
  · rw [require_true hc, require_true (h.mp hc)]
  · rw [require_false hc, require_false fun hd => hc (h.mpr hd)]

theorem rel_isSome {o : Option α} {p : Option β} (h : Option.Rel R o p) : o.isSome = p.isSome := by
  cases h with
  | some _ => rfl
  | none => rfl

theorem rel_eq_none {o : Option α} {p : Option β} (h : Option.Rel R o p) : o = none ↔ p = none := by
  cases h with
  | some _ => simp
  | none => simp

theorem rel_map {f : α → γ} {g : β → γ} {o : Option α} {p : Option β} (h : Option.Rel R o p)
    (hfg : ∀ a b, R a b → f a = g b) : o.map f = p.map g := by
  cases h with
  | some h => exact congrArg some (hfg _ _ h)
  | none => rfl

/-- A condition on all elements, carried over by the relation. -/
theorem forall_mem_rel {P : α → Prop} {Q : β → Prop} {l : List α} {m : List β} (h : List.Forall₂ R l m)
    (hPQ : ∀ a b, R a b → (P a ↔ Q b)) : (∀ a ∈ l, P a) ↔ ∀ b ∈ m, Q b := by
  induction h with
  | nil => simp
  | cons hab _ ih => rw [List.forall_mem_cons, List.forall_mem_cons, hPQ _ _ hab, ih]

/-- The first related pair that two searches find. -/
theorem find?_rel {p : α → Bool} {q : β → Bool} {l : List α} {m : List β} (h : List.Forall₂ R l m)
    (hp : ∀ a b, R a b → p a = q b) : Option.Rel R (l.find? p) (m.find? q) := by
  induction h with
  | nil => exact .none
  | @cons a b l m hab hl ih =>
    rw [List.find?_cons, List.find?_cons, hp a b hab]
    cases q b with
    | true => exact .some hab
    | false => exact ih

end TwoRuns
