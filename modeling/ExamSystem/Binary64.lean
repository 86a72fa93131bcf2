import Mathlib.Algebra.BigOperators.Ring.Finset
import Mathlib.Algebra.Order.Field.Power
import Mathlib.Data.Rat.Floor
import Mathlib.Tactic.Linarith
import Mathlib.Tactic.Ring
import Mathlib.Tactic.Positivity

/-!
# Sums of binary64 numbers

A number is a rational. Rounding takes a rational to the nearest number that
binary64 has, and to the even significand from halfway; past the largest finite
number it gives `infinity`, which is above them all.
-/

namespace Binary64

def roundEven (x : ℚ) : ℤ :=
  if x - ⌊x⌋ < 1 / 2 then ⌊x⌋
  else if 1 / 2 < x - ⌊x⌋ then ⌊x⌋ + 1
  else if ⌊x⌋ % 2 = 0 then ⌊x⌋ else ⌊x⌋ + 1

/-- The largest `e` with `2 ^ e ≤ |x|`, of an `x` that is not zero. -/
def exponent (x : ℚ) : ℤ :=
  let e : ℤ := (x.num.natAbs.log2 : ℤ) - x.den.log2
  if (2 : ℚ) ^ e ≤ |x| then e else e - 1

def unit (x : ℚ) : ℚ := 2 ^ max (exponent x - 52) (-1074)

def infinity : ℚ := 2 ^ (1024 : ℤ)

def round (x : ℚ) : ℚ := max (-infinity) (min infinity (roundEven (x / unit x) * unit x))

def add (x y : ℚ) : ℚ := round (x + y)

/-! ## Exact sums -/

@[simp] theorem roundEven_intCast (n : ℤ) : roundEven n = n := by
  simp [roundEven]

theorem exponent_spec {x : ℚ} (hx : x ≠ 0) :
    (2 : ℚ) ^ exponent x ≤ |x| ∧ |x| < 2 ^ (exponent x + 1) := by
  have hnum : x.num.natAbs ≠ 0 := by simpa using hx
  have hden : (0 : ℚ) < x.den := by exact_mod_cast x.den_pos
  have habs : |x| = x.num.natAbs / x.den := by
    conv_lhs => rw [← Rat.num_div_den x]
    rw [abs_div, abs_of_pos hden, Nat.cast_natAbs, Int.cast_abs]
  have hlow : (2 : ℚ) ^ (x.num.natAbs.log2 : ℤ) ≤ x.num.natAbs := by
    exact_mod_cast Nat.log2_self_le hnum
  have hhigh : (x.num.natAbs : ℚ) < 2 ^ ((x.num.natAbs.log2 : ℤ) + 1) := by
    exact_mod_cast Nat.lt_log2_self
  have hlow' : (2 : ℚ) ^ (x.den.log2 : ℤ) ≤ x.den := by
    exact_mod_cast Nat.log2_self_le x.den_ne_zero
  have hhigh' : (x.den : ℚ) < 2 ^ ((x.den.log2 : ℤ) + 1) := by
    exact_mod_cast Nat.lt_log2_self
  unfold exponent
  dsimp only
  split_ifs with h
  · refine ⟨h, ?_⟩
    rw [habs, div_lt_iff₀ hden]
    calc (x.num.natAbs : ℚ) < 2 ^ ((x.num.natAbs.log2 : ℤ) + 1) := hhigh
      _ = 2 ^ ((x.num.natAbs.log2 : ℤ) - x.den.log2 + 1) * 2 ^ (x.den.log2 : ℤ) := by
        rw [← zpow_add₀ two_ne_zero]
        congr 1
        ring
      _ ≤ 2 ^ ((x.num.natAbs.log2 : ℤ) - x.den.log2 + 1) * x.den := by gcongr
  · refine ⟨?_, ?_⟩
    · rw [habs, le_div_iff₀ hden]
      calc (2 : ℚ) ^ ((x.num.natAbs.log2 : ℤ) - x.den.log2 - 1) * x.den
          ≤ 2 ^ ((x.num.natAbs.log2 : ℤ) - x.den.log2 - 1) * 2 ^ ((x.den.log2 : ℤ) + 1) := by gcongr
        _ = 2 ^ (x.num.natAbs.log2 : ℤ) := by
          rw [← zpow_add₀ two_ne_zero]
          congr 1
          ring
        _ ≤ x.num.natAbs := hlow
    · rw [sub_add_cancel]
      exact not_le.mp h

/-- Up to `2 ^ 53` units, a whole number of them is a number of binary64. -/
theorem round_units {n : ℕ} (hn : n ≤ 2 ^ 53) {k : ℤ} (hlow : -1074 ≤ k) (hhigh : k ≤ 970) :
    round (n * 2 ^ k) = n * 2 ^ k := by
  obtain ⟨m, hm⟩ : ∃ m : ℤ, (n * 2 ^ k : ℚ) = m * unit (n * 2 ^ k) := by
    rcases Nat.eq_zero_or_pos n with rfl | hpos
    · exact ⟨0, by simp⟩
    have hx : (n * 2 ^ k : ℚ) ≠ 0 := by positivity
    obtain ⟨he, -⟩ := exponent_spec hx
    rw [abs_of_nonneg (by positivity)] at he
    have hbound : (n * 2 ^ k : ℚ) ≤ 2 ^ (53 + k) := by
      rw [zpow_add₀ two_ne_zero]
      have hcast : (n : ℚ) ≤ 2 ^ (53 : ℤ) := by exact_mod_cast hn
      gcongr
    have hle : exponent (n * 2 ^ k) ≤ 53 + k :=
      (zpow_le_zpow_iff_right₀ one_lt_two).mp (he.trans hbound)
    rcases hle.lt_or_eq with hlt | heq
    · -- the unit divides the given one
      refine ⟨n * 2 ^ (k - max (exponent (n * 2 ^ k) - 52) (-1074)).toNat, ?_⟩
      have hk : 0 ≤ k - max (exponent (n * 2 ^ k) - 52) (-1074) := by omega
      push_cast
      rw [unit, mul_assoc, ← zpow_natCast (2 : ℚ), Int.toNat_of_nonneg hk, ← zpow_add₀ two_ne_zero,
        sub_add_cancel]
    · -- the number is the power of two past the last place
      refine ⟨2 ^ 52, ?_⟩
      have hall : (n * 2 ^ k : ℚ) = 2 ^ (53 + k) := hbound.antisymm (heq ▸ he)
      have hmax : max (exponent (n * 2 ^ k : ℚ) - 52) (-1074) = k + 1 := by omega
      rw [unit, hmax, hall, show ((2 ^ 52 : ℤ) : ℚ) = 2 ^ (52 : ℤ) by norm_cast,
        ← zpow_add₀ two_ne_zero]
      congr 1
      ring
  have hunit : unit (n * 2 ^ k) ≠ 0 := by
    unfold unit
    positivity
  have hrounded : (roundEven (n * 2 ^ k / unit (n * 2 ^ k)) * unit (n * 2 ^ k) : ℚ) = n * 2 ^ k := by
    have hdiv : (n * 2 ^ k / unit (n * 2 ^ k) : ℚ) = m := by
      rw [div_eq_iff hunit]
      exact hm
    rw [hdiv, roundEven_intCast]
    exact hm.symm
  have hfinite : (n * 2 ^ k : ℚ) ≤ infinity := by
    have hcast : (n : ℚ) ≤ 2 ^ (53 : ℤ) := by exact_mod_cast hn
    have hproduct : (n * 2 ^ k : ℚ) ≤ 2 ^ (53 : ℤ) * 2 ^ (970 : ℤ) :=
      mul_le_mul hcast (zpow_le_zpow_right₀ one_le_two hhigh) (by positivity) (by positivity)
    have hle : (2 : ℚ) ^ (53 : ℤ) * 2 ^ (970 : ℤ) ≤ 2 ^ (1024 : ℤ) := by
      rw [← zpow_add₀ two_ne_zero]
      exact zpow_le_zpow_right₀ one_le_two (by decide)
    unfold infinity
    exact hproduct.trans hle
  have hpos : (0 : ℚ) ≤ n * 2 ^ k := mul_nonneg n.cast_nonneg (zpow_nonneg zero_le_two k)
  have hinfinity : -infinity ≤ (0 : ℚ) := neg_nonpos.mpr (zpow_nonneg zero_le_two 1024)
  rw [round, hrounded, min_eq_right hfinite, max_eq_right (hinfinity.trans hpos)]

/-- Whole numbers of one unit are added exactly, up to `2 ^ 53` of them. -/
theorem foldl_units {k : ℤ} (hlow : -1074 ≤ k) (hhigh : k ≤ 970) :
    ∀ (ns : List ℕ) (n : ℕ), n + ns.sum ≤ 2 ^ 53 →
    (ns.map fun n : ℕ => (n * 2 ^ k : ℚ)).foldl add (n * 2 ^ k) = ((n + ns.sum : ℕ) : ℚ) * 2 ^ k
  | [], n, _ => by simp
  | m :: ns, n, h => by
    rw [List.sum_cons, ← Nat.add_assoc] at h
    have hadd : add (n * 2 ^ k) (m * 2 ^ k) = ((n + m : ℕ) : ℚ) * 2 ^ k := by
      rw [add, ← add_mul, ← Nat.cast_add]
      exact round_units (by omega) hlow hhigh
    rw [List.map_cons, List.foldl_cons, hadd, foldl_units hlow hhigh ns (n + m) h, List.sum_cons,
      Nat.add_assoc]

/-- Numbers that are whole in one unit have their exact sum, in any order, as
long as it is at most `2 ^ 53` units. -/
theorem foldl_exact {k : ℤ} (hlow : -1074 ≤ k) (hhigh : k ≤ 970) {l : List ℚ}
    (hunits : ∀ x ∈ l, ∃ n : ℕ, x = n * 2 ^ k) (hsum : l.sum ≤ 2 ^ 53 * 2 ^ k) :
    l.foldl add 0 = l.sum := by
  obtain ⟨ns, rfl⟩ : l ∈ Set.range (List.map fun n : ℕ => (n * 2 ^ k : ℚ)) := by
    rw [Set.range_list_map]
    intro x hx
    obtain ⟨n, rfl⟩ := hunits x hx
    exact ⟨n, rfl⟩
  have hexact : (ns.map fun n : ℕ => (n * 2 ^ k : ℚ)).sum = (ns.sum : ℚ) * 2 ^ k := by
    rw [List.sum_map_mul_right, Nat.cast_list_sum]
  rw [hexact, mul_le_mul_iff_left₀ (by positivity)] at hsum
  have hbound : 0 + ns.sum ≤ 2 ^ 53 := by
    rw [Nat.zero_add]
    exact_mod_cast hsum
  have hfold := foldl_units hlow hhigh ns 0 hbound
  rw [Nat.cast_zero, zero_mul, Nat.zero_add] at hfold
  exact hfold.trans hexact.symm

end Binary64
