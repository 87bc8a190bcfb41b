import Mathlib.Data.Nat.Notation
import Mathlib.Order.Defs.LinearOrder
import Mathlib.Algebra.Group.Nat.Defs

namespace PickBroker.Framework

/-- The order of 64-bit signed integers, over the comparisons they already have. -/
instance instLinearOrderInt64 : LinearOrder Int64 where
  le_refl a := Int64.le_refl a
  le_trans _ _ _ := Int64.le_trans
  le_antisymm _ _ := Int64.le_antisymm
  lt_iff_le_not_ge a b := by
    simp only [Int64.le_iff_toInt_le, Int64.lt_iff_toInt_lt]
    omega
  le_total := Int64.le_total
  toDecidableLE := inferInstance
  toDecidableEq := inferInstance
  toDecidableLT := inferInstance
  min_def _ _ := rfl
  max_def _ _ := rfl
  compare_eq_compareOfLessAndEq _ _ := rfl

/-- Below the greatest value the successor does not wrap around. -/
theorem toInt_add_one {a : Int64} (h : a ≠ Int64.maxValue) : (a + 1).toInt = a.toInt + 1 := by
  have hne : a.toInt ≠ 2 ^ 63 - 1 := by
    rw [← Int64.toInt_maxValue]
    exact fun he => h (Int64.toInt_inj.mp he)
  have hlt := a.toInt_lt
  have hle := a.le_toInt
  rw [Int64.toInt_add, show (1 : Int64).toInt = 1 from rfl]
  exact Int.bmod_eq_of_le (by omega) (by omega)

theorem add_one_le_iff {a b : Int64} (h : a ≠ Int64.maxValue) : a + 1 ≤ b ↔ a < b := by
  rw [Int64.le_iff_toInt_le, Int64.lt_iff_toInt_lt, toInt_add_one h]
  omega

theorem lt_maxValue_iff {a : Int64} : a < Int64.maxValue ↔ a ≠ Int64.maxValue := by
  have h := Int64.le_maxValue a
  exact ⟨fun hl he => absurd hl (by simp [he]), fun hn => lt_of_le_of_ne h hn⟩

theorem ne_maxValue_of_lt {a b : Int64} (h : a < b) : a ≠ Int64.maxValue :=
  lt_maxValue_iff.mp (lt_of_lt_of_le h (Int64.le_maxValue b))

/-- A counter that begins at `n` and moves on by `k` reads `k` when it begins at zero and does not
get round. -/
theorem toInt_ofNat_add_iff (n k : ℕ) :
    (Int64.ofNat (n + k)).toInt = k ↔ Int64.ofNat n = 0 ∧ k < 2 ^ 63 := by
  rw [← Int64.toInt_inj, Int64.toInt_ofNat', Int64.toInt_ofNat',
    show (0 : Int64).toInt = 0 from rfl]
  simp only [Int.bmod_def, Int64.size]
  omega

end PickBroker.Framework
