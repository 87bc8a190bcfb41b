import PickBroker.Framework.Int64Order
import Mathlib.Data.Int.Notation
import Mathlib.Tactic.Linarith

namespace PickBroker.Framework

/-- What a 64-bit signed integer can hold. -/
def Representable (z : ℤ) : Prop := -2 ^ 63 ≤ z ∧ z < 2 ^ 63

instance (z : ℤ) : Decidable (Representable z) :=
  inferInstanceAs (Decidable (-2 ^ 63 ≤ z ∧ z < 2 ^ 63))

theorem representable_toInt (a : Int64) : Representable a.toInt := ⟨a.le_toInt, a.toInt_lt⟩

theorem bmod_eq_self_iff {z : ℤ} : z.bmod (2 ^ 64) = z ↔ Representable z := by
  simp only [Representable, Int.bmod_def]
  omega

theorem toInt_add_iff (a b : Int64) :
    (a + b).toInt = a.toInt + b.toInt ↔ Representable (a.toInt + b.toInt) := by
  rw [Int64.toInt_add, bmod_eq_self_iff]

theorem toInt_sub_iff (a b : Int64) :
    (a - b).toInt = a.toInt - b.toInt ↔ Representable (a.toInt - b.toInt) := by
  rw [Int64.toInt_sub, bmod_eq_self_iff]

theorem toInt_mul_iff (a b : Int64) :
    (a * b).toInt = a.toInt * b.toInt ↔ Representable (a.toInt * b.toInt) := by
  rw [Int64.toInt_mul, bmod_eq_self_iff]

/-- Whatever wraps on the way, the difference is the one of the residues. -/
theorem toInt_sub_mul (a b c : Int64) :
    (a - b * c).toInt = (a.toInt - b.toInt * c.toInt).bmod (2 ^ 64) := by
  rw [Int64.toInt_sub, Int64.toInt_mul, Int.sub_bmod_bmod]

/-- A 32-bit number of this many small units is within 64 bits. -/
theorem toInt_toInt64_mul (n : Int32) (unit : Int64) (hpos : 0 ≤ unit.toInt)
    (hunit : unit.toInt ≤ 2 ^ 31) : (n.toInt64 * unit).toInt = n.toInt * unit.toInt := by
  have hlower := n.le_toInt
  have hupper := n.toInt_lt
  rw [← Int32.toInt_toInt64, toInt_mul_iff, Int32.toInt_toInt64]
  constructor <;> nlinarith

/-- Read without its sign, a 32-bit number is itself when it is not negative. -/
theorem toNat_toUInt32_iff (n : Int32) : ((n.toUInt32.toNat : ℕ) : ℤ) = n.toInt ↔ 0 ≤ n := by
  have hbits : n.toInt = n.toBitVec.toInt := rfl
  have hnat : n.toUInt32.toNat = n.toBitVec.toNat := rfl
  have hzero : (0 : Int32).toInt = 0 := rfl
  have hcases := BitVec.toInt_eq_toNat_cond n.toBitVec
  have hlt := n.toBitVec.isLt
  rw [Int32.le_iff_toInt_le, hzero, hnat, hbits, hcases]
  split <;> omega

/-- A clamped result: the value where it can be held, else nothing above it. -/
def ClampedTo (a : Int64) (z : ℤ) : Prop := a.toInt = z ∨ ¬ Representable z ∧ a.toInt ≤ z

/-- Below the range there is nothing to clamp to. -/
theorem ClampedTo.toInt_eq {a : Int64} {z : ℤ} (h : ClampedTo a z) (hz : z < 2 ^ 63) :
    a.toInt = z := by
  rcases h with heq | ⟨hrange, hle⟩
  · exact heq
  · have hlower := a.le_toInt
    exact absurd ⟨by omega, hz⟩ hrange

/-- A difference that was computed without a check is clamped only where it needs no clamp. -/
theorem sub_mul_clamped_iff (a b c : Int64) (h : 0 ≤ b.toInt * c.toInt) :
    ClampedTo (a - b * c) (a.toInt - b.toInt * c.toInt) ↔
      b.toInt * c.toInt ≤ a.toInt + 2 ^ 63 := by
  have hupper := a.toInt_lt
  have hlower := (a - b * c).le_toInt
  constructor
  · intro hclamped
    rcases hclamped with heq | ⟨-, hle⟩ <;> omega
  · intro hle
    left
    rw [toInt_sub_mul, bmod_eq_self_iff]
    exact ⟨by omega, by omega⟩

end PickBroker.Framework
