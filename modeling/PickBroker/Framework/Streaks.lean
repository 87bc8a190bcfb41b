import Mathlib.Data.List.Basic
import Mathlib.Data.Nat.Find

namespace PickBroker.Framework

section Streaks

variable {α : Type*} (p q : α → Bool)

/-- The unbroken row of `p` at the end. -/
def row (l : List α) : ℕ := (l.reverse.takeWhile p).length

/-- How often `p` comes after the last `q`. -/
def countSince (l : List α) : ℕ := (l.reverse.takeWhile fun x => !q x).countP p

@[simp] theorem countSince_nil : countSince p q [] = 0 := rfl

theorem countSince_concat (l : List α) (x : α) :
    countSince p q (l ++ [x]) = if q x then 0 else countSince p q l + if p x then 1 else 0 := by
  rw [countSince, List.reverse_concat, List.takeWhile_cons]
  cases q x with
  | true => rfl
  | false => exact List.countP_cons

theorem countSince_concat_le (l : List α) (x : α) :
    countSince p q (l ++ [x]) ≤ countSince p q l + 1 := by
  rw [countSince_concat]
  cases q x <;> cases p x <;> simp

end Streaks

section First

variable {P Q : ℕ → Prop}

/-- `P` is at `k` and nowhere before. -/
def FirstAt (P : ℕ → Prop) (k : ℕ) : Prop := P k ∧ ∀ j < k, ¬ P j

theorem exists_firstAt {k : ℕ} (h : P k) : ∃ j, j ≤ k ∧ FirstAt P j := by
  classical
  exact ⟨Nat.find ⟨k, h⟩, Nat.find_min' _ h, Nat.find_spec _, fun _ hj => Nat.find_min _ hj⟩

theorem FirstAt.unique {j k : ℕ} (hj : FirstAt P j) (hk : FirstAt P k) : j = k := by
  rcases Nat.lt_trichotomy j k with hlt | heq | hlt
  · exact absurd hj.1 (hk.2 j hlt)
  · exact heq
  · exact absurd hk.1 (hj.2 k hlt)

/-- To have the same first place, two properties have to agree up to it. -/
theorem firstAt_congr (h : ∀ k, (∀ j < k, ¬ Q j) → (P k ↔ Q k)) (k : ℕ) :
    FirstAt P k ↔ FirstAt Q k := by
  constructor
  · intro hk
    have hbefore : ∀ j < k, ¬ Q j := by
      intro j hj hQ
      obtain ⟨i, hi, hfirst⟩ := exists_firstAt hQ
      exact hk.2 i (Nat.lt_of_le_of_lt hi hj) ((h i hfirst.2).mpr hfirst.1)
    exact ⟨(h k hbefore).mp hk.1, hbefore⟩
  · intro hk
    refine ⟨(h k hk.2).mpr hk.1, ?_⟩
    intro j hj hP
    exact hk.2 j hj ((h j fun i hi => hk.2 i (Nat.lt_trans hi hj)).mp hP)

/-- Two properties are first at the same place exactly when neither ever is, or both are first at
one place. -/
theorem firstAt_agree_iff : (∀ k, FirstAt P k ↔ FirstAt Q k) ↔
    (∀ k, ¬ P k ∧ ¬ Q k) ∨ ∃ k, FirstAt P k ∧ FirstAt Q k := by
  constructor
  · intro h
    by_cases hP : ∃ k, P k
    · obtain ⟨k, hk⟩ := hP
      obtain ⟨j, -, hj⟩ := exists_firstAt hk
      exact Or.inr ⟨j, hj, (h j).mp hj⟩
    · left
      intro k
      refine ⟨fun hk => hP ⟨k, hk⟩, fun hk => ?_⟩
      obtain ⟨j, -, hj⟩ := exists_firstAt hk
      exact hP ⟨j, ((h j).mpr hj).1⟩
  · intro h k
    rcases h with hnone | ⟨j, hP, hQ⟩
    · exact ⟨fun hk => absurd hk.1 (hnone k).1, fun hk => absurd hk.1 (hnone k).2⟩
    · constructor
      · intro hk
        exact hk.unique hP ▸ hQ
      · intro hk
        exact hk.unique hQ ▸ hP

end First

end PickBroker.Framework
