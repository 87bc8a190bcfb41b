import Mathlib.Data.List.Basic

namespace PickBroker.Framework

variable {α : Type*} {p : α → Bool} {l : List α}

theorem ite_le_countP {x : α} (hx : x ∈ l) : (if p x then 1 else 0) ≤ l.countP p := by
  split
  · exact List.countP_pos_iff.mpr ⟨x, hx, ‹_›⟩
  · exact Nat.zero_le _

/-- Putting `y` in the place of `x` moves the count from the one to the other. -/
theorem countP_set_add {i : ℕ} {x : α} (hi : l[i]? = some x) (y : α) :
    (l.set i y).countP p + (if p x then 1 else 0) = l.countP p + if p y then 1 else 0 := by
  obtain ⟨hlt, hget⟩ := List.getElem?_eq_some_iff.mp hi
  have hle : (if p x then 1 else 0) ≤ l.countP p := ite_le_countP (List.mem_of_getElem? hi)
  rw [List.countP_set hlt, hget]
  omega

/-- A map that does not tell `y` from `x` does not notice the change. -/
theorem map_set_eq {β : Type*} {f : α → β} {i : ℕ} {x y : α} (hi : l[i]? = some x)
    (h : f y = f x) : (l.set i y).map f = l.map f := by
  obtain ⟨hlt, hget⟩ := List.getElem?_eq_some_iff.mp hi
  have hself := List.set_getElem_self (show i < (l.map f).length by simpa using hlt)
  rwa [List.getElem_map, hget, ← h, ← List.map_set] at hself

theorem mem_set_self {i : ℕ} {x : α} (hi : l[i]? = some x) (y : α) : y ∈ l.set i y := by
  obtain ⟨hlt, -⟩ := List.getElem?_eq_some_iff.mp hi
  exact List.mem_iff_getElem.mpr ⟨i, by simpa using hlt, by simp⟩

/-- What is not the element at the place stays. -/
theorem eq_or_mem_set {i : ℕ} {x z : α} (hi : l[i]? = some x) (hz : z ∈ l) (y : α) :
    z = x ∨ z ∈ l.set i y := by
  obtain ⟨j, hj, rfl⟩ := List.mem_iff_getElem.mp hz
  by_cases hij : i = j
  · left
    subst hij
    exact Option.some.inj ((List.getElem?_eq_getElem hj).symm.trans hi)
  · exact Or.inr (List.mem_iff_getElem.mpr ⟨j, by simpa using hj, by simp [hij]⟩)

end PickBroker.Framework
