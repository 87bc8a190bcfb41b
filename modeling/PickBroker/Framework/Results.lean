import Mathlib.Init

namespace PickBroker.Framework

universe u

variable {ε : Type*} {α β : Type u} {x : Except ε α} {f : α → Except ε β}

/-- A computation that goes well goes well step by step. -/
theorem bind_eq_ok_iff {b : β} : x >>= f = .ok b ↔ ∃ a, x = .ok a ∧ f a = .ok b := by
  cases x <;> simp [bind, Except.bind]

/-- A computation that throws throws in its first step or behind it. -/
theorem bind_eq_error_iff {e : ε} :
    x >>= f = .error e ↔ x = .error e ∨ ∃ a, x = .ok a ∧ f a = .error e := by
  cases x <;> simp [bind, Except.bind]

theorem map_eq_ok_iff {g : α → β} {b : β} : x.map g = .ok b ↔ ∃ a, x = .ok a ∧ g a = b := by
  cases x <;> simp [Except.map]

/-- What passes a check is what comes behind it. -/
theorem passes_check {p : Prop} [Decidable p] {e : ε} {g : ¬ p → α} {a : α}
    (h : (if hp : p then .error e else .ok (g hp) : Except ε α) = .ok a) : ∃ hp, a = g hp := by
  split at h
  · cases h
  · exact ⟨_, (Except.ok.inj h).symm⟩

/-- The computation does not throw. -/
def Accepts (x : Except ε α) : Prop := ∃ a, x = .ok a

@[simp] theorem accepts_ok (a : α) : Accepts (.ok a : Except ε α) := ⟨a, rfl⟩

@[simp] theorem not_accepts_error (e : ε) : ¬ Accepts (.error e : Except ε α) := by
  intro h
  obtain ⟨a, ha⟩ := h
  cases ha

@[simp] theorem accepts_map (g : α → β) : Accepts (x.map g) ↔ Accepts x := by
  cases x <;> simp [Except.map]

theorem accepts_check {p : Prop} [Decidable p] {e : ε} {g : ¬ p → α} :
    Accepts (if hp : p then .error e else .ok (g hp) : Except ε α) ↔ ¬ p := by
  split <;> simp_all

theorem accepts_bind : Accepts (x >>= f) ↔ ∃ a, x = .ok a ∧ Accepts (f a) := by
  cases x <;> simp [bind, Except.bind]

/-- What follows asks for the same, whatever comes out of the first part. -/
theorem accepts_bind_of {p : Prop} (h : ∀ a, x = .ok a → (Accepts (f a) ↔ p)) :
    Accepts (x >>= f) ↔ Accepts x ∧ p := by
  rw [accepts_bind]
  constructor
  · intro hbind
    obtain ⟨a, hx, hf⟩ := hbind
    exact ⟨⟨a, hx⟩, (h a hx).mp hf⟩
  · intro hboth
    obtain ⟨⟨a, hx⟩, hp⟩ := hboth
    exact ⟨a, hx, (h a hx).mpr hp⟩

end PickBroker.Framework
