import Mathlib.Data.List.Basic

namespace PickBroker.Framework

universe u

/-- A program over a state. It may throw, and it has no outcome when it breaks the rules of what it
calls, or does not end. -/
def Program (σ ε : Type*) (α : Type u) := σ → Option (Except ε α × σ)

namespace Program

variable {σ ε : Type*} {α β : Type u}

instance : Monad (Program σ ε) where
  pure a s := some (.ok a, s)
  bind p f s :=
    match p s with
    | none => none
    | some (.error e, s) => some (.error e, s)
    | some (.ok a, s) => f a s

def throws (e : ε) : Program σ ε α := fun s => some (.error e, s)

/-- The program has broken a rule. -/
def undefined : Program σ ε α := fun _ => none

@[simp] theorem pure_apply (a : α) (s : σ) :
    (pure a : Program σ ε α) s = some (.ok a, s) := rfl

@[simp] theorem throws_apply (e : ε) (s : σ) :
    (throws e : Program σ ε α) s = some (.error e, s) := rfl

/-- A program goes on with what its first part returns. -/
theorem bind_ok {p : Program σ ε α} {s s' : σ} {a : α} (h : p s = some (.ok a, s'))
    (f : α → Program σ ε β) : (p >>= f) s = f a s' := by
  show (match p s with
    | none => none
    | some (.error e, s) => some (.error e, s)
    | some (.ok a, s) => f a s) = f a s'
  rw [h]

/-- A program ends with what its first part throws. -/
theorem bind_error {p : Program σ ε α} {s s' : σ} {e : ε} (h : p s = some (.error e, s'))
    (f : α → Program σ ε β) : (p >>= f) s = some (.error e, s') := by
  show (match p s with
    | none => none
    | some (.error e, s) => some (.error e, s)
    | some (.ok a, s) => f a s) = some (.error e, s')
  rw [h]

end Program

/-- The objects that have been handed out by number. A released one is `none`. -/
structure Handles (α : Type*) where
  entries : List (Option α) := []

namespace Handles

variable {α : Type*} (H : Handles α)

/-- The number of the next object. -/
def fresh : ℕ := H.entries.length

def acquire (a : α) : Handles α := ⟨H.entries ++ [some a]⟩

def get? (i : ℕ) : Option α := H.entries[i]?.join

def put (i : ℕ) (a : α) : Handles α := ⟨H.entries.set i (some a)⟩

def release (i : ℕ) : Handles α := ⟨H.entries.set i none⟩

/-- Whatever has been handed out is released. -/
def Settled : Prop := ∀ entry ∈ H.entries, entry = none

@[simp] theorem get?_acquire (a : α) : (H.acquire a).get? H.fresh = some a := by
  simp [get?, acquire, fresh]

@[simp] theorem put_acquire (a b : α) : (H.acquire a).put H.fresh b = H.acquire b := by
  simp [put, acquire, fresh]

@[simp] theorem get?_release_acquire (a : α) :
    ((H.acquire a).release H.fresh).get? H.fresh = none := by
  simp [get?, release, acquire, fresh]

theorem Settled.release_acquire {H : Handles α} (h : H.Settled) (a : α) :
    ((H.acquire a).release H.fresh).Settled := by
  intro entry hentry
  simp only [release, acquire, fresh, List.set_append_right _ _ (Nat.le_refl _), Nat.sub_self,
    List.set_cons_zero, List.mem_append, List.mem_singleton] at hentry
  cases hentry with
  | inl hold => exact h entry hold
  | inr hnew => exact hnew

theorem settled_empty : ({} : Handles α).Settled := by
  intro entry hentry
  cases hentry

end Handles

end PickBroker.Framework
