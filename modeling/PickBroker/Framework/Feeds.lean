import PickBroker.Framework.Queues

namespace PickBroker.Framework

/-- One reader of a log with its history: its subscription, all it is owed since it subscribed, and
all it has been handed. -/
structure Feed (τ π : Type*) where
  sub : Subscription τ π
  owed : List (τ × π)
  handed : List (τ × π) := []

namespace Feed

variable {τ π : Type*}

/-- The history of a new subscription: what waits for it is what it is owed. -/
def opened (sub : Subscription τ π) : Feed τ π := { sub := sub, owed := sub.pending }

def publish [LE τ] [DecidableLE τ] (F : Feed τ π) (e : τ × π) : Feed τ π :=
  if Entitled F.sub.start e.1 then
    { F with sub := { F.sub with pending := F.sub.pending ++ [e] }, owed := F.owed ++ [e] }
  else F

def evict (F : Feed τ π) (gone : τ × π → Bool) : Feed τ π :=
  { F with sub := { F.sub with pending := F.sub.pending.filter fun e => !gone e } }

def fetch (F : Feed τ π) (n : ℕ) : Feed τ π :=
  { F with
    sub := { F.sub with pending := F.sub.pending.drop n }
    handed := F.handed ++ F.sub.pending.take n }

/-- Nothing is handed out twice, out of order or without being owed, and what is neither handed out
nor waiting is lost. -/
structure Kept (F : Feed τ π) (lost : τ × π → Prop) : Prop where
  inOrder : (F.handed ++ F.sub.pending).Sublist F.owed
  complete : ∀ e ∈ F.owed, e ∈ F.handed ++ F.sub.pending ∨ lost e

section Frames

variable (F : Feed τ π)

@[simp] theorem evict_owed (gone : τ × π → Bool) : (F.evict gone).owed = F.owed := rfl

@[simp] theorem evict_handed (gone : τ × π → Bool) : (F.evict gone).handed = F.handed := rfl

@[simp] theorem evict_start (gone : τ × π → Bool) :
    (F.evict gone).sub.start = F.sub.start := rfl

@[simp] theorem fetch_owed (n : ℕ) : (F.fetch n).owed = F.owed := rfl

@[simp] theorem fetch_start (n : ℕ) : (F.fetch n).sub.start = F.sub.start := rfl

variable [LE τ] [DecidableLE τ] (e : τ × π)

@[simp] theorem publish_start : (F.publish e).sub.start = F.sub.start := by
  unfold publish
  split <;> rfl

@[simp] theorem publish_handed : (F.publish e).handed = F.handed := by
  unfold publish
  split <;> rfl

theorem publish_owed :
    (F.publish e).owed = F.owed ++ [e].filter fun x => Entitled F.sub.start x.1 := by
  unfold publish
  split <;> simp_all

theorem publish_sub : (F.publish e).sub = { F.sub with
    pending := if Entitled F.sub.start e.1 then F.sub.pending ++ [e] else F.sub.pending } := by
  unfold publish
  split <;> rfl

end Frames

namespace Kept

variable {F : Feed τ π} {lost : τ × π → Prop}

theorem opened (sub : Subscription τ π) (lost : τ × π → Prop) : (Feed.opened sub).Kept lost where
  inOrder := List.Sublist.refl _
  complete _ he := Or.inl he

theorem mono (h : F.Kept lost) {lost' : τ × π → Prop} (hlost : ∀ e, lost e → lost' e) :
    F.Kept lost' where
  inOrder := h.inOrder
  complete e he := (h.complete e he).imp_right (hlost e)

theorem publish [LE τ] [DecidableLE τ] (h : F.Kept lost) (e : τ × π) :
    (F.publish e).Kept lost := by
  unfold Feed.publish
  split
  · refine ⟨?_, ?_⟩
    · rw [← List.append_assoc]
      exact h.inOrder.append_right [e]
    · intro x hx
      simp only [List.mem_append] at hx ⊢
      rcases hx with hx | hx
      · have hold := h.complete x hx
        rw [List.mem_append] at hold
        tauto
      · exact Or.inl (Or.inr (Or.inr hx))
  · exact h

/-- What an eviction takes from the reader is lost. -/
theorem evict (h : F.Kept lost) {gone : τ × π → Bool} (hgone : ∀ e, gone e = true → lost e) :
    (F.evict gone).Kept lost := by
  refine ⟨?_, ?_⟩
  · exact (List.Sublist.append (List.Sublist.refl _) List.filter_sublist).trans h.inOrder
  · intro x hx
    rcases h.complete x hx with hold | hlost
    · rcases List.mem_append.mp hold with hhanded | hpending
      · exact Or.inl (List.mem_append_left _ hhanded)
      · cases hg : gone x with
        | true => exact Or.inr (hgone x hg)
        | false =>
          left
          apply List.mem_append_right
          exact List.mem_filter.mpr ⟨hpending, by simp [hg]⟩
    · exact Or.inr hlost

theorem fetch (h : F.Kept lost) (n : ℕ) : (F.fetch n).Kept lost := by
  have hsame : (F.fetch n).handed ++ (F.fetch n).sub.pending = F.handed ++ F.sub.pending := by
    simp [Feed.fetch]
  refine ⟨?_, ?_⟩
  · rw [hsame]
    exact h.inOrder
  · intro x hx
    rw [hsame]
    exact h.complete x hx

end Kept

end Feed

end PickBroker.Framework
