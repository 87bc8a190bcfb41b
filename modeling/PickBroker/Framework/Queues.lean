import PickBroker.Framework.TimedLog
import Mathlib.Logic.Function.Basic

namespace PickBroker.Framework

/-- A subscriber with a list of its own: what it has not been handed yet. -/
structure Subscription (τ π : Type*) where
  start : Option τ
  pending : List (τ × π)

/-- A log whose subscribers each own the list of entries they are still to get. -/
structure Queues (α τ π : Type*) where
  stored : List (τ × π)
  subscriber : α → Option (Subscription τ π)

variable {α τ π : Type*}

/-- A subscriber with a start is entitled to what comes at or after it, one without to all
that comes. -/
def Entitled [LE τ] (start : Option τ) (t : τ) : Prop := ∀ b ∈ start, b ≤ t

instance [LE τ] [DecidableLE τ] (start : Option τ) (t : τ) : Decidable (Entitled start t) :=
  inferInstanceAs (Decidable (∀ b ∈ start, b ≤ t))

namespace Queues

def subscribe [DecidableEq α] [LE τ] [DecidableLE τ] (q : Queues α τ π) (a : α)
    (start : Option τ) : Queues α τ π :=
  { q with subscriber := Function.update q.subscriber a (some
      { start, pending := match start with
          | none => []
          | some t => since t q.stored }) }

def unsubscribe [DecidableEq α] (q : Queues α τ π) (a : α) : Queues α τ π :=
  { q with subscriber := Function.update q.subscriber a none }

def publish [LE τ] [DecidableLE τ] (q : Queues α τ π) (e : τ × π) : Queues α τ π where
  stored := q.stored ++ [e]
  subscriber a := (q.subscriber a).map fun sub =>
    { sub with pending := if Entitled sub.start e.1 then sub.pending ++ [e] else sub.pending }

/-- What is gone from the log is gone from every list. -/
def evict (q : Queues α τ π) (gone : τ × π → Bool) : Queues α τ π where
  stored := q.stored.filter fun e => !gone e
  subscriber a := (q.subscriber a).map fun sub =>
    { sub with pending := sub.pending.filter fun e => !gone e }

/-- The first `n` entries of the subscriber's list, and the list without them. -/
def fetch [DecidableEq α] (q : Queues α τ π) (a : α) (n : ℕ) :
    List (τ × π) × Queues α τ π :=
  match q.subscriber a with
  | none => ([], q)
  | some sub => (sub.pending.take n, { q with
      subscriber := Function.update q.subscriber a
        (some { sub with pending := sub.pending.drop n }) })

end Queues

end PickBroker.Framework
