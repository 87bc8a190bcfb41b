import Mathlib.Init

namespace PickBroker

/-- The exceptions the broker's functions throw, with the text `what` returns. -/
inductive Exception where
  | invalid_argument (what : String)
  | runtime_error (what : String)
  | DuplicatePickException (what : String)
  | bad_alloc (what : String)
  deriving DecidableEq, Repr

def Exception.what : Exception → String
  | .invalid_argument what => what
  | .runtime_error what => what
  | .DuplicatePickException what => what
  | .bad_alloc what => what

/-- What a check for a positive number leaves. -/
theorem one_le_of_not_lt {n : Int32} (h : ¬ n < 1) : 1 ≤ n := Int32.not_lt.mp h

theorem one_le_one : (1 : Int32) ≤ 1 := Int32.le_refl 1

end PickBroker
