import PickBroker.Store.Operations

namespace PickBroker

open Framework

variable {Pick : Type*}

/-- The assertion of a debug build does not stop this call. A maximum below one is refused
before it is reached. -/
def AssertionHolds (s : PickStore Pick) : Call Pick → Prop
  | .getPicks a n => 1 ≤ n → s.assertionHolds a n
  | _ => True

/-- The call does not read picks received exactly at the cursor and nothing else. -/
def ReadsPastCursor (s : PickStore Pick) : Call Pick → Prop
  | .getPicks a n => 1 ≤ n → ∀ c ∈ s.mCursorMap[a]?,
      tied c s.mDeque = [] ∨ (tied c s.mDeque).length < n ∧ ∃ e ∈ s.mDeque, c < e.1
  | _ => True

theorem PickStore.assertionHolds_iff {s : PickStore Pick} {a : UInt64} {c : Int64}
    (hc : s.mCursorMap[a]? = some c) {n : ℤ} (hn : 1 ≤ n) :
    s.assertionHolds a n ↔ ∀ e ∈ ((since c s.mDeque).take n.toNat).getLast?, c < e.1 := by
  have h := collect_eq c n s.mDeque [] c (by simp; omega)
  simp only [List.length_nil, Nat.sub_zero, List.nil_append] at h
  simp only [assertionHolds, hc, h]
  cases hl : ((since c s.mDeque).take n.toNat).getLast? with
  | none => simp [List.getLast?_eq_none_iff.mp hl]
  | some e =>
    have hne : (since c s.mDeque).take n.toNat ≠ [] := by
      intro hnil
      simp [hnil] at hl
    have hf : (((since c s.mDeque).take n.toNat).map Prod.snd).isEmpty = false := by
      rw [List.isEmpty_map]
      exact List.isEmpty_eq_false_iff.mpr hne
    simp only [hf, Bool.false_or, Option.map_some, Option.getD_some, decide_eq_true_eq,
      Option.mem_def, Option.some.injEq, forall_eq']

theorem assertionHolds_iff_readsPastCursor {s : PickStore Pick} (h : Ordered s.mDeque)
    (call : Call Pick) : AssertionHolds s call ↔ ReadsPastCursor s call := by
  cases call with
  | subscribe a => exact Iff.rfl
  | subscribeSince a startTime now => exact Iff.rfl
  | unsubscribe a => exact Iff.rfl
  | enqueue r pick now => exact Iff.rfl
  | getPicks a n =>
    apply forall_congr'
    intro hn
    cases hc : s.mCursorMap[a]? with
    | none => simp [PickStore.assertionHolds, hc]
    | some c =>
      rw [PickStore.assertionHolds_iff hc hn, h.lt_last_iff (by omega)]
      have hlen : (tied c s.mDeque).length < n.toNat ↔ ((tied c s.mDeque).length : ℤ) < n := by
        omega
      have hlater : after c s.mDeque ≠ [] ↔ ∃ e ∈ s.mDeque, c < e.1 := by
        simp [after, List.filter_eq_nil_iff]
      rw [hlen, hlater]
      simp

/-- The assertion holds throughout a run exactly when every read finds no stored pick at its
cursor, or fewer than its maximum and a later pick behind them. -/
theorem assertions_hold_iff (sorting : Sorting Int64 Pick) (start : Construction Pick)
    (calls : List (Call Pick)) :
    (pickStore sorting).Meets AssertionHolds (start.build sorting) calls ↔
      (pickStore sorting).Meets ReadsPastCursor (start.build sorting) calls :=
  Machine.meets_congr _ (fun s call => next_ordered sorting s call)
    (fun _ call h => assertionHolds_iff_readsPastCursor h call) (build_ordered start) calls

/-- The first pick after a subscription stands exactly at the cursor it sets. -/
theorem first_read_aborts :
    ¬ (pickStore (Sorting.stable Int64 ℕ)).Meets AssertionHolds
        (Construction.build (Sorting.stable Int64 ℕ) (.new {}))
        [.subscribe 101, .enqueue 5 50 60, .getPicks 101 1] := by
  intro h
  have h3 := h.2.2.1 (by decide)
  revert h3
  decide

end PickBroker
