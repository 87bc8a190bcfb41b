import PickBroker.Store.Operations
import PickBroker.Framework.Noninterference

namespace PickBroker

open Framework

variable {Pick : Type*}

/-- The call is made for this address. -/
def Call.isFor (a : UInt64) : Call Pick → Bool
  | .subscribe b | .subscribeSince b _ _ | .unsubscribe b | .getPicks b _ => b = a
  | .enqueue _ _ _ => false

/-- Every call but the subscribe, unsubscribe and getPicks calls of other addresses. -/
def Call.concerns (a : UInt64) : Call Pick → Bool
  | .enqueue _ _ _ => true
  | call => call.isFor a

/-- Two stores that differ in the cursors of other subscribers alone. -/
structure AlikeFor (a : UInt64) (s t : PickStore Pick) : Prop where
  mDeque : s.mDeque = t.mDeque
  mMaxHistory : s.mMaxHistory = t.mMaxHistory
  mMaxQueueCapacity : s.mMaxQueueCapacity = t.mMaxQueueCapacity
  cursor : s.mCursorMap[a]? = t.mCursorMap[a]?

namespace AlikeFor

variable {a : UInt64} {s t : PickStore Pick}

theorem batch_eq (h : AlikeFor a s t) (n : ℤ) : s.batch a n = t.batch a n := by
  rw [PickStore.batch, PickStore.batch, PickStore.unread, PickStore.unread, h.cursor, h.mDeque]

/-- A call that only rewrites cursors, the one of `a` in both stores alike. -/
theorem rewrite (h : AlikeFor a s t) {m m' : Std.ExtTreeMap UInt64 Int64} (hm : m[a]? = m'[a]?) :
    AlikeFor a { s with mCursorMap := m } { t with mCursorMap := m' } :=
  ⟨h.mDeque, h.mMaxHistory, h.mMaxQueueCapacity, hm⟩

theorem cleanDequeAt_eq (h : AlikeFor a s t) (now : Int64) :
    (s.cleanDequeAt now).mDeque = (t.cleanDequeAt now).mDeque := by
  unfold PickStore.cleanDequeAt PickStore.cleanDeque
  rw [h.mDeque, h.mMaxHistory, h.mMaxQueueCapacity]
  dsimp only
  split
  · exact h.mDeque
  · rfl

theorem enqueue (h : AlikeFor a s t) (sorting : Sorting Int64 Pick) (r : Int64) (pick : Pick)
    (now : Int64) : AlikeFor a (s.enqueue sorting r pick now) (t.enqueue sorting r pick now) := by
  have hclean := h.cleanDequeAt_eq now
  refine ⟨?_, ?_, ?_, ?_⟩
  · rw [PickStore.enqueue_mDeque, PickStore.enqueue_mDeque, hclean]
  · exact ((PickStore.cleanDeque_settings s _).1.trans h.mMaxHistory).trans
      (PickStore.cleanDeque_settings t _).1.symm
  · exact ((PickStore.cleanDeque_settings s _).2.trans h.mMaxQueueCapacity).trans
      (PickStore.cleanDeque_settings t _).2.symm
  · rw [PickStore.enqueue_cursor, PickStore.enqueue_cursor, PickStore.newestAfter,
      PickStore.newestAfter, hclean, h.cursor]

end AlikeFor

/-- A call for another address moves no cursor but that one. -/
theorem alikeFor_next_self (sorting : Sorting Int64 Pick) {a : UInt64} (s : PickStore Pick)
    (call : Call Pick) (h : call.concerns a = false) :
    AlikeFor a ((pickStore sorting).next s call) s := by
  have hother (b : UInt64) (hb : b ≠ a) (m : Std.ExtTreeMap UInt64 Int64)
      (hm : ∀ c, b ≠ c → m[c]? = s.mCursorMap[c]?) :
      AlikeFor a { s with mCursorMap := m } s := ⟨rfl, rfl, rfl, hm a hb⟩
  have hself : AlikeFor a s s := ⟨rfl, rfl, rfl, rfl⟩
  cases call with
  | subscribe b =>
    have hb : b ≠ a := by simpa [Call.concerns, Call.isFor] using h
    exact hother b hb _ fun c hc => by simp [Std.ExtTreeMap.getElem?_insert, hc]
  | subscribeSince b startTime now =>
    have hb : b ≠ a := by simpa [Call.concerns, Call.isFor] using h
    rw [next_subscribeSince]
    split
    · exact hself
    · exact hother b hb _ fun c hc => by simp [Std.ExtTreeMap.getElem?_insert, hc]
  | unsubscribe b =>
    have hb : b ≠ a := by simpa [Call.concerns, Call.isFor] using h
    exact hother b hb _ fun c hc => by simp [Std.ExtTreeMap.getElem?_erase, hc]
  | enqueue r pick now => simp [Call.concerns] at h
  | getPicks b n =>
    have hb : b ≠ a := by simpa [Call.concerns, Call.isFor] using h
    by_cases hn : 1 ≤ n
    · rw [next_getPicks sorting s b hn]
      unfold PickStore.markRead
      split
      · exact hself
      · exact hother b hb _ fun c hc => by simp [Std.ExtTreeMap.getElem?_insert, hc]
    · rw [next_getPicks_of_lt sorting s b (by omega)]
      exact hself

/-- A call kept in the run does the same to both stores. -/
theorem alikeFor_next (sorting : Sorting Int64 Pick) {a : UInt64} {s t : PickStore Pick}
    (call : Call Pick) (hcall : call.concerns a = true) (h : AlikeFor a s t) :
    AlikeFor a ((pickStore sorting).next s call) ((pickStore sorting).next t call) := by
  cases call with
  | subscribe b => exact h.rewrite (by simp [Std.ExtTreeMap.getElem?_insert, h.cursor])
  | subscribeSince b startTime now =>
    rw [next_subscribeSince, next_subscribeSince]
    split
    · exact h
    · exact h.rewrite (by simp [Std.ExtTreeMap.getElem?_insert, h.cursor])
  | unsubscribe b => exact h.rewrite (by simp [Std.ExtTreeMap.getElem?_erase, h.cursor])
  | enqueue r pick now => exact h.enqueue sorting r pick now
  | getPicks b n =>
    obtain rfl : b = a := by simpa [Call.concerns, Call.isFor] using hcall
    by_cases hn : 1 ≤ n
    · rw [next_getPicks sorting s b hn, next_getPicks sorting t b hn, h.batch_eq]
      unfold PickStore.markRead
      split
      · exact h
      · exact h.rewrite (by simp)
    · rw [next_getPicks_of_lt sorting s b (by omega), next_getPicks_of_lt sorting t b (by omega)]
      exact h

theorem alikeFor_answer (sorting : Sorting Int64 Pick) {a : UInt64} {s t : PickStore Pick}
    (call : Call Pick) (hcall : call.isFor a = true) (h : AlikeFor a s t) :
    (pickStore sorting).answer s call = (pickStore sorting).answer t call := by
  cases call with
  | subscribeSince b startTime now =>
    simp only [Machine.answer, pickStore, PickStore.subscribeSince]
    by_cases ht : now < startTime ∧ startTime ≠ MAX_TIME <;> simp [ht]
  | getPicks b n =>
    obtain rfl : b = a := by simpa [Call.isFor] using hcall
    by_cases hn : 1 ≤ n
    · rw [answer_getPicks sorting s b hn, answer_getPicks sorting t b hn, h.batch_eq]
    · simp [Machine.answer, pickStore, PickStore.getPicks, show n < 1 by omega]
  | _ => rfl

/-- To one subscriber the calls of the others are invisible. -/
theorem alikeFor_unwinding (sorting : Sorting Int64 Pick) (a : UInt64) :
    (pickStore sorting).Unwinding (Call.isFor a) (Call.concerns a) (AlikeFor a) where
  kept call hcall := by
    cases call with
    | enqueue r pick now => rfl
    | _ => exact hcall
  answer call _ _ hcall h := alikeFor_answer sorting call hcall h
  consistent call _ _ hcall h := alikeFor_next sorting call hcall h
  respects call s t hcall h := by
    have hself := alikeFor_next_self sorting s call hcall
    exact ⟨hself.mDeque.trans h.mDeque, hself.mMaxHistory.trans h.mMaxHistory,
      hself.mMaxQueueCapacity.trans h.mMaxQueueCapacity, hself.cursor.trans h.cursor⟩

/-- Leaving all calls of the other subscribers out of a run changes no answer to this one. -/
theorem subscribers_isolated (sorting : Sorting Int64 Pick) (start : Construction Pick)
    (a : UInt64) (calls : List (Call Pick)) :
    (pickStore sorting).answersTo (Call.isFor a) (start.build sorting) calls =
      (pickStore sorting).answersTo (Call.isFor a) (start.build sorting)
        (calls.filter (Call.concerns a)) :=
  (alikeFor_unwinding sorting a).answersTo_filter ⟨rfl, rfl, rfl, rfl⟩ calls

end PickBroker
