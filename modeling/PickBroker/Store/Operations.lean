import PickBroker.Store.PickStore
import PickBroker.Framework.Chunks

namespace PickBroker

open Framework

namespace PickStore

variable {Pick : Type*}

/-- The stored entries at or after the subscriber's cursor. -/
def unread (s : PickStore Pick) (a : UInt64) : List (Int64 × Pick) :=
  s.mCursorMap[a]?.elim [] fun cursor => since cursor s.mDeque

/-- The entries a call of `getPicks` hands out. -/
def batch (s : PickStore Pick) (a : UInt64) (n : ℤ) : List (Int64 × Pick) :=
  (s.unread a).take n.toNat

/-- The store after a batch was handed to a subscriber. -/
def markRead (s : PickStore Pick) (a : UInt64) (entries : List (Int64 × Pick)) : PickStore Pick :=
  match entries.getLast? with
  | none => s
  | some e => { s with mCursorMap := s.mCursorMap.insert a (e.1 + 1) }

theorem unread_of_cursor {s : PickStore Pick} {a : UInt64} {c : Int64}
    (h : s.mCursorMap[a]? = some c) : s.unread a = since c s.mDeque := by
  simp [unread, h]

theorem unread_of_none {s : PickStore Pick} {a : UInt64}
    (h : s.mCursorMap[a]? = none) : s.unread a = [] := by
  simp [unread, h]

theorem unread_sublist (s : PickStore Pick) (a : UInt64) : (s.unread a).Sublist s.mDeque := by
  unfold unread
  cases s.mCursorMap[a]? with
  | none => exact List.nil_sublist _
  | some c => exact since_sublist c s.mDeque

theorem batch_sublist (s : PickStore Pick) (a : UInt64) (n : ℤ) :
    (s.batch a n).Sublist (s.unread a) := List.take_sublist _ _

theorem mem_of_mem_batch (s : PickStore Pick) {a : UInt64} {n : ℤ} {e : Int64 × Pick}
    (h : e ∈ s.batch a n) : e ∈ s.mDeque :=
  (s.unread_sublist a).subset ((s.batch_sublist a n).subset h)

/-- A batch that is not the rest of the unread entries ends at the place its size says. -/
theorem batch_getLast? (s : PickStore Pick) {a : UInt64} {n : ℤ} (hn : 1 ≤ n) {e : Int64 × Pick}
    (h : (s.unread a)[n.toNat - 1]? = some e) : (s.batch a n).getLast? = some e := by
  rw [batch, List.getLast?_take, if_neg (by omega), h]
  rfl

theorem markRead_nil (s : PickStore Pick) (a : UInt64) : s.markRead a [] = s := rfl

theorem markRead_mDeque (s : PickStore Pick) (a : UInt64) (entries : List (Int64 × Pick)) :
    (s.markRead a entries).mDeque = s.mDeque := by
  unfold markRead
  split <;> rfl

theorem markRead_cursor_ne (s : PickStore Pick) {a b : UInt64} (h : a ≠ b)
    (entries : List (Int64 × Pick)) :
    (s.markRead a entries).mCursorMap[b]? = s.mCursorMap[b]? := by
  unfold markRead
  split
  · rfl
  · simp [Std.ExtTreeMap.getElem?_insert, h]

theorem markRead_cursor_last (s : PickStore Pick) {a : UInt64} {entries : List (Int64 × Pick)}
    {e : Int64 × Pick} (h : entries.getLast? = some e) :
    (s.markRead a entries).mCursorMap[a]? = some (e.1 + 1) := by
  simp [markRead, h]

/-- The loop collects the first unread entries and ends with the time of the last of them. -/
theorem collect_eq (cursor : Int64) (n : ℤ) (deque : List (Int64 × Pick)) (result : List Pick)
    (t : Int64) (hn : (result.length : ℤ) < n) :
    collect cursor n (result, t) deque =
      (result ++ ((since cursor deque).take (n.toNat - result.length)).map Prod.snd,
        (((since cursor deque).take (n.toNat - result.length)).getLast?.map Prod.fst).getD t) := by
  induction deque generalizing result t with
  | nil => simp [collect]
  | cons e deque ih =>
    obtain ⟨time, pick⟩ := e
    by_cases hc : cursor ≤ time
    · have hpos : n.toNat - result.length = (n.toNat - (result.length + 1)) + 1 := by omega
      rw [since_cons, if_pos hc, hpos, List.take_succ_cons]
      simp only [collect, hc, if_true, List.length_append, List.length_singleton]
      split
      · have hz : n.toNat - (result.length + 1) = 0 := by omega
        simp [hz]
      · have hlt : (((result ++ [pick]).length : ℕ) : ℤ) < n := by simp; omega
        have hh := ih (result ++ [pick]) time hlt
        rw [List.length_append, List.length_singleton] at hh
        rw [hh]
        cases hl : (List.take (n.toNat - (result.length + 1)) (since cursor deque)).getLast? with
        | none =>
          have hnil := List.getLast?_eq_none_iff.mp hl
          simp [hnil]
        | some b => simp [List.getLast?_cons, hl]
    · rw [since_cons, if_neg hc]
      simp only [collect, hc, if_false]
      rw [if_neg (by omega), ih result t hn]

/-- What a call of `getPicks` with a positive maximum does. -/
theorem getPicks_eq (s : PickStore Pick) (a : UInt64) {n : ℤ} (hn : 1 ≤ n) :
    s.getPicks a n = .ok ((s.batch a n).map Prod.snd, s.markRead a (s.batch a n)) := by
  rw [getPicks, if_neg (by omega)]
  cases hc : s.mCursorMap[a]? with
  | none => simp [batch, unread_of_none hc, markRead_nil]
  | some cursor =>
    have hh := collect_eq cursor n s.mDeque [] cursor (by simp; omega)
    simp only [List.length_nil, Nat.sub_zero, List.nil_append] at hh
    simp only [hh, batch, unread_of_cursor hc]
    cases hl : (List.take n.toNat (since cursor s.mDeque)).getLast? with
    | none =>
      have hnil := List.getLast?_eq_none_iff.mp hl
      simp [hnil, markRead_nil]
    | some e =>
      have hne : List.take n.toNat (since cursor s.mDeque) ≠ [] := by
        intro h
        simp [h] at hl
      have hf : (List.take n.toNat (since cursor s.mDeque)).isEmpty = false :=
        List.isEmpty_eq_false_iff.mpr hne
      simp only [List.isEmpty_map, hf, markRead, hl, Bool.false_eq_true, if_false]
      rfl

/-- Behind a time below MAX_TIME the read mark is the next nanosecond. -/
theorem since_add_one {t : Int64} (h : t ≠ MAX_TIME) (l : List (Int64 × Pick)) :
    since (t + 1) l = after t l :=
  List.filter_congr fun _ _ => decide_eq_decide.mpr (add_one_le_iff h)

/-- What is unread after a batch: the read mark passes over ties of the last pick read. -/
theorem unread_markRead (s : PickStore Pick) (h : Ordered s.mDeque) (a : UInt64) (n : ℤ)
    (hmax : ∀ e ∈ s.batch a n, e.1 ≠ MAX_TIME) :
    (s.markRead a (s.batch a n)).unread a = rest n.toNat (s.unread a) := by
  cases hl : (s.batch a n).getLast? with
  | none =>
    have hnil := List.getLast?_eq_none_iff.mp hl
    have hl' : ((s.unread a).take n.toNat).getLast? = none := hl
    rw [hnil, markRead_nil, rest, hl']
  | some e =>
    have hmem := List.mem_of_getLast? hl
    cases hc : s.mCursorMap[a]? with
    | none => simp [batch, unread_of_none hc] at hmem
    | some c =>
      have hu := unread_of_cursor hc
      have hce : c ≤ e.1 := by
        have hm := (batch_sublist s a n).subset hmem
        rw [hu] at hm
        exact (mem_since.mp hm).2
      have hord : Ordered (s.unread a) := h.sublist (unread_sublist s a)
      rw [rest_eq_after hord hl, unread_of_cursor (markRead_cursor_last s hl), markRead_mDeque,
        since_add_one (hmax e hmem), hu, after_since hce]

theorem cleanDeque_mCursorMap (s : PickStore Pick) (t : Int64) :
    (s.cleanDeque t).mCursorMap = s.mCursorMap := by
  unfold cleanDeque
  dsimp only
  split <;> rfl

theorem cleanDeque_settings (s : PickStore Pick) (t : Int64) :
    (s.cleanDeque t).mMaxHistory = s.mMaxHistory ∧
      (s.cleanDeque t).mMaxQueueCapacity = s.mMaxQueueCapacity := by
  unfold cleanDeque
  dsimp only
  split <;> exact ⟨rfl, rfl⟩

theorem cleanDeque_sublist (s : PickStore Pick) (t : Int64) :
    (s.cleanDeque t).mDeque.Sublist s.mDeque := by
  unfold cleanDeque
  dsimp only
  split
  · exact List.Sublist.refl _
  · exact List.dropWhile_sublist _

/-- `cleanDeque` with this cutoff removes the entry. -/
def evicts (s : PickStore Pick) (oldestPickToKeep : Int64) (e : Int64 × Pick) : Bool :=
  s.mMaxQueueCapacity / 2 ≤ s.mDeque.length ∧ e.1 < oldestPickToKeep

theorem cleanDeque_mDeque (s : PickStore Pick) (h : Ordered s.mDeque) (t : Int64) :
    (s.cleanDeque t).mDeque = s.mDeque.filter fun e => !s.evicts t e := by
  unfold cleanDeque
  dsimp only
  split
  · rename_i hlt
    have hge : ¬ s.mMaxQueueCapacity / 2 ≤ s.mDeque.length := by omega
    simp [evicts, hge]
  · rename_i hge
    have hle : s.mMaxQueueCapacity / 2 ≤ s.mDeque.length := by omega
    change s.mDeque.dropWhile _ = _
    rw [h.dropWhile_eq_since, since]
    apply List.filter_congr
    intro e _
    have hd : decide (t ≤ e.1) = !decide (e.1 < t) := by
      rw [← decide_not]
      exact decide_eq_decide.mpr not_lt.symm
    simp [evicts, hle, hd]

/-- What a cleaning leaves. -/
theorem mem_cleanDeque_iff (s : PickStore Pick) (h : Ordered s.mDeque) (t : Int64)
    (e : Int64 × Pick) :
    e ∈ (s.cleanDeque t).mDeque ↔
      e ∈ s.mDeque ∧ (s.mMaxQueueCapacity / 2 ≤ s.mDeque.length → t ≤ e.1) := by
  rw [cleanDeque_mDeque s h, List.mem_filter]
  have hkept : (!s.evicts t e) = true ↔
      (s.mMaxQueueCapacity / 2 ≤ s.mDeque.length → t ≤ e.1) := by
    rw [Bool.not_eq_true', evicts, decide_eq_false_iff_not, not_and, not_lt]
  rw [hkept]

theorem insertPick_perm (sorting : Sorting Int64 Pick) (deque : List (Int64 × Pick))
    (item : Int64 × Pick) : (insertPick sorting deque item).Perm (deque ++ [item]) := by
  unfold insertPick
  split
  · exact sorting.perm _
  · exact List.Perm.refl _

/-- A pick no older than the stored ones is only put at the back. -/
theorem insertPick_of_le (sorting : Sorting Int64 Pick) {deque : List (Int64 × Pick)}
    {item : Int64 × Pick} (h : ∀ e ∈ deque, e.1 ≤ item.1) :
    insertPick sorting deque item = deque ++ [item] := by
  have hs : sortDeque deque item.1 = false := by
    unfold sortDeque
    split
    · rfl
    · rename_i b hb
      simpa using h b (List.mem_of_getLast? hb)
  simp [insertPick, hs]

theorem insertPick_ordered (sorting : Sorting Int64 Pick) {deque : List (Int64 × Pick)}
    (h : Ordered deque) (item : Int64 × Pick) : Ordered (insertPick sorting deque item) := by
  unfold insertPick
  split
  · exact sorting.ordered _
  · rename_i hsort
    apply h.concat
    intro x hx
    cases hl : deque.getLast? with
    | none => simp [List.getLast?_eq_none_iff.mp hl] at hx
    | some b =>
      have hb : ¬ item.1 < b.1 := by simpa [sortDeque, hl] using hsort
      exact (h.le_last hx hl).trans (not_lt.mp hb)

theorem mem_insertPick {sorting : Sorting Int64 Pick} {deque : List (Int64 × Pick)}
    {item e : Int64 × Pick} : e ∈ insertPick sorting deque item ↔ e ∈ deque ∨ e = item := by
  rw [(insertPick_perm sorting deque item).mem_iff]
  simp

/-- The received time of the newest entry after an enqueue. -/
def newestAfter (sorting : Sorting Int64 Pick) (s : PickStore Pick) (receivedTime : Int64)
    (pick : Pick) (now : Int64) : Int64 :=
  ((insertPick sorting (s.cleanDequeAt now).mDeque (receivedTime, pick)).getLast?.map
    Prod.fst).getD receivedTime

theorem enqueue_mDeque (sorting : Sorting Int64 Pick) (s : PickStore Pick) (r : Int64)
    (pick : Pick) (now : Int64) : (s.enqueue sorting r pick now).mDeque =
      insertPick sorting (s.cleanDequeAt now).mDeque (r, pick) := rfl

theorem enqueue_cursor (sorting : Sorting Int64 Pick) (s : PickStore Pick) (r : Int64)
    (pick : Pick) (now : Int64) (a : UInt64) :
    (s.enqueue sorting r pick now).mCursorMap[a]? = s.mCursorMap[a]?.map fun c =>
      if c = MAX_TIME then s.newestAfter sorting r pick now else c := by
  have h : (s.cleanDequeAt now).mCursorMap = s.mCursorMap := cleanDeque_mCursorMap _ _
  simp only [enqueue, Std.ExtTreeMap.getElem?_map, h]
  rfl

theorem newestAfter_of_le (sorting : Sorting Int64 Pick) (s : PickStore Pick) {r : Int64}
    (pick : Pick) (now : Int64) (h : ∀ e ∈ (s.cleanDequeAt now).mDeque, e.1 ≤ r) :
    s.newestAfter sorting r pick now = r := by
  rw [newestAfter, insertPick_of_le sorting h]
  simp

/-- After an enqueue there is a newest entry; no stored entry is younger. -/
theorem exists_newestAfter (sorting : Sorting Int64 Pick) (s : PickStore Pick)
    (h : Ordered s.mDeque) (r : Int64) (pick : Pick) (now : Int64) :
    (∃ e ∈ (s.enqueue sorting r pick now).mDeque, e.1 = s.newestAfter sorting r pick now) ∧
      ∀ e ∈ (s.enqueue sorting r pick now).mDeque, e.1 ≤ s.newestAfter sorting r pick now := by
  have hclean : Ordered (s.cleanDequeAt now).mDeque := h.sublist (cleanDeque_sublist _ _)
  have hord := insertPick_ordered sorting hclean (r, pick)
  have hmem : (r, pick) ∈ insertPick sorting (s.cleanDequeAt now).mDeque (r, pick) :=
    mem_insertPick.mpr (Or.inr rfl)
  rw [enqueue_mDeque, newestAfter]
  cases hl : (insertPick sorting (s.cleanDequeAt now).mDeque (r, pick)).getLast? with
  | none => simp [List.getLast?_eq_none_iff.mp hl] at hmem
  | some b => exact ⟨⟨b, List.mem_of_getLast? hl, rfl⟩, fun e he => hord.le_last he hl⟩

end PickStore

theorem receivedTimes_sublist {Pick : Type*} {calls calls' : List (Call Pick)}
    (h : calls.Sublist calls') : (receivedTimes calls).Sublist (receivedTimes calls') :=
  h.filterMap _

section Steps

variable {Pick : Type*} (sorting : Sorting Int64 Pick) (s : PickStore Pick)

@[simp] theorem next_subscribe (a : UInt64) :
    (pickStore sorting).next s (.subscribe a) = s.subscribe a := rfl

@[simp] theorem next_unsubscribe (a : UInt64) :
    (pickStore sorting).next s (.unsubscribe a) = s.unsubscribe a := rfl

@[simp] theorem next_enqueue (r : Int64) (pick : Pick) (now : Int64) :
    (pickStore sorting).next s (.enqueue r pick now) = s.enqueue sorting r pick now := rfl

/-- A refused start time leaves the store alone, any other one becomes the cursor. -/
theorem next_subscribeSince (a : UInt64) (startTime now : Int64) :
    (pickStore sorting).next s (.subscribeSince a startTime now) =
      if now < startTime ∧ startTime ≠ MAX_TIME then s
      else { s with mCursorMap := s.mCursorMap.insert a startTime } := by
  by_cases h : now < startTime ∧ startTime ≠ MAX_TIME <;>
    simp [Machine.next, pickStore, PickStore.subscribeSince, h]

theorem next_getPicks (a : UInt64) {n : ℤ} (hn : 1 ≤ n) :
    (pickStore sorting).next s (.getPicks a n) = s.markRead a (s.batch a n) := by
  simp [Machine.next, pickStore, s.getPicks_eq a hn]

theorem answer_getPicks (a : UInt64) {n : ℤ} (hn : 1 ≤ n) :
    (pickStore sorting).answer s (.getPicks a n) = .picks ((s.batch a n).map Prod.snd) := by
  simp [Machine.answer, pickStore, s.getPicks_eq a hn]

theorem next_getPicks_of_lt (a : UInt64) {n : ℤ} (hn : n < 1) :
    (pickStore sorting).next s (.getPicks a n) = s := by
  simp [Machine.next, pickStore, PickStore.getPicks, hn]

/-- Only `enqueue` touches the deque, so proofs about it look at that call and at the rest. -/
theorem Call.enqueue_or_not (call : Call Pick) :
    (∃ r pick now, call = .enqueue r pick now) ∨ ∀ r pick now, call ≠ .enqueue r pick now := by
  cases call with
  | enqueue r pick now => exact .inl ⟨r, pick, now, rfl⟩
  | _ =>
    right
    intro r pick now heq
    cases heq

/-- Reading and subscribing never touch the deque. -/
theorem next_mDeque_of_not_enqueue (call : Call Pick)
    (h : ∀ r pick now, call ≠ .enqueue r pick now) :
    ((pickStore sorting).next s call).mDeque = s.mDeque := by
  cases call with
  | subscribe a => rfl
  | subscribeSince a startTime now =>
    rw [next_subscribeSince]
    split <;> rfl
  | unsubscribe a => rfl
  | enqueue r pick now => exact absurd rfl (h r pick now)
  | getPicks a n =>
    by_cases hn : 1 ≤ n
    · rw [next_getPicks sorting s a hn, PickStore.markRead_mDeque]
    · rw [next_getPicks_of_lt sorting s a (by omega)]

theorem next_ordered (call : Call Pick) (h : Ordered s.mDeque) :
    Ordered ((pickStore sorting).next s call).mDeque := by
  rcases call.enqueue_or_not with ⟨r, pick, now, rfl⟩ | hne
  · exact PickStore.insertPick_ordered sorting
      (h.sublist (PickStore.cleanDeque_sublist _ _)) (r, pick)
  · rw [next_mDeque_of_not_enqueue sorting s call hne]
    exact h

end Steps

section Reachability

variable {Pick : Type*} {sorting : Sorting Int64 Pick}

theorem build_ordered (start : Construction Pick) : Ordered (start.build sorting).mDeque := by
  cases start with
  | new options => exact List.Pairwise.nil
  | backfilled options picks now =>
    exact (sorting.ordered picks).sublist (PickStore.cleanDeque_sublist _ _)

theorem build_mCursorMap (start : Construction Pick) :
    (start.build sorting).mCursorMap = ({} : Std.ExtTreeMap UInt64 Int64) := by
  cases start with
  | new options => rfl
  | backfilled options picks now => exact PickStore.cleanDeque_mCursorMap _ _

theorem mem_build {start : Construction Pick} {e : Int64 × Pick}
    (h : e ∈ (start.build sorting).mDeque) : e ∈ start.picks := by
  cases start with
  | new options => exact absurd h (by simp [Construction.build, PickStore.new])
  | backfilled options picks now =>
    exact (sorting.perm picks).mem_iff.mp ((PickStore.cleanDeque_sublist _ _).subset h)

/-- In every reachable store the deque is sorted by received time. -/
theorem Reachable.ordered {s : PickStore Pick} (h : Reachable sorting s) : Ordered s.mDeque := by
  obtain ⟨start, calls, rfl⟩ := h
  exact Machine.invariant_of_step _ (fun s call => next_ordered sorting s call) calls
    (build_ordered start)

end Reachability

end PickBroker
