import PickBroker.Store.Operations

namespace PickBroker

open Framework

variable {Pick : Type*}

/-- The maximum queue capacity the options configure. -/
def Construction.capacity : Construction Pick → ℕ
  | .new options | .backfilled options _ _ => options.mMaximumQueueCapacity.toInt.toNat

/-- How many stored picks stay when `cleanDeque` runs with this cutoff: those at or above it,
or all of them while less than half the capacity is stored. -/
def PickStore.staying (s : PickStore Pick) (oldestPickToKeep : Int64) : ℕ :=
  if s.mDeque.length < s.mMaxQueueCapacity / 2 then s.mDeque.length
  else (since oldestPickToKeep s.mDeque).length

/-- The backfill has at most as many picks at or above the cutoff as may be stored. -/
def Construction.Fits : Construction Pick → Prop
  | .new _ => True
  | .backfilled options picks now =>
    (since (now - options.mMaximumRetentionDuration * 1000000000) picks).length ≤
      options.mMaximumQueueCapacity.toInt.toNat

/-- An enqueue finds that fewer than `capacity` of the stored picks stay. -/
def HasRoom (capacity : ℕ) (s : PickStore Pick) : Call Pick → Prop
  | .enqueue _ _ now => s.staying (now - s.mMaxHistory) < capacity
  | _ => True

theorem length_cleanDeque (s : PickStore Pick) (h : Ordered s.mDeque) (t : Int64) :
    (s.cleanDeque t).mDeque.length = s.staying t := by
  unfold PickStore.cleanDeque PickStore.staying
  dsimp only
  split
  · rfl
  · change (s.mDeque.dropWhile _).length = _
    rw [h.dropWhile_eq_since]

theorem length_enqueue (sorting : Sorting Int64 Pick) (s : PickStore Pick) (h : Ordered s.mDeque)
    (r : Int64) (pick : Pick) (now : Int64) :
    (s.enqueue sorting r pick now).mDeque.length = s.staying (now - s.mMaxHistory) + 1 := by
  have hlen := (PickStore.insertPick_perm sorting (s.cleanDequeAt now).mDeque (r, pick)).length_eq
  rw [PickStore.enqueue_mDeque, hlen, List.length_append, PickStore.cleanDequeAt,
    length_cleanDeque s h]
  rfl

theorem fits_iff (sorting : Sorting Int64 Pick) (start : Construction Pick) :
    (start.build sorting).mDeque.length ≤ start.capacity ↔ start.Fits := by
  cases start with
  | new options => simp [Construction.build, PickStore.new, Construction.Fits]
  | backfilled options picks now =>
    let s : PickStore Pick :=
      { mDeque := sorting.sort picks
        mMaxHistory := options.mMaximumRetentionDuration * 1000000000
        mMaxQueueCapacity := options.mMaximumQueueCapacity.toInt.toNat }
    have hlen := length_cleanDeque s (sorting.ordered picks) (now - s.mMaxHistory)
    have hsince : (since (now - s.mMaxHistory) (sorting.sort picks)).length =
        (since (now - s.mMaxHistory) picks).length :=
      ((sorting.perm picks).filter _).length_eq
    have hle : (since (now - s.mMaxHistory) (sorting.sort picks)).length ≤
        (sorting.sort picks).length := (since_sublist _ _).length_le
    change (s.cleanDeque (now - s.mMaxHistory)).mDeque.length ≤ s.mMaxQueueCapacity ↔
      (since (now - s.mMaxHistory) picks).length ≤ s.mMaxQueueCapacity
    rw [hlen, ← hsince, PickStore.staying]
    split
    · rename_i hhalf
      change (sorting.sort picks).length < s.mMaxQueueCapacity / 2 at hhalf
      change (sorting.sort picks).length ≤ _ ↔ _
      omega
    · rfl

theorem hasRoom_iff (sorting : Sorting Int64 Pick) (s : PickStore Pick) (h : Ordered s.mDeque)
    {capacity : ℕ} (hs : s.mDeque.length ≤ capacity) (call : Call Pick) :
    ((pickStore sorting).next s call).mDeque.length ≤ capacity ↔ HasRoom capacity s call := by
  rcases call.enqueue_or_not with ⟨r, pick, now, rfl⟩ | hne
  · rw [next_enqueue, length_enqueue sorting s h]
    exact Nat.succ_le_iff
  · rw [next_mDeque_of_not_enqueue sorting s call hne]
    cases call with
    | enqueue r pick now => exact absurd rfl (hne r pick now)
    | _ => exact iff_of_true hs trivial

/-- A run keeps within the configured capacity exactly when the backfill fits and every enqueue
finds room: no branch of the code makes room by dropping picks younger than the cutoff. -/
theorem capacity_kept_iff (sorting : Sorting Int64 Pick) (start : Construction Pick)
    (calls : List (Call Pick)) :
    (∀ before, before <+: calls →
      ((pickStore sorting).final (start.build sorting) before).mDeque.length ≤ start.capacity) ↔
      start.Fits ∧
        (pickStore sorting).Meets (HasRoom start.capacity) (start.build sorting) calls := by
  have hkeep : ∀ s call, Ordered s.mDeque → Ordered ((pickStore sorting).next s call).mDeque :=
    fun s call => next_ordered sorting s call
  have hstep : ∀ s, ∀ call ∈ calls, Ordered s.mDeque → s.mDeque.length ≤ start.capacity →
      (((pickStore sorting).next s call).mDeque.length ≤ start.capacity ↔
        HasRoom start.capacity s call) :=
    fun s call _ hs hP => hasRoom_iff sorting s hs hP call
  have hrun (hP : (start.build sorting).mDeque.length ≤ start.capacity) :=
    Machine.always_iff_meets (pickStore sorting) hkeep hstep (build_ordered start) hP
  constructor
  · intro h
    have hP := h [] (List.nil_prefix)
    exact ⟨(fits_iff sorting start).mp hP, (hrun hP).mp h⟩
  · intro hparts
    obtain ⟨hfits, hroom⟩ := hparts
    exact (hrun ((fits_iff sorting start).mpr hfits)).mpr hroom

/-- A store for one pick. -/
def onePick : Construction ℕ :=
  .backfilled { mMaximumQueueCapacity := 1, capacity_pos := one_le_one } [] 0

/-- Two picks received within the retention duration are both stored. -/
theorem onePick_stores_two :
    ¬ ∀ before, before <+: [.enqueue 10 1 10, .enqueue 20 2 20] →
      ((pickStore (Sorting.stable Int64 ℕ)).final (onePick.build (Sorting.stable Int64 ℕ))
        before).mDeque.length ≤ onePick.capacity := by
  intro h
  exact absurd (h _ (List.prefix_refl _)) (by decide)

end PickBroker
