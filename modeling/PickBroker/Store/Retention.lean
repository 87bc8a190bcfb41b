import PickBroker.Store.Operations

namespace PickBroker

open Framework

variable {Pick : Type*}

/-- A run of `cleanDeque`: what was stored when it began, half the capacity, and the cutoff. -/
structure Cleaning (Pick : Type*) where
  stored : List (Int64 × Pick)
  halfQueueCapacity : ℕ
  oldestPickToKeep : Int64

/-- The entries a cleaning takes away. -/
def Cleaning.removed (c : Cleaning Pick) : List (Int64 × Pick) :=
  c.stored.filter fun e => c.halfQueueCapacity ≤ c.stored.length ∧ e.1 < c.oldestPickToKeep

/-- The cleaning an `enqueue` at this clock reading begins with. -/
def PickStore.cleaningAt (s : PickStore Pick) (now : Int64) : Cleaning Pick :=
  { stored := s.mDeque
    halfQueueCapacity := s.mMaxQueueCapacity / 2
    oldestPickToKeep := now - s.mMaxHistory }

/-- The cleanings of a run, in order. -/
def cleanings (sorting : Sorting Int64 Pick) :
    PickStore Pick → List (Call Pick) → List (Cleaning Pick)
  | _, [] => []
  | s, call :: calls =>
    (match call with
      | .enqueue _ _ now => [s.cleaningAt now]
      | _ => []) ++ cleanings sorting ((pickStore sorting).next s call) calls

/-- The cleaning of the constructor. -/
def Construction.cleanings (sorting : Sorting Int64 Pick) :
    Construction Pick → List (Cleaning Pick)
  | .new _ => []
  | .backfilled options picks now =>
    [{ stored := sorting.sort picks
       halfQueueCapacity := options.mMaximumQueueCapacity.toInt.toNat / 2
       oldestPickToKeep := now - options.mMaximumRetentionDuration * 1000000000 }]

/-- The entries a run enqueues. -/
def enqueued (calls : List (Call Pick)) : List (Int64 × Pick) :=
  calls.filterMap fun
    | .enqueue receivedTime pick _ => some (receivedTime, pick)
    | _ => none

/-- What a cleaning takes away and what it leaves are together what was stored. -/
theorem cleanDequeAt_perm (s : PickStore Pick) (h : Ordered s.mDeque) (now : Int64) :
    ((s.cleanDequeAt now).mDeque ++ (s.cleaningAt now).removed).Perm s.mDeque := by
  have hkept : (s.cleanDequeAt now).mDeque =
      s.mDeque.filter fun e => !s.evicts (now - s.mMaxHistory) e :=
    PickStore.cleanDeque_mDeque s h _
  have hremoved : (s.cleaningAt now).removed =
      s.mDeque.filter fun e => s.evicts (now - s.mMaxHistory) e := rfl
  rw [hkept, hremoved]
  apply List.perm_append_comm.trans
  exact List.filter_append_perm _ _

theorem build_perm (sorting : Sorting Int64 Pick) (start : Construction Pick) :
    ((start.build sorting).mDeque ++ (start.cleanings sorting).flatMap Cleaning.removed).Perm
      start.picks := by
  cases start with
  | new options => exact List.Perm.refl _
  | backfilled options picks now =>
    have h := cleanDequeAt_perm
      { mDeque := sorting.sort picks
        mMaxHistory := options.mMaximumRetentionDuration * 1000000000
        mMaxQueueCapacity := options.mMaximumQueueCapacity.toInt.toNat }
      (sorting.ordered picks) now
    simp only [Construction.cleanings, List.flatMap_cons, List.flatMap_nil, List.append_nil]
    exact h.trans (sorting.perm picks)

/-- One call: the entry it adds is stored, and what its cleaning takes away is gone. -/
theorem retained_step (sorting : Sorting Int64 Pick) (s : PickStore Pick) (h : Ordered s.mDeque)
    (call : Call Pick) :
    (((pickStore sorting).next s call).mDeque ++
      (cleanings sorting s [call]).flatMap Cleaning.removed).Perm (s.mDeque ++ enqueued [call]) := by
  rcases call.enqueue_or_not with ⟨r, pick, now, rfl⟩ | hne
  · have hinsert := PickStore.insertPick_perm sorting (s.cleanDequeAt now).mDeque (r, pick)
    simp only [cleanings, List.append_nil, List.flatMap_cons, List.flatMap_nil, next_enqueue,
      PickStore.enqueue_mDeque, enqueued, List.filterMap_cons, List.filterMap_nil]
    apply (hinsert.append_right _).trans
    rw [List.append_assoc]
    apply (List.perm_append_comm.append_left _).trans
    rw [← List.append_assoc]
    exact (cleanDequeAt_perm s h now).append_right _
  · rw [next_mDeque_of_not_enqueue sorting s call hne]
    cases call with
    | enqueue r pick now => exact absurd rfl (hne r pick now)
    | _ => exact List.Perm.refl _

/-- Two accounts, one after the other. -/
theorem perm_chain {α : Type*} {old mid new gone₁ gone₂ given₁ given₂ : List α}
    (h₁ : (mid ++ gone₁).Perm (old ++ given₁)) (h₂ : (new ++ gone₂).Perm (mid ++ given₂)) :
    (new ++ (gone₁ ++ gone₂)).Perm (old ++ (given₁ ++ given₂)) := by
  classical
  apply List.perm_iff_count.mpr
  intro e
  have hcount₁ := h₁.count_eq e
  have hcount₂ := h₂.count_eq e
  simp only [List.count_append] at hcount₁ hcount₂ ⊢
  omega

/-- A run: every entry given to the store is stored or was taken away by one cleaning. -/
theorem retained (sorting : Sorting Int64 Pick) (s : PickStore Pick) (h : Ordered s.mDeque)
    (calls : List (Call Pick)) :
    (((pickStore sorting).final s calls).mDeque ++
      (cleanings sorting s calls).flatMap Cleaning.removed).Perm (s.mDeque ++ enqueued calls) := by
  induction calls generalizing s with
  | nil => exact List.Perm.refl _
  | cons call calls ih =>
    have hstep := retained_step sorting s h call
    have hrest := ih ((pickStore sorting).next s call) (next_ordered sorting s call h)
    have hclean : cleanings sorting s (call :: calls) = cleanings sorting s [call] ++
        cleanings sorting ((pickStore sorting).next s call) calls := by simp [cleanings]
    have henq : enqueued (call :: calls) = enqueued [call] ++ enqueued calls :=
      List.filterMap_append (l := [call])
    rw [Machine.final_cons, hclean, henq, List.flatMap_append]
    exact perm_chain hstep hrest

/-- All cleanings of a run, the one of the constructor first. -/
def allCleanings (sorting : Sorting Int64 Pick) (start : Construction Pick)
    (calls : List (Call Pick)) : List (Cleaning Pick) :=
  start.cleanings sorting ++ cleanings sorting (start.build sorting) calls

theorem all_retained (sorting : Sorting Int64 Pick) (start : Construction Pick)
    (calls : List (Call Pick)) :
    (((pickStore sorting).final (start.build sorting) calls).mDeque ++
      (allCleanings sorting start calls).flatMap Cleaning.removed).Perm
        (start.picks ++ enqueued calls) := by
  have hbuild := build_perm sorting start
  have hrun := retained sorting (start.build sorting) (build_ordered start) calls
  rw [← List.nil_append start.picks] at hbuild
  rw [allCleanings, List.flatMap_append]
  exact perm_chain hbuild hrun

/-- After every run the deque is sorted, and together with what the cleanings took away it is
what the store was given; a cleaning with at least half the capacity stored leaves nothing below
its cutoff. -/
theorem minimum_retention (sorting : Sorting Int64 Pick) (start : Construction Pick)
    (calls : List (Call Pick)) :
    let s := (pickStore sorting).final (start.build sorting) calls
    Ordered s.mDeque ∧
      (s.mDeque ++ (allCleanings sorting start calls).flatMap Cleaning.removed).Perm
        (start.picks ++ enqueued calls) ∧
      (∀ e ∈ start.picks ++ enqueued calls, e ∉ s.mDeque →
        ∃ c ∈ allCleanings sorting start calls,
          c.halfQueueCapacity ≤ c.stored.length ∧ e.1 < c.oldestPickToKeep) ∧
      ∀ r pick now, s.mMaxQueueCapacity / 2 ≤ s.mDeque.length →
        ∃ kept, (s.enqueue sorting r pick now).mDeque.Perm (kept ++ [(r, pick)]) ∧
          ∀ e ∈ kept, now - s.mMaxHistory ≤ e.1 := by
  intro s
  have hord : Ordered s.mDeque := Reachable.ordered ⟨start, calls, rfl⟩
  have hperm : (s.mDeque ++ (allCleanings sorting start calls).flatMap Cleaning.removed).Perm
      (start.picks ++ enqueued calls) := all_retained sorting start calls
  refine ⟨hord, hperm, ?_, ?_⟩
  · intro e he habsent
    have hgone := (List.mem_append.mp (hperm.mem_iff.mpr he)).resolve_left habsent
    obtain ⟨c, hc, hremoved⟩ := List.mem_flatMap.mp hgone
    exact ⟨c, hc, by simpa using (List.mem_filter.mp hremoved).2⟩
  · intro r pick now hhalf
    refine ⟨(s.cleanDequeAt now).mDeque, PickStore.insertPick_perm sorting _ (r, pick), ?_⟩
    intro e he
    exact ((PickStore.mem_cleanDeque_iff s hord _ e).mp he).2 hhalf

end PickBroker
