import PickBroker.Broker.Refinement
import Mathlib.Data.List.Perm.Basic

namespace PickBroker

open Framework

namespace Pipeline

variable {Bytes : Type*} [DecidableEq Bytes] {codec : Codec Bytes} {capacity : ℕ}
  {P P' : Pipeline Bytes} {actions : List Action}

theorem Step.within (h : Step codec capacity P actions P')
    (hP : P.queue.length ≤ capacity) : P'.queue.length ≤ capacity := by
  cases h with
  | accept hqueue room pick =>
    simp only [hqueue, List.length_append, List.length_singleton] at hP room ⊢
    omega
  | take hand hqueue receivedTime =>
    simp only [hqueue, List.length_cons] at hP ⊢
    omega
  | _ => exact hP

/-- The queue gives up its oldest picks first. -/
theorem Step.queue (h : Step codec capacity P actions P') :
    P.queue ++ accepted actions = dequeued actions ++ P'.queue := by
  cases h with
  | idle hquiet => simp [quiet_lists hquiet]
  | accept hqueue room pick => simp [accepted, dequeued, List.filterMap_map, hqueue]
  | take hand hqueue receivedTime => simp [accepted, dequeued, hqueue]
  | _ => simp [accepted, dequeued]

/-- What has been taken is shown to the database before anything else is taken. -/
theorem Step.presented (h : Step codec capacity P actions P') :
    P.hand.unpresented ++ took actions = presented actions ++ P'.hand.unpresented := by
  cases h with
  | idle hquiet => simp [quiet_lists hquiet]
  | accept hqueue room pick => simp [took, PickBroker.presented, List.filterMap_map]
  | ret hcall => simp [took, PickBroker.presented]
  | take hand | insert hand | duplicate hand | count hand | fail hand | enqueue hand
  | throw hand => simp [took, PickBroker.presented, hand, Hand.unpresented]
  | delete time => simp [took, PickBroker.presented]

/-- What has got into the table is handed over before anything else is inserted. -/
theorem Step.handedOver (h : Step codec capacity P actions P') :
    P.hand.unenqueued ++ (inserted actions).map Prod.snd =
      handedOver actions ++ P'.hand.unenqueued := by
  cases h with
  | idle hquiet => simp [quiet_lists hquiet]
  | accept hqueue room pick => simp [inserted, PickBroker.handedOver, List.filterMap_map]
  | ret hcall => simp [inserted, PickBroker.handedOver]
  | take hand | insert hand | duplicate hand | count hand | fail hand | enqueue hand
  | throw hand => simp [inserted, PickBroker.handedOver, hand, Hand.unenqueued]
  | delete time => simp [inserted, PickBroker.handedOver]

theorem Step.calls (h : Step codec capacity P actions P') :
    (P.callbacks ++ accepted actions).Perm (returned actions ++ P'.callbacks) := by
  cases h with
  | idle hquiet => simp [quiet_lists hquiet]
  | accept hqueue room pick => simp [accepted, returned, List.filterMap_map]
  | ret hcall =>
    obtain ⟨hlt, hget⟩ := List.getElem?_eq_some_iff.mp hcall
    have herase := List.getElem_cons_eraseIdx_perm hlt
    simpa [accepted, returned, hget] using herase.symm
  | _ => simp [accepted, returned]

theorem Step.received (h : Step codec capacity P actions P') :
    P'.metrics.mPicksReceivedCounter =
      P.metrics.mPicksReceivedCounter + Int64.ofNat (returned actions).length := by
  cases h with
  | idle hquiet => simp [quiet_lists hquiet]
  | accept hqueue room pick =>
    simp [returned, List.filterMap_map, MetricsSingleton.countOverflows]
  | ret hcall => simp [returned, MetricsSingleton.incrementPicksReceivedCounter]
  | _ => simp [returned, MetricsSingleton.incrementDuplicatePicksReceivedCounter]

theorem Step.overflows (h : Step codec capacity P actions P') :
    P'.metrics.mOverflowInputPicksCounter =
      P.metrics.mOverflowInputPicksCounter + Int64.ofNat (overflowed actions).length := by
  cases h with
  | idle hquiet => simp [quiet_lists hquiet]
  | accept hqueue room pick =>
    simp [overflowed, List.filterMap_map, MetricsSingleton.countOverflows]
  | ret hcall => simp [overflowed, MetricsSingleton.incrementPicksReceivedCounter]
  | _ => simp [overflowed, MetricsSingleton.incrementDuplicatePicksReceivedCounter]

theorem Step.duplicates (h : Step codec capacity P actions P') :
    P'.metrics.mDuplicatePicksCounter + Int64.ofNat P'.hand.uncounted =
      P.metrics.mDuplicatePicksCounter + Int64.ofNat P.hand.uncounted +
        Int64.ofNat (duplicates actions).length := by
  cases h with
  | idle hquiet => simp [quiet_lists hquiet]
  | accept hqueue room pick =>
    simp [PickBroker.duplicates, List.filterMap_map, MetricsSingleton.countOverflows]
  | ret hcall => simp [PickBroker.duplicates, MetricsSingleton.incrementPicksReceivedCounter]
  | take hand | insert hand | duplicate hand | count hand | fail hand | enqueue hand
  | throw hand =>
    simp [PickBroker.duplicates, hand, Hand.uncounted,
      MetricsSingleton.incrementDuplicatePicksReceivedCounter]
  | delete time => simp [PickBroker.duplicates]

end Pipeline

/-- The books of the broker, kept along a run. -/
structure Booked {Bytes : Type*} (capacity : ℕ) (P : Pipeline Bytes) (tr : List Action) :
    Prop where
  within : P.queue.length ≤ capacity
  queue : accepted tr = dequeued tr ++ P.queue
  presented : took tr = presented tr ++ P.hand.unpresented
  handedOver : (inserted tr).map Prod.snd = handedOver tr ++ P.hand.unenqueued
  calls : (accepted tr).Perm (returned tr ++ P.callbacks)
  received : P.metrics.mPicksReceivedCounter = Int64.ofNat (returned tr).length
  overflows : P.metrics.mOverflowInputPicksCounter = Int64.ofNat (overflowed tr).length
  duplicates : P.metrics.mDuplicatePicksCounter + Int64.ofNat P.hand.uncounted =
    Int64.ofNat (duplicates tr).length

theorem Booked.step {Bytes : Type*} [DecidableEq Bytes] {codec : Codec Bytes} {capacity : ℕ}
    {P P' : Pipeline Bytes} {actions tr : List Action} (h : Booked capacity P tr)
    (hstep : Pipeline.Step codec capacity P actions P') : Booked capacity P' (tr ++ actions) where
  within := hstep.within h.within
  queue := by
    simp only [lists_append, h.queue, List.append_assoc, hstep.queue]
  presented := by
    simp only [lists_append, h.presented, List.append_assoc, hstep.presented]
  handedOver := by
    simp only [lists_append, List.map_append, h.handedOver, List.append_assoc, hstep.handedOver]
  calls := by
    simp only [lists_append, List.append_assoc]
    apply (h.calls.append_right _).trans
    rw [List.append_assoc]
    exact hstep.calls.append_left _
  received := by
    simp only [lists_append, List.length_append, Int64.ofNat_add, hstep.received, h.received]
  overflows := by
    simp only [lists_append, List.length_append, Int64.ofNat_add, hstep.overflows, h.overflows]
  duplicates := by
    simp only [lists_append, List.length_append, Int64.ofNat_add, hstep.duplicates, h.duplicates]

/-- Every pick that has been accepted is in exactly one place. -/
theorem accepted_places {Bytes : Type*} {capacity : ℕ} {P : Pipeline Bytes} {tr : List Action}
    (h : Booked capacity P tr) :
    (accepted tr).Perm (P.queue ++ P.hand.picks ++ overflowed tr ++ duplicates tr ++
      (rejected tr ++ notEnqueued tr) ++ (enqueuedPicks tr).map Prod.snd) := by
  have hhand : P.hand.picks = P.hand.unpresented ++ P.hand.unenqueued := by
    cases P.hand <;> rfl
  rw [h.queue, hhand]
  apply List.perm_iff_count.mpr
  intro pick
  have h₁ := (dequeued_perm tr).count_eq pick
  have h₂ := (presented_perm tr).count_eq pick
  have h₃ := (handedOver_perm tr).count_eq pick
  have h₄ := congrArg (List.count pick) h.presented
  have h₅ := congrArg (List.count pick) h.handedOver
  simp only [List.count_append] at h₁ h₂ h₃ h₄ h₅ ⊢
  omega

theorem booked_run {Bytes : Type*} [DecidableEq Bytes] (codec : Codec Bytes)
    (sorting : Sorting Int64 V1.Pick) (options : BrokerOptions) (database : Database Bytes)
    (subscribeService : SubscribeService V1.Pick) (events : List BrokerEvent) :
    let start := Broker.started options database subscribeService
    Booked options.mQueueCapacity.toInt.toNat ((broker codec sorting).final start events).pipeline
      ((broker codec sorting).trace start events) := by
  intro start
  have hstart : Booked options.mQueueCapacity.toInt.toNat start.pipeline [] :=
    ⟨Nat.zero_le _, rfl, rfl, rfl, List.Perm.refl _, rfl, rfl, rfl⟩
  apply pipeline_invariant_of_step codec sorting _ events hstart
  intro P actions P' tr hP hstep
  exact hP.step hstep

/-- After every run, in whatever order the threads have taken their steps: the queue is within
its capacity, its oldest picks have left it first, the database has been shown the picks in the
order they came in, each accepted pick is in one place, and the counters are right whenever no
call and no duplicate is under way. -/
theorem no_pick_lost {Bytes : Type*} [DecidableEq Bytes] (codec : Codec Bytes)
    (sorting : Sorting Int64 V1.Pick) (options : BrokerOptions) (database : Database Bytes)
    (subscribeService : SubscribeService V1.Pick) (events : List BrokerEvent) :
    let start := Broker.started options database subscribeService
    let B := (broker codec sorting).final start events
    let tr := (broker codec sorting).trace start events
    B.mInputQueue.length ≤ options.mQueueCapacity.toInt.toNat ∧
      accepted tr = dequeued tr ++ B.mInputQueue ∧
      took tr = presented tr ++ B.pickProcessor.hand.unpresented ∧
      (took tr).Sublist (accepted tr) ∧
      (accepted tr).Perm (B.mInputQueue ++ B.pickProcessor.hand.picks ++ overflowed tr ++
        duplicates tr ++ (rejected tr ++ notEnqueued tr) ++ (enqueuedPicks tr).map Prod.snd) ∧
      (B.callbacks = [] → B.pickProcessor.hand.uncounted = 0 →
        B.mMetrics.mPicksReceivedCounter = Int64.ofNat (accepted tr).length ∧
          B.mMetrics.mOverflowInputPicksCounter = Int64.ofNat (overflowed tr).length ∧
          B.mMetrics.mDuplicatePicksCounter = Int64.ofNat (duplicates tr).length) := by
  intro start B tr
  have h : Booked options.mQueueCapacity.toInt.toNat B.pipeline tr :=
    booked_run codec sorting options database subscribeService events
  have horder : (took tr).Sublist (accepted tr) := by
    rw [h.queue]
    exact (took_sublist tr).trans (List.sublist_append_left _ _)
  refine ⟨h.within, h.queue, h.presented, horder, accepted_places h, ?_⟩
  intro hcallbacks hcounted
  have hcalls := h.calls.length_eq
  have hduplicates := h.duplicates
  simp only [Broker.pipeline_callbacks, hcallbacks, List.append_nil] at hcalls
  simp only [Broker.pipeline_hand, hcounted, Broker.pipeline_metrics] at hduplicates
  refine ⟨hcalls ▸ h.received, h.overflows, ?_⟩
  simpa using hduplicates

end PickBroker
