import Mathlib.Data.List.Induction
import PickBroker.Broker.Following
import PickBroker.Store.Feed

namespace PickBroker

open Framework

/-- The client of the writer stays, and gRPC reports a write done that was started, and once. -/
def Stays {Bytes : Type*} (i : ℕ) (F : Followed Bytes) : BrokerEvent → Prop
  | .reactor j (.onWriteDone _ _ _) => j = i → 1 ≤ F.stream.outstanding
  | .reactor j .onCancel | .reactor j .onDone => j ≠ i
  | _ => True

instance {Bytes : Type*} (i : ℕ) (F : Followed Bytes) :
    (event : BrokerEvent) → Decidable (Stays i F event)
  | .reactor j (.onWriteDone _ _ _) => inferInstanceAs (Decidable (j = i → 1 ≤ F.stream.outstanding))
  | .reactor j .onCancel | .reactor j .onDone => inferInstanceAs (Decidable (j ≠ i))
  | .reactor _ (.proceed _) | .addPickCallback _ _ | .callbackReturns _ | .processPick _
  | .cleanDatabase _ _ | .stop _ | .streamSince _ _ _ => .isTrue trivial

/-- Some cleaning of the run may have evicted the entry. -/
def EvictedIn (tr : List Action) (e : Int64 × V1.Pick) : Prop :=
  ∃ cutoff, .cleanedBefore cutoff ∈ tr ∧ e.1 < cutoff

theorem EvictedIn.append {tr : List Action} {e : Int64 × V1.Pick} (h : EvictedIn tr e)
    (actions : List Action) : EvictedIn (tr ++ actions) e := by
  obtain ⟨cutoff, hmem, hlt⟩ := h
  exact ⟨cutoff, List.mem_append_left _ hmem, hlt⟩

@[simp] theorem fetched_nil {Pick : Type*} : fetched ([] : List (WriterAction Pick)) = [] := rfl

/-- A step of a writer past its subscription reads a batch from the store, or leaves the store and
what it has fetched alone. -/
theorem writer_step_store {Pick : Type*} {shared : Shared Pick} {w : AsynchronousWriter Pick}
    {event : WriterEvent} (hpc : w.pc = .fetchAdd ∨ w.pc.admitting = false)
    (hstay : event.disconnects = false) :
    ((w.step shared event).1.mPickStore = shared.mPickStore ∧
      fetched (w.step shared event).2.2 = []) ∨
    ((w.step shared event).1.mPickStore = shared.mPickStore.markRead w.mContextAddress
        (shared.mPickStore.batch w.mContextAddress MAXIMUM_QUEUE_SIZE) ∧
      fetched (w.step shared event).2.2 =
        (shared.mPickStore.batch w.mContextAddress MAXIMUM_QUEUE_SIZE).map Prod.snd) := by
  cases event with
  | proceed readings =>
    cases hw : w.pc with
    | checkLimit | authenticate | trySubscribe => simp [hw, Pc.admitting] at hpc
    | fetchAdd | idle | deleted =>
      left
      simp [AsynchronousWriter.step, AsynchronousWriter.proceed, hw, fetched, WriterAction.answer]
    | nextWrite =>
      simp only [AsynchronousWriter.step, AsynchronousWriter.proceed, hw,
        AsynchronousWriter.nextWrite]
      split
      · split
        · left
          split <;> exact ⟨rfl, rfl⟩
        · right
          rw [PickStore.getPicks_eq _ _ (by decide)]
          exact ⟨rfl, by simp [fetched, WriterAction.answer]⟩
      · left
        exact ⟨rfl, rfl⟩
  | onWriteDone ok keepRunning cancelled =>
    left
    simp only [AsynchronousWriter.step, AsynchronousWriter.onWriteDone]
    split
    · exact ⟨rfl, rfl⟩
    · split <;> exact ⟨rfl, rfl⟩
  | onCancel | onDone => cases hstay

/-- Between its subscription and its count a writer has done nothing yet. -/
structure Constructing (S : WriterStream V1.Pick) : Prop where
  pc : S.run.writer.pc = .fetchAdd
  queue : S.run.writer.mPicksQueue = []
  outstanding : S.outstanding = 0
  trace : S.run.trace = [.subscribe]

theorem Constructing.next_eq {S : WriterStream V1.Pick} (h : Constructing S) (readings : Readings) :
    writerStream.next S (.writer (.proceed readings)) =
      { run :=
          { shared := { S.run.shared with mSubscriberCount := S.run.shared.mSubscriberCount + 1 }
            writer := { S.run.writer with
              mRegistered := true
              mWriteInProgress := false
              pc := .nextWrite }
            trace := [.subscribe, .fetchAdd] }
        outstanding := 0 } := by
  obtain ⟨hpc, hqueue, hout, htrace⟩ := h
  simp [writerStream, writerRun, Machine.next, AsynchronousWriter.step,
    AsynchronousWriter.proceed, hpc, hout, htrace, RunEvent.isWriteDone,
    WriterAction.isStartWrite]

theorem Constructing.next {S : WriterStream V1.Pick} (h : Constructing S) (readings : Readings) :
    (writerStream.next S (.writer (.proceed readings))).Proper := by
  have hnone : ∀ action ∈ [.subscribe, (.fetchAdd : WriterAction V1.Pick)],
      action.isFinish = false := by
    simp [WriterAction.isFinish]
  rw [h.next_eq readings]
  refine ⟨rfl, by simp, fun _ => ⟨rfl, rfl⟩, by simp, fun _ => hnone, List.prefix_refl _, ?_,
    endsOnce_concat (l := [.subscribe]) (by simp [WriterAction.isFinish]) .fetchAdd⟩
  intro _
  simp [h.queue, written, fetched, WriterAction.written?, WriterAction.answer]

/-- What the store holds for a subscriber, and what it has been handed, follow what it is owed. -/
structure Fed (entered : List (Int64 × V1.Pick)) (first : Subscription Int64 V1.Pick)
    (store : PickStore V1.Pick) (a : UInt64) (handed : List V1.Pick) (tr : List Action)
    (feed : Feed Int64 V1.Pick) : Prop where
  feeds : Feeds store a (entered ++ enqueuedPicks tr) feed
  kept : feed.Kept (EvictedIn tr)
  handed : feed.handed.map Prod.snd = handed
  owed : feed.owed = first.pending ++ (enqueuedPicks tr).filter fun e => Entitled first.start e.1
  start : feed.sub.start = first.start

/-- A subscriber served by a running broker. -/
structure Served {Bytes : Type*} (i : ℕ) (F : Followed Bytes) : Prop where
  inStep : InStep i F
  apart : Apart F.broker.mSubscribeService.object
  live : F.stream.run.writer.pc ≠ .deleted
  streams : Constructing F.stream ∨ F.stream.Proper

/-- The store, and what the followed writer has fetched, follow what the writer is owed. -/
def FedAt {Bytes : Type*} (entered : List (Int64 × V1.Pick)) (first : Subscription Int64 V1.Pick)
    (F : Followed Bytes) (tr : List Action) (feed : Feed Int64 V1.Pick) : Prop :=
  Fed entered first F.broker.mPickStore F.stream.run.writer.mContextAddress
    (fetched F.stream.run.trace) tr feed

/-- A writer whose client stays is not deleted. -/
theorem writer_step_live {Pick : Type*} {shared : Shared Pick} {w : AsynchronousWriter Pick}
    {event : WriterEvent} (hlive : w.pc ≠ .deleted) (hstay : event.disconnects = false) :
    (w.step shared event).2.1.pc ≠ .deleted := by
  cases event with
  | proceed readings =>
    simp only [AsynchronousWriter.step, AsynchronousWriter.proceed, AsynchronousWriter.nextWrite]
    repeat' split
    all_goals simp_all
  | onWriteDone ok keepRunning cancelled =>
    simp only [AsynchronousWriter.step, AsynchronousWriter.onWriteDone]
    repeat' split
    all_goals simp_all
  | onCancel | onDone => cases hstay

theorem Stays.disconnects {Bytes : Type*} {i : ℕ} {F : Followed Bytes} {e : WriterEvent}
    (h : Stays i F (.reactor i e)) : e.disconnects = false := by
  cases e with
  | proceed readings | onWriteDone ok keepRunning cancelled => rfl
  | onCancel | onDone => exact absurd (h rfl) id

section Serving

variable {Bytes : Type*} [DecidableEq Bytes] {codec : Codec Bytes}
  {sorting : Sorting Int64 V1.Pick} {i : ℕ} {entered : List (Int64 × V1.Pick)}
  {first : Subscription Int64 V1.Pick} {F : Followed Bytes} {tr : List Action}

/-- The stream of a writer whose client stays remains proper, and the writer alive. -/
theorem Served.next_stream (h : Served i F) {event : BrokerEvent}
    (hok : BrokerPromised F.broker event) (hstay : Stays i F event) :
    let F' := (followed codec sorting i).next F event
    F'.stream.run.writer.pc ≠ .deleted ∧ (Constructing F'.stream ∨ F'.stream.Proper) := by
  intro F'
  have hothers : ∀ shared, event.seenBy i F.broker F'.broker = .others shared →
      F'.stream.run.writer.pc ≠ .deleted ∧ (Constructing F'.stream ∨ F'.stream.Proper) := by
    intro shared hseen
    have hstream : F'.stream = writerStream.next F.stream (.others shared) := by
      rw [← hseen]
      rfl
    rw [hstream]
    refine ⟨?_, h.streams.imp ?_ ?_⟩
    · rw [next_others]
      exact h.live
    · intro hc
      rw [next_others]
      exact ⟨hc.pc, hc.queue, hc.outstanding, hc.trace⟩
    · intro hp
      exact hp.next (by simp [WriteAnswered, RunEvent.isWriteDone])
  cases event with
  | reactor j e =>
    by_cases hmine : j = i ∧ F.broker.mSubscribeService.isReset = false
    · obtain ⟨rfl, hthere⟩ := hmine
      have hstream : F'.stream = writerStream.next F.stream (.writer e) := by
        have hseen : (BrokerEvent.reactor j e).seenBy j F.broker F'.broker = .writer e := by
          simp [BrokerEvent.seenBy, hthere]
        rw [← hseen]
        rfl
      obtain ⟨-, R, hi, hwriter⟩ := h.inStep
      rw [hstream]
      refine ⟨writer_step_live h.live hstay.disconnects, Or.inr ?_⟩
      rcases h.streams with hc | hp
      · cases e with
        | proceed readings => exact hc.next readings
        | _ =>
          have hadmitted := (hok rfl R hi).1
          rw [← hwriter, hc.pc] at hadmitted
          cases hadmitted
      · apply hp.next
        intro hdone
        cases e with
        | onWriteDone ok keepRunning cancelled => exact hstay rfl
        | _ => cases hdone
    · exact hothers F'.broker.mSubscribeService.object.shared (by simp [BrokerEvent.seenBy, hmine])
  | _ => exact hothers F'.broker.mSubscribeService.object.shared rfl

/-- A writer keeps its address. -/
theorem next_address (F : Followed Bytes) (event : BrokerEvent) :
    ((followed codec sorting i).next F event).stream.run.writer.mContextAddress =
      F.stream.run.writer.mContextAddress := by
  have hstream : ((followed codec sorting i).next F event).stream = writerStream.next F.stream
      (event.seenBy i F.broker ((broker codec sorting).next F.broker event)) := rfl
  rw [hstream]
  cases event.seenBy i F.broker ((broker codec sorting).next F.broker event) with
  | writer e => exact congrArg Connection.contextAddress (writer_step_connection e)
  | others shared => rw [next_others]

/-- Nothing of the subscriber's is touched. -/
theorem Fed.same {store store' : PickStore V1.Pick} {a : UInt64} {handed : List V1.Pick}
    {feed : Feed Int64 V1.Pick} (h : Fed entered first store a handed tr feed)
    (hdeque : store'.mDeque = store.mDeque)
    (hcursor : store'.mCursorMap[a]? = store.mCursorMap[a]?) {actions : List Action}
    (hnone : enqueuedPicks actions = []) :
    Fed entered first store' a handed (tr ++ actions) feed := by
  have hlist : enqueuedPicks (tr ++ actions) = enqueuedPicks tr := by
    simp only [lists_append, hnone, List.append_nil]
  refine ⟨?_, h.kept.mono fun e he => he.append actions, h.handed, ?_, h.start⟩
  · rw [hlist]
    exact h.feeds.other hdeque hcursor
  · rw [hlist]
    exact h.owed

theorem Fed.read {store : PickStore V1.Pick} {a : UInt64} {handed : List V1.Pick}
    {feed : Feed Int64 V1.Pick} (h : Fed entered first store a handed tr feed)
    (hinc : Increasing (entered ++ enqueuedPicks tr)) {actions : List Action}
    (hnone : enqueuedPicks actions = []) :
    Fed entered first (store.markRead a (store.batch a MAXIMUM_QUEUE_SIZE)) a
      (handed ++ (store.batch a MAXIMUM_QUEUE_SIZE).map Prod.snd) (tr ++ actions)
      (feed.fetch MAXIMUM_QUEUE_SIZE.toNat) := by
  have hlist : enqueuedPicks (tr ++ actions) = enqueuedPicks tr := by
    simp only [lists_append, hnone, List.append_nil]
  obtain ⟨hbatch, hfeeds⟩ := h.feeds.getPicks hinc (n := MAXIMUM_QUEUE_SIZE) (by decide)
  refine ⟨?_, (h.kept.fetch _).mono fun e he => he.append actions, ?_, ?_, h.start⟩
  · rw [hlist]
    exact hfeeds
  · rw [Feed.fetch, List.map_append, h.handed, hbatch]
  · rw [hlist]
    exact h.owed

theorem Fed.evict {store : PickStore V1.Pick} {a : UInt64} {handed : List V1.Pick}
    {feed : Feed Int64 V1.Pick} (h : Fed entered first store a handed tr feed)
    (hinc : Increasing (entered ++ enqueuedPicks tr)) (now : Int64) {action : Action}
    (hnone : enqueuedPicks [action] = []) :
    Fed entered first (store.cleanDequeAt now) a handed
      (tr ++ [.cleanedBefore (now - store.mMaxHistory), action])
      (feed.evict (store.gone now)) := by
  have hlist : enqueuedPicks (tr ++ [.cleanedBefore (now - store.mMaxHistory), action]) =
      enqueuedPicks tr := by
    have hpair : enqueuedPicks [.cleanedBefore (now - store.mMaxHistory), action] = [] := hnone
    simp only [lists_append, hpair, List.append_nil]
  refine ⟨?_, ?_, h.handed, ?_, h.start⟩
  · rw [hlist]
    exact h.feeds.clean hinc now
  · apply (h.kept.mono fun e he => he.append _).evict
    intro e he
    refine ⟨now - store.mMaxHistory, by simp, ?_⟩
    have hgone : store.evicts (now - store.mMaxHistory) e = true := he
    simp only [PickStore.evicts, decide_eq_true_eq] at hgone
    exact hgone.2
  · rw [hlist]
    exact h.owed

theorem Fed.enqueue {store : PickStore V1.Pick} {a : UInt64} {handed : List V1.Pick}
    {feed : Feed Int64 V1.Pick} (h : Fed entered first store a handed tr feed)
    (sorting : Sorting Int64 V1.Pick) {receivedTime : Int64} {pick : V1.Pick} (now : Int64)
    (hinc : Increasing (entered ++ enqueuedPicks tr ++ [(receivedTime, pick)])) :
    Fed entered first (store.enqueue sorting receivedTime pick now) a handed
      (tr ++ [.cleanedBefore (now - store.mMaxHistory), .enqueued receivedTime pick])
      ((feed.evict (store.gone now)).publish (receivedTime, pick)) := by
  have hlist : enqueuedPicks
      (tr ++ [.cleanedBefore (now - store.mMaxHistory), .enqueued receivedTime pick]) =
      enqueuedPicks tr ++ [(receivedTime, pick)] := by
    simp only [lists_append]
    rfl
  refine ⟨?_, ?_, ?_, ?_, ?_⟩
  · rw [hlist, ← List.append_assoc]
    exact h.feeds.enqueue sorting hinc now
  · apply Feed.Kept.publish
    apply (h.kept.mono fun e he => he.append _).evict
    intro e he
    refine ⟨now - store.mMaxHistory, by simp, ?_⟩
    have hgone : store.evicts (now - store.mMaxHistory) e = true := he
    simp only [PickStore.evicts, decide_eq_true_eq] at hgone
    exact hgone.2
  · rw [Feed.publish_handed]
    exact h.handed
  · rw [Feed.publish_owed, hlist, List.filter_append, ← List.append_assoc, Feed.evict_owed,
      Feed.evict_start, h.owed, h.start]
  · rw [Feed.publish_start]
    exact h.start

theorem Served.next (h : Served i F) (event : BrokerEvent)
    (hok : BrokerPromised F.broker event) (hstay : Stays i F event) :
    Served i ((followed codec sorting i).next F event) := by
  obtain ⟨hlive, hstreams⟩ : ((followed codec sorting i).next F event).stream.run.writer.pc ≠
        .deleted ∧
      (Constructing ((followed codec sorting i).next F event).stream ∨
        ((followed codec sorting i).next F event).stream.Proper) := h.next_stream hok hstay
  exact ⟨(h.inStep.next codec sorting i event).1,
    h.apart.serviceMove hok (broker_serviceMove sorting F.broker codec event), hlive, hstreams⟩

/-- A run in which gRPC keeps its promises and the client stays. -/
theorem Served.run (h : Served i F) {events : List BrokerEvent}
    (hok : (followed codec sorting i).Meets (fun F event => BrokerPromised F.broker event ∧
      Stays i F event) F events) : Served i ((followed codec sorting i).final F events) :=
  (followed codec sorting i).invariant (fun _ event h hok => h.next event hok.1 hok.2) h hok

/-- One step of the broker, whoever takes it: what has been handed out stays so. -/
theorem FedAt.next {feed : Feed Int64 V1.Pick} (hfed : FedAt entered first F tr feed)
    (h : Served i F) (event : BrokerEvent) (hok : BrokerPromised F.broker event)
    (hstay : Stays i F event)
    (hinc : Increasing
      (entered ++ enqueuedPicks (tr ++ (followed codec sorting i).answer F event))) :
    ∃ feed', FedAt entered first ((followed codec sorting i).next F event)
        (tr ++ (followed codec sorting i).answer F event) feed' ∧
      feed.handed <+: feed'.handed := by
  rw [FedAt] at hfed
  have hmove := broker_serviceMove sorting F.broker codec event
  have hinc' : Increasing (entered ++ enqueuedPicks tr) := by
    simp only [lists_append, ← List.append_assoc] at hinc
    exact hinc.front
  simp only [FedAt]
  rw [next_address, (h.inStep.next codec sorting i event).2, fetched_append]
  obtain ⟨-, R, hi, hwriter⟩ := h.inStep
  have hanswer : (followed codec sorting i).answer F event =
      (broker codec sorting).answer F.broker event := rfl
  have hbroker : ((followed codec sorting i).next F event).broker =
      (broker codec sorting).next F.broker event := rfl
  rw [hanswer] at hinc ⊢
  rw [hbroker, Broker.mPickStore]
  generalize ((broker codec sorting).next F.broker event).mSubscribeService.object = S' at hmove ⊢
  generalize (broker codec sorting).answer F.broker event = actions at hmove hinc ⊢
  cases hmove with
  | still quiet gone =>
    obtain ⟨hactions, henqueued⟩ := not_ofService_lists quiet i
    rw [hactions, fetched_nil, List.append_nil]
    exact ⟨feed, hfed.same rfl rfl henqueued, List.prefix_refl _⟩
  | stopped byOwner =>
    refine ⟨feed, ?_, List.prefix_refl _⟩
    rw [actionsOf, List.filterMap_nil, fetched_nil, List.append_nil]
    exact hfed.same rfl rfl rfl
  | connected contextAddress request client_metadata =>
    refine ⟨feed, ?_, List.prefix_refl _⟩
    rw [actionsOf, List.filterMap_nil, fetched_nil, List.append_nil]
    exact hfed.same rfl rfl rfl
  | reacted there j e =>
    have hnone := enqueuedPicks_map_writer j
    rw [actionsOf_map_writer]
    by_cases hj : j = i
    · subst hj
      obtain ⟨hshared, -, hdone, -⟩ := react_of_getElem? hi e
      rw [if_pos rfl, hshared, hdone, ← hwriter]
      have hpc : F.stream.run.writer.pc = .fetchAdd ∨
          F.stream.run.writer.pc.admitting = false :=
        h.streams.imp Constructing.pc WriterStream.Proper.admitted
      rcases @writer_step_store V1.Pick F.broker.mSubscribeService.object.shared _ _ hpc
        hstay.disconnects with ⟨hstore, hfetched⟩ | ⟨hstore, hfetched⟩
      · rw [hstore, hfetched, List.append_nil]
        exact ⟨feed, hfed.same rfl rfl (hnone _), List.prefix_refl _⟩
      · rw [hstore, hfetched]
        exact ⟨_, hfed.read hinc' (hnone _), List.prefix_append _ _⟩
    · rw [if_neg hj, fetched_nil, List.append_nil]
      refine ⟨feed, hfed.same (react_mDeque _ j e) ?_ (hnone _), List.prefix_refl _⟩
      have hlive' := h.live
      rw [hwriter] at hlive' ⊢
      exact h.apart.react_cursor hj hok hi hlive'
  | enqueued readings receivedTime pick =>
    have hnone : fetched (actionsOf i [
        .cleanedBefore (readings.storeNow - F.broker.mPickStore.mMaxHistory),
        .enqueued receivedTime pick]) = [] := rfl
    rw [Broker.mPickStore] at hnone
    rw [hnone, List.append_nil]
    simp only [lists_append, ← List.append_assoc] at hinc
    refine ⟨_, hfed.enqueue sorting readings.storeNow hinc, ?_⟩
    simp only [Feed.publish_handed, Feed.evict_handed, List.prefix_refl]
  | cleaned readings pick e =>
    have hnone : fetched (actionsOf i [
        .cleanedBefore (readings.storeNow - F.broker.mPickStore.mMaxHistory),
        .notEnqueued pick e]) = [] := rfl
    rw [Broker.mPickStore] at hnone
    rw [hnone, List.append_nil]
    exact ⟨_, hfed.evict hinc' readings.storeNow rfl, List.prefix_refl _⟩

/-- One history covers all moments of a run. -/
theorem FedAt.run {feed : Feed Int64 V1.Pick} (hfed : FedAt entered first F [] feed)
    (h : Served i F) {events : List BrokerEvent}
    (hok : (followed codec sorting i).Meets (fun F event => BrokerPromised F.broker event ∧
      Stays i F event) F events)
    (hinc : Increasing (entered ++ enqueuedPicks ((followed codec sorting i).trace F events))) :
    ∃ feed', FedAt entered first ((followed codec sorting i).final F events)
        ((followed codec sorting i).trace F events) feed' ∧
      ∀ n, ∃ front, FedAt entered first ((followed codec sorting i).final F (events.take n))
          ((followed codec sorting i).trace F (events.take n)) front ∧
        front.handed <+: feed'.handed := by
  induction events using List.reverseRecOn with
  | nil =>
    refine ⟨feed, hfed, ?_⟩
    intro n
    rw [List.take_nil]
    exact ⟨feed, hfed, List.prefix_refl _⟩
  | append_singleton events event ih =>
    obtain ⟨hfront, hlast⟩ := (Machine.meets_append _ _ _ _ _).mp hok
    have hone : (followed codec sorting i).trace ((followed codec sorting i).final F events)
        [event] = (followed codec sorting i).answer ((followed codec sorting i).final F events)
          event := by simp
    rw [Machine.trace_append, hone] at hinc ⊢
    have hinc' : Increasing
        (entered ++ enqueuedPicks ((followed codec sorting i).trace F events)) := by
      simp only [lists_append, ← List.append_assoc] at hinc
      exact hinc.front
    obtain ⟨middle, hmiddle, hmoments⟩ := ih hfront hinc'
    obtain ⟨last, hfedLast, hbegins⟩ := hmiddle.next (h.run hfront) event hlast.1.1 hlast.1.2 hinc
    rw [Machine.final_append]
    refine ⟨last, hfedLast, ?_⟩
    intro n
    by_cases hn : n ≤ events.length
    · obtain ⟨front, hfedFront, hbefore⟩ := hmoments n
      rw [List.take_append_of_le_length hn]
      exact ⟨front, hfedFront, hbefore.trans hbegins⟩
    · have hall : (events ++ [event]).take n = events ++ [event] := by
        apply List.take_of_length_le
        rw [List.length_append, List.length_singleton]
        omega
      rw [hall, Machine.trace_append, hone, Machine.final_append]
      exact ⟨last, hfedLast, List.prefix_refl _⟩

end Serving

section Storing

variable {Bytes : Type*} [DecidableEq Bytes] (codec : Codec Bytes)
  (sorting : Sorting Int64 V1.Pick)

/-- As long as received times go up, the store holds picks that have entered it, in their order. -/
theorem stored_run {B : Broker Bytes} {entered : List (Int64 × V1.Pick)}
    (hstart : B.mPickStore.mDeque.Sublist entered) (events : List BrokerEvent)
    (hinc : Increasing (entered ++ enqueuedPicks ((broker codec sorting).trace B events))) :
    ((broker codec sorting).final B events).mPickStore.mDeque.Sublist
      (entered ++ enqueuedPicks ((broker codec sorting).trace B events)) := by
  let Inv (B : Broker Bytes) (tr : List Action) : Prop :=
    Increasing (entered ++ enqueuedPicks tr) →
      B.mPickStore.mDeque.Sublist (entered ++ enqueuedPicks tr)
  have hkeep : ∀ B event tr, Inv B tr → True →
      Inv ((broker codec sorting).next B event)
        (tr ++ (broker codec sorting).answer B event) := by
    intro B event tr h _ hinc
    simp only [lists_append, ← List.append_assoc] at hinc ⊢
    have hold := h hinc.front
    have hmove := broker_serviceMove sorting B codec event
    rw [Broker.mPickStore] at hold ⊢
    generalize ((broker codec sorting).next B event).mSubscribeService.object = S' at hmove ⊢
    generalize (broker codec sorting).answer B event = actions at hmove hinc ⊢
    cases hmove with
    | still quiet gone =>
      rw [(not_ofService_lists quiet 0).2, List.append_nil]
      exact hold
    | stopped byOwner => exact hold.trans (List.sublist_append_left _ _)
    | connected contextAddress request client_metadata =>
      exact hold.trans (List.sublist_append_left _ _)
    | reacted there i e =>
      rw [enqueuedPicks_map_writer, List.append_nil, react_mDeque]
      exact hold
    | enqueued readings receivedTime pick =>
      exact stored_enqueue sorting hold hinc.front hinc.later pick readings.storeNow
    | cleaned readings pick e =>
      exact (stored_cleanDequeAt hold readings.storeNow).trans (List.sublist_append_left _ _)
  exact Machine.invariant_trace (broker codec sorting) hkeep (fun _ => by simpa [enqueuedPicks] using hstart)
    ((broker codec sorting).meets_true B events) hinc

theorem apart_run {B : Broker Bytes} (h : Apart B.mSubscribeService.object)
    {events : List BrokerEvent} (hok : (broker codec sorting).Meets BrokerPromised B events) :
    Apart ((broker codec sorting).final B events).mSubscribeService.object := by
  have hkeep : ∀ (B : Broker Bytes) (event : BrokerEvent), Apart B.mSubscribeService.object →
      BrokerPromised B event → Apart ((broker codec sorting).next B event).mSubscribeService.object :=
    fun B event hB hok => hB.serviceMove hok (broker_serviceMove sorting B codec event)
  exact Machine.invariant (broker codec sorting) hkeep h hok

end Storing

/-- The cursor a writer's subscription puts in the map. -/
def AsynchronousWriter.firstCursor {Pick : Type*} (w : AsynchronousWriter Pick)
    (readings : Readings) : Int64 :=
  match w.connection.request.backfill_duration with
  | some duration => readings.now - duration.toNanoseconds
  | none => MAX_TIME

theorem trySubscribe_cursor {Pick : Type*} {w : AsynchronousWriter Pick} {s s' : PickStore Pick}
    {readings : Readings} (h : w.trySubscribe s readings = .ok s') :
    s' = { s with mCursorMap := s.mCursorMap.insert w.mContextAddress (w.firstCursor readings) } := by
  rw [AsynchronousWriter.trySubscribe] at h
  rw [AsynchronousWriter.firstCursor]
  cases hduration : w.connection.request.backfill_duration with
  | some duration =>
    simp only [hduration, PickStore.subscribeSince] at h
    split at h
    · cases h
    · split at h
      · cases h
      · exact (Except.ok.inj h).symm
  | none =>
    simp only [hduration] at h
    split at h
    · cases h
    · exact (Except.ok.inj h).symm

/-- What a subscriber is owed: of what is stored when it subscribes, and of what is stored later,
the picks received since its start time; without a start time, every later pick. -/
def owedTo (cursor : Int64) (stored later : List (Int64 × V1.Pick)) : List (Int64 × V1.Pick) :=
  since cursor stored ++ later.filter fun e => Entitled (startOf cursor) e.1

/-- The broker beside a writer that is about to subscribe. -/
def Followed.about {Bytes : Type*} (B : Broker Bytes) (w : AsynchronousWriter V1.Pick) :
    Followed Bytes where
  broker := B
  stream := { run := { shared := B.mSubscribeService.object.shared, writer := w } }

section Subscribing

variable {Bytes : Type*} [DecidableEq Bytes] (codec : Codec Bytes)
  (sorting : Sorting Int64 V1.Pick) {i : ℕ} {B : Broker Bytes} {R : Reactor V1.Pick}

/-- A subscription that the store takes begins a service. -/
theorem served_subscribed (hthere : B.mSubscribeService.isReset = false)
    (hapart : Apart B.mSubscribeService.object)
    (hi : B.mSubscribeService.object.reactors[i]? = some R) (hpc : R.writer.pc = .trySubscribe)
    {readings : Readings} {store : PickStore V1.Pick}
    (hsubscribes : R.writer.trySubscribe B.mPickStore readings = .ok store) :
    let cursor := R.writer.firstCursor readings
    let first : Subscription Int64 V1.Pick :=
      { start := startOf cursor, pending := since cursor B.mPickStore.mDeque }
    let F' := (followed codec sorting i).next (.about B R.writer) (.reactor i (.proceed readings))
    Served i F' ∧ Constructing F'.stream ∧
      FedAt B.mPickStore.mDeque first F' [] (Feed.opened first) := by
  intro cursor first F'
  let F : Followed Bytes := .about B R.writer
  have hstart : InStep i F := ⟨rfl, R, hi, rfl⟩
  have hstep : R.writer.step B.mSubscribeService.object.shared (.proceed readings) =
      ({ B.mSubscribeService.object.shared with mPickStore := store },
        { R.writer with pc := .fetchAdd }, [.subscribe]) := by
    have hsub : R.writer.trySubscribe B.mSubscribeService.object.shared.mPickStore readings =
      .ok store := hsubscribes
    simp [AsynchronousWriter.step, AsynchronousWriter.proceed, hpc, hsub]
  have hfresh := hapart.fresh R (List.mem_of_getElem? hi) (by rw [hpc]; rfl)
  have hstream : F'.stream =
      { run :=
          { shared := { B.mSubscribeService.object.shared with mPickStore := store }
            writer := { R.writer with pc := .fetchAdd }
            trace := [.subscribe] }
        outstanding := 0 } := by
    have hseen : F'.stream = writerStream.next F.stream (.writer (.proceed readings)) := by
      simp [F', followed, Machine.next, BrokerEvent.seenBy, F, Followed.about, hthere]
    rw [hseen]
    simp [F, Followed.about, writerStream, writerRun, Machine.next, hstep, RunEvent.isWriteDone,
      WriterAction.isStartWrite]
  obtain ⟨hinStep, -⟩ := hstart.next codec sorting i (.reactor i (.proceed readings))
  have hpromised : BrokerPromised B (.reactor i (.proceed readings)) := by
    intro hback
    cases hback
  have hstore : F'.broker.mPickStore = store := by
    have hshared := hinStep.shared
    rw [hstream] at hshared
    exact (congrArg Shared.mPickStore hshared).symm
  have hconstructing : Constructing F'.stream := by
    rw [hstream]
    exact ⟨rfl, hfresh.1, rfl, rfl⟩
  refine ⟨⟨hinStep, hapart.serviceMove hpromised (broker_serviceMove sorting B codec _), ?_,
    Or.inl hconstructing⟩, hconstructing, ?_, ?_, ?_, ?_, rfl⟩
  · rw [hconstructing.pc]
    simp
  · have hnone : enqueuedPicks ([] : List Action) = [] := rfl
    rw [hstore, hstream, trySubscribe_cursor hsubscribes, hnone, List.append_nil]
    exact Feeds.subscribe B.mPickStore R.writer.mContextAddress cursor
  · exact Feed.Kept.opened _ _
  · rw [hstream]
    rfl
  · simp [enqueuedPicks, Feed.opened]

end Subscribing

/-- The store is built from picks that were loaded, in their order. -/
theorem new_stored {Bytes : Type*} {codec : Codec Bytes} {sorting : Sorting Int64 V1.Pick}
    {orderBy : Sorting Int64 Bytes} {options : BrokerOptions} {database : Database Bytes}
    {stmt : LoadStatement} {now : Int64} {isSecured : Bool} {B : Broker Bytes}
    {loadedPicks : List (Int64 × V1.Pick)}
    (hnew : Broker.new codec sorting orderBy options (some database) stmt now isSecured = .ok B)
    (hload : database.load codec orderBy stmt = .ok loadedPicks) :
    Apart B.mSubscribeService.object ∧
      B.mPickStore.mDeque.Sublist (sorting.sort loadedPicks) := by
  obtain ⟨serviceOptions, loaded, -, -, -, hloaded, rfl⟩ := new_ok hnew
  rw [hload] at hloaded
  cases hloaded
  exact ⟨started_apart sorting _ _ _, PickStore.cleanDeque_sublist _ _⟩

theorem stream_trace_run {Bytes : Type*} [DecidableEq Bytes] (codec : Codec Bytes)
    (sorting : Sorting Int64 V1.Pick) {i : ℕ} {F : Followed Bytes} (h : InStep i F)
    (events : List BrokerEvent) :
    ((followed codec sorting i).final F events).stream.run.trace =
      F.stream.run.trace ++ actionsOf i ((followed codec sorting i).trace F events) := by
  induction events generalizing F with
  | nil => simp [actionsOf]
  | cons event events ih =>
    obtain ⟨hnext, htrace⟩ := h.next codec sorting i event
    rw [Machine.final_cons, ih hnext, htrace, Machine.trace_cons, actionsOf_append,
      List.append_assoc]

/-- A run of the broker in which writer `i` subscribes and its client then stays. -/
structure SubscriberRun {Bytes : Type*} [DecidableEq Bytes] (codec : Codec Bytes)
    (sorting : Sorting Int64 V1.Pick) (B₀ : Broker Bytes) (i : ℕ) where
  before : List BrokerEvent
  readings : Readings
  after : List BrokerEvent
  reactor : Reactor V1.Pick
  store : PickStore V1.Pick
  promised : (broker codec sorting).Meets BrokerPromised B₀ before
  there : ((broker codec sorting).final B₀ before).mSubscribeService.isReset = false
  place : ((broker codec sorting).final B₀ before).mSubscribeService.object.reactors[i]? =
    some reactor
  pc : reactor.writer.pc = .trySubscribe
  subscribes : reactor.writer.trySubscribe ((broker codec sorting).final B₀ before).mPickStore
    readings = .ok store
  stays : (followed codec sorting i).Meets
    (fun F event => BrokerPromised F.broker event ∧ Stays i F event)
    ((followed codec sorting i).next (.about ((broker codec sorting).final B₀ before) reactor.writer)
      (.reactor i (.proceed readings))) after

namespace SubscriberRun

variable {Bytes : Type*} [DecidableEq Bytes] {codec : Codec Bytes}
  {sorting : Sorting Int64 V1.Pick} {B₀ : Broker Bytes} {i : ℕ}
  (r : SubscriberRun codec sorting B₀ i)

def events : List BrokerEvent := r.before ++ .reactor i (.proceed r.readings) :: r.after

/-- The broker the writer subscribes at. -/
def atSubscription : Broker Bytes := (broker codec sorting).final B₀ r.before

/-- The writer has subscribed. -/
def subscribed : Followed Bytes :=
  (followed codec sorting i).next (.about r.atSubscription r.reactor.writer)
    (.reactor i (.proceed r.readings))

def final : Followed Bytes := (followed codec sorting i).final r.subscribed r.after

/-- What has been done since. -/
def trace : List Action := (broker codec sorting).trace r.subscribed.broker r.after

def owed : List (Int64 × V1.Pick) :=
  owedTo (r.reactor.writer.firstCursor r.readings) r.atSubscription.mPickStore.mDeque
    (enqueuedPicks r.trace)

/-- What the store still holds for the subscriber. -/
def unread : List (Int64 × V1.Pick) :=
  r.final.broker.mPickStore.unread r.reactor.writer.mContextAddress

/-- What the writer has fetched and not begun to write. -/
def unwritten : List V1.Pick :=
  r.final.stream.run.writer.mPicksQueue.drop r.final.stream.outstanding

theorem final_address :
    r.final.stream.run.writer.mContextAddress = r.reactor.writer.mContextAddress := by
  have hkeep : ∀ F event,
      F.stream.run.writer.mContextAddress = r.reactor.writer.mContextAddress →
      ((followed codec sorting i).next F event).stream.run.writer.mContextAddress =
        r.reactor.writer.mContextAddress :=
    fun F event h => (next_address F event).trans h
  exact Machine.invariant_of_step _ hkeep r.after (hkeep (.about r.atSubscription _) _ rfl)

/-- The picks written to the subscriber since it subscribed. -/
def written : List V1.Pick := PickBroker.written (actionsOf i r.trace)

/-- The run up to a moment after the subscription. -/
def cut (n : ℕ) : SubscriberRun codec sorting B₀ i :=
  { r with
    after := r.after.take n
    stays := by
      have h := r.stays
      rw [← List.take_append_drop n r.after] at h
      exact ((Machine.meets_append _ _ _ _ _).mp h).1 }

/-- What the subscriber has been handed accounts for what it is owed, but for what waits unread in
the store, and for what it is written. As long as no Finish has come, it is what has been fetched
for it. -/
structure Delivered (handed : List (Int64 × V1.Pick)) : Prop where
  inOrder : (handed ++ r.unread).Sublist r.owed
  complete : ∀ e ∈ r.owed, e ∈ handed ++ r.unread ∨ EvictedIn r.trace e
  written : r.written <+: handed.map Prod.snd
  books : (∀ action ∈ actionsOf i r.trace, action.isFinish = false) →
    handed.map Prod.snd = r.written ++ r.unwritten

variable (hapart : Apart B₀.mSubscribeService.object)

include hapart

/-- The subscriber is served to the end of the run. -/
theorem served : Served i r.final ∧ r.final.stream.run.trace = .subscribe :: actionsOf i r.trace := by
  obtain ⟨hserved, hconstructing, -⟩ := served_subscribed codec sorting r.there
    (apart_run codec sorting hapart r.promised) r.place r.pc r.subscribes
  have htrace : (followed codec sorting i).trace r.subscribed r.after = r.trace :=
    (followed_broker codec sorting i r.subscribed r.after).2
  refine ⟨hserved.run r.stays, ?_⟩
  rw [← htrace]
  exact (stream_trace_run codec sorting hserved.inStep r.after).trans
    (congrArg (· ++ _) hconstructing.trace)

theorem delivered_of_fed {feed : Feed Int64 V1.Pick}
    (hfed : FedAt r.atSubscription.mPickStore.mDeque
      { start := startOf (r.reactor.writer.firstCursor r.readings)
        pending := since (r.reactor.writer.firstCursor r.readings) r.atSubscription.mPickStore.mDeque }
      r.final r.trace feed) : r.Delivered feed.handed := by
  obtain ⟨hserved, hstream⟩ := r.served hapart
  have hwritten : PickBroker.written r.final.stream.run.trace = r.written := by
    rw [hstream]
    rfl
  have hunread : r.unread = feed.sub.pending := by
    rw [SubscriberRun.unread, ← r.final_address]
    exact hfed.feeds.unread
  have howed : feed.owed = r.owed := hfed.owed
  refine ⟨?_, ?_, ?_, ?_⟩
  · rw [hunread, ← howed]
    exact hfed.kept.inOrder
  · rw [hunread, ← howed]
    exact hfed.kept.complete
  · rw [hfed.handed, ← hwritten]
    rcases hserved.streams with hc | hp
    · rw [hc.trace]
      exact List.nil_prefix
    · exact hp.inOrder
  · intro hnone
    rw [hfed.handed, ← hwritten]
    rcases hserved.streams with hc | hp
    · have hqueue : r.unwritten = [] := by
        rw [SubscriberRun.unwritten, show r.final.stream.run.writer.mPicksQueue = [] from hc.queue,
          List.drop_nil]
      rw [hqueue, hc.trace, List.append_nil]
      rfl
    · apply hp.books
      intro action haction
      rw [hstream] at haction
      rcases List.mem_cons.mp haction with rfl | haction
      · rfl
      · exact hnone action haction

/-- While received times go up, one history of what the subscriber has been handed accounts for
every moment of the run. -/
theorem delivered (hinc : Increasing (r.atSubscription.mPickStore.mDeque ++ enqueuedPicks r.trace)) :
    ∃ handed, r.Delivered handed ∧
      ∀ n, ∃ front, (r.cut n).Delivered front ∧ front <+: handed := by
  obtain ⟨hserved, -, hfed⟩ := served_subscribed codec sorting r.there
    (apart_run codec sorting hapart r.promised) r.place r.pc r.subscribes
  have htrace (n : ℕ) : (followed codec sorting i).trace r.subscribed (r.after.take n) =
      (r.cut n).trace := (followed_broker codec sorting i r.subscribed _).2
  have hall : (followed codec sorting i).trace r.subscribed r.after = r.trace :=
    (followed_broker codec sorting i r.subscribed _).2
  rw [← hall] at hinc
  obtain ⟨feed, hlast, hmoments⟩ := hfed.run hserved r.stays hinc
  refine ⟨feed.handed, r.delivered_of_fed hapart (hall ▸ hlast), ?_⟩
  intro n
  obtain ⟨front, hfront, hbegins⟩ := hmoments n
  exact ⟨front.handed, (r.cut n).delivered_of_fed hapart (htrace n ▸ hfront), hbegins⟩

omit hapart

/-- What was stored at the subscription is part of what had entered till then, so received times go
up from there, too. -/
theorem increasing {loadedPicks : List (Int64 × V1.Pick)}
    (hstored : B₀.mPickStore.mDeque.Sublist (sorting.sort loadedPicks))
    (htimes : Increasing
      (loadedPicks ++ enqueuedPicks ((broker codec sorting).trace B₀ r.events))) :
    Increasing (r.atSubscription.mPickStore.mDeque ++ enqueuedPicks r.trace) := by
  have hsplit : enqueuedPicks ((broker codec sorting).trace B₀ r.events) =
      enqueuedPicks ((broker codec sorting).trace B₀ r.before) ++
        (enqueuedPicks ((broker codec sorting).answer r.atSubscription
          (.reactor i (.proceed r.readings))) ++ enqueuedPicks r.trace) := by
    rw [SubscriberRun.events, Machine.trace_append, Machine.trace_cons]
    simp only [lists_append]
    rfl
  rw [hsplit, ← List.append_assoc] at htimes
  rw [htimes.front.front.sort_eq] at hstored
  have hB := stored_run codec sorting hstored r.before htimes.front
  exact htimes.sublist (hB.append (List.sublist_append_right _ _))

end SubscriberRun

/-- From the database and the publishers to the wire, in every interleaving: while received times
go up, every pick a subscriber whose client stays is owed has been handed to it, in order and once,
or still waits unread in the store, or has been evicted before it was read; and it is written what
it has been handed, one pick after the other, which until a Finish comes is all of it up to what
still waits in its queue. -/
theorem delivered_in_order {Bytes : Type*} [DecidableEq Bytes] {codec : Codec Bytes}
    {sorting : Sorting Int64 V1.Pick} {orderBy : Sorting Int64 Bytes} {options : BrokerOptions}
    {database : Database Bytes} {stmt : LoadStatement} {now : Int64} {isSecured : Bool}
    {B₀ : Broker Bytes} {loadedPicks : List (Int64 × V1.Pick)}
    (hnew : Broker.new codec sorting orderBy options (some database) stmt now isSecured = .ok B₀)
    (hload : database.load codec orderBy stmt = .ok loadedPicks) {i : ℕ}
    (r : SubscriberRun codec sorting B₀ i)
    (htimes : Increasing
      (loadedPicks ++ enqueuedPicks ((broker codec sorting).trace B₀ r.events))) :
    ∃ handed : List (Int64 × V1.Pick), r.Delivered handed ∧
      ∀ n, ∃ front, (r.cut n).Delivered front ∧ front <+: handed := by
  obtain ⟨hapart, hstored⟩ := new_stored hnew hload
  exact r.delivered hapart (r.increasing hstored htimes)

theorem load_freshBroker :
    ({} : Database V1.Pick).load Codec.plain (Sorting.stable Int64 V1.Pick) {} = .ok [] := rfl

/-- A client without a start time subscribes, two picks come in, are stored, fetched and written. -/
def twoPicksDelivered :
    SubscriberRun Codec.plain (Sorting.stable Int64 V1.Pick) freshBroker 0 where
  before := oneClient
  readings := {}
  after := twoPicksThrough
  reactor := { writer := { connection := { contextAddress := 7 }, pc := .trySubscribe } }
  store := freshBroker.mPickStore.subscribe 7
  promised := by decide
  there := rfl
  place := rfl
  pc := rfl
  subscribes := rfl
  stays := by decide

theorem delivered_in_order_twoPicks :
    twoPicksDelivered.written = [samplePick, otherPhase] ∧
      ∃ handed : List (Int64 × V1.Pick), twoPicksDelivered.Delivered handed ∧
        ∀ n, ∃ front, (twoPicksDelivered.cut n).Delivered front ∧ front <+: handed :=
  ⟨by decide, delivered_in_order new_freshBroker load_freshBroker twoPicksDelivered
    ⟨by decide, by decide⟩⟩

end PickBroker
