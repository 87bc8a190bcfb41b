import PickBroker.Broker.Pipeline
import PickBroker.Database.Operations
import PickBroker.Store.Operations
import PickBroker.Subscribe.Accounting
import Mathlib.Data.List.TakeWhile

namespace PickBroker

open Framework

theorem makeRoom_eq (n : ℕ) (queue : List V1.Pick) :
    makeRoom n queue =
      (queue.take (queue.length + 1 - n), queue.drop (queue.length + 1 - n)) := by
  induction queue with
  | nil => simp [makeRoom]
  | cons pick queue ih =>
    by_cases h : n ≤ (pick :: queue).length
    · have hlen : (pick :: queue).length + 1 - n = queue.length + 1 - n + 1 := by
        simp only [List.length_cons] at h ⊢
        omega
      rw [makeRoom, if_pos h, ih, hlen]
      rfl
    · have hlen : (pick :: queue).length + 1 - n = 0 := by omega
      rw [makeRoom, if_neg h, hlen]
      rfl

theorem foldl_incrementOverflow (popped : List V1.Pick) (m : MetricsSingleton) :
    popped.foldl (fun m _ => m.incrementOverflowInputPicksCounter) m =
      m.countOverflows popped.length := by
  induction popped generalizing m with
  | nil => simp [MetricsSingleton.countOverflows]
  | cons pick popped ih =>
    rw [List.foldl_cons, ih]
    simp [MetricsSingleton.countOverflows, MetricsSingleton.incrementOverflowInputPicksCounter,
      Int64.add_assoc, Int64.add_comm 1]

theorem cleans_cleanDeque (s : PickStore V1.Pick) (cutoff : Int64) :
    Cleans cutoff s.mDeque (s.cleanDeque cutoff).mDeque := by
  refine ⟨PickStore.cleanDeque_sublist s cutoff, ?_⟩
  intro e he hlt
  unfold PickStore.cleanDeque
  dsimp only
  split
  · exact he
  · have hsplit := List.takeWhile_append_dropWhile (p := fun e => decide (e.1 < cutoff))
      (l := s.mDeque)
    rw [← hsplit] at he
    rcases List.mem_append.mp he with htake | hdrop
    · exact absurd (by simpa using List.mem_takeWhile_imp htake) hlt
    · exact hdrop

theorem getPicks_mDeque {s s' : PickStore V1.Pick} {a : UInt64} {n : ℤ} {result : List V1.Pick}
    (h : s.getPicks a n = .ok (result, s')) : s'.mDeque = s.mDeque := by
  by_cases hn : 1 ≤ n
  · rw [s.getPicks_eq a hn] at h
    cases h
    exact s.markRead_mDeque _ _
  · rw [PickStore.getPicks, if_pos (by omega)] at h
    cases h

theorem trySubscribe_mDeque {w : AsynchronousWriter V1.Pick} {s s' : PickStore V1.Pick}
    {readings : Readings} (h : w.trySubscribe s readings = .ok s') : s'.mDeque = s.mDeque := by
  obtain ⟨c, rfl⟩ := trySubscribe_ok h
  rfl

/-- A writer never touches the deque. -/
theorem writer_step_mDeque (w : AsynchronousWriter V1.Pick) (shared : Shared V1.Pick)
    (event : WriterEvent) :
    (w.step shared event).1.mPickStore.mDeque = shared.mPickStore.mDeque := by
  cases event with
  | proceed readings =>
    simp only [AsynchronousWriter.step, AsynchronousWriter.proceed]
    split
    · rfl
    · rfl
    · split
      · rename_i store hstore
        exact trySubscribe_mDeque hstore
      · rfl
    · rfl
    · unfold AsynchronousWriter.nextWrite
      split
      · split
        · split <;> rfl
        · split
          · rename_i newPicks store hpicks
            exact getPicks_mDeque hpicks
          · rfl
      · rfl
    · rfl
    · rfl
  | onWriteDone ok keepRunning cancelled =>
    simp only [AsynchronousWriter.step, AsynchronousWriter.onWriteDone]
    split
    · rfl
    · split <;> rfl
  | onCancel | onDone =>
    simp only [AsynchronousWriter.step, AsynchronousWriter.onCancel, AsynchronousWriter.onDone,
      AsynchronousWriter.disconnect]
    split <;> rfl

theorem react_mDeque (S : SubscribeService V1.Pick) (i : ℕ) (event : WriterEvent) :
    (S.react i event).1.shared.mPickStore.mDeque = S.shared.mPickStore.mDeque := by
  unfold SubscribeService.react
  split
  · rfl
  · rename_i R _
    exact writer_step_mDeque R.writer S.shared event

namespace Broker

variable {Bytes : Type*}

section Frames

variable (B : Broker Bytes)

@[simp] theorem pipeline_callbacks : B.pipeline.callbacks = B.callbacks := rfl

@[simp] theorem pipeline_queue : B.pipeline.queue = B.mInputQueue := rfl

@[simp] theorem pipeline_hand : B.pipeline.hand = B.pickProcessor.hand := rfl

@[simp] theorem pipeline_table : B.pipeline.table = B.mDatabase.object.picks := rfl

@[simp] theorem pipeline_store : B.pipeline.store = B.mPickStore.mDeque := rfl

@[simp] theorem pipeline_metrics : B.pipeline.metrics = B.mMetrics := rfl

end Frames

theorem mMaximumInputQueueSize_pos (B : Broker Bytes) : 1 ≤ B.mMaximumInputQueueSize := by
  have hpos := Int32.le_iff_toInt_le.mp B.mOptions.capacity_pos
  have hone : (1 : Int32).toInt = 1 := rfl
  rw [mMaximumInputQueueSize]
  omega

theorem pipeline_pickProcessor (B : Broker Bytes) {pc : PickProcessor}
    (h : pc.hand = B.pickProcessor.hand) :
    ({ B with pickProcessor := pc } : Broker Bytes).pipeline = B.pipeline := by
  simp only [pipeline, mPickStore, h]

section Steps

variable [DecidableEq Bytes] (codec : Codec Bytes) (sorting : Sorting Int64 V1.Pick)
  (B : Broker Bytes)

theorem addPickCallback_step (pick : V1.Pick) (now : Int64) :
    Pipeline.Step codec B.mMaximumInputQueueSize B.pipeline (B.addPickCallback pick now).2
      (B.addPickCallback pick now).1.pipeline := by
  unfold addPickCallback
  split
  · exact .idle (by simp [Action.quiet])
  · exact .idle (by simp [Action.quiet])
  · rename_i pick' _
    simp only [makeRoom_eq, foldl_incrementOverflow]
    refine .accept (List.take_append_drop _ _).symm ?_ pick'
    have hpos := B.mMaximumInputQueueSize_pos
    rw [List.length_take, pipeline_queue]
    omega

theorem callbackReturns_step (i : ℕ) :
    Pipeline.Step codec B.mMaximumInputQueueSize B.pipeline (B.callbackReturns i).2
      (B.callbackReturns i).1.pipeline := by
  unfold callbackReturns
  split
  · exact .idle (by simp)
  · rename_i pick h
    exact .ret h

/-- The processor before its database call succeeded. -/
theorem add_step {receivedTime : Int64} {pick : V1.Pick} (readings : ProcessorReadings)
    (h : B.pickProcessor = .add receivedTime pick) :
    Pipeline.Step codec B.mMaximumInputQueueSize B.pipeline
      (B.processPick codec sorting readings).2
      (B.processPick codec sorting readings).1.pipeline := by
  have hand : B.pipeline.hand = .taken receivedTime pick := by simp [h, PickProcessor.hand]
  simp only [processPick, h]
  split
  · exact .idle (by simp [Action.quiet])
  rcases B.mDatabase.object.add_cases codec receivedTime pick readings.stmt with
    ⟨proto, hproto, hnew, hadd⟩ | ⟨proto, hproto, hold, hadd⟩ | ⟨e, he, hadd⟩
  · rw [hadd]
    exact .insert hand hproto hnew
  · rw [hadd]
    exact .duplicate hand hproto hold
  · rw [hadd]
    cases e with
    | DuplicatePickException what => exact absurd rfl (he what)
    | _ => exact .fail hand _

/-- The processor at the subscribe service. -/
theorem enqueue_step {receivedTime : Int64} {pick : V1.Pick} (readings : ProcessorReadings)
    (h : B.pickProcessor = .enqueue receivedTime pick) :
    Pipeline.Step codec B.mMaximumInputQueueSize B.pipeline
      (B.processPick codec sorting readings).2
      (B.processPick codec sorting readings).1.pipeline := by
  have hand : B.pipeline.hand = .inserted receivedTime pick := by simp [h, PickProcessor.hand]
  have hclean := cleans_cleanDeque B.mPickStore (readings.storeNow - B.mPickStore.mMaxHistory)
  simp only [processPick, h]
  split
  · exact .idle (by simp [Action.quiet])
  split
  · exact .enqueue hand hclean (PickStore.insertPick_perm sorting _ _)
  · exact .throw hand hclean _

theorem processPick_step (readings : ProcessorReadings) :
    Pipeline.Step codec B.mMaximumInputQueueSize B.pipeline
      (B.processPick codec sorting readings).2
      (B.processPick codec sorting readings).1.pipeline := by
  have idle (pc : PickProcessor) (h : pc.hand = B.pickProcessor.hand) :
      Pipeline.Step codec B.mMaximumInputQueueSize B.pipeline []
        ({ B with pickProcessor := pc } : Broker Bytes).pipeline := by
    rw [B.pipeline_pickProcessor h]
    exact .idle (by simp)
  cases hpc : B.pickProcessor with
  | loop =>
    simp only [processPick, hpc]
    apply idle
    cases B.mKeepRunning <;> simp [hpc, PickProcessor.hand]
  | takePick =>
    simp only [processPick, hpc]
    split
    · apply idle
      simp [hpc, PickProcessor.hand]
    · rename_i pick queue hqueue
      exact .take (by simp [hpc, PickProcessor.hand]) hqueue readings.now
  | readDatabase receivedTime pick =>
    simp only [processPick, hpc]
    apply idle
    simp [hpc, PickProcessor.hand]
  | add receivedTime pick => exact add_step codec sorting B readings hpc
  | countDuplicate =>
    simp only [processPick, hpc]
    exact .count (by simp [hpc, PickProcessor.hand])
  | readSubscribeService receivedTime pick =>
    simp only [processPick, hpc]
    apply idle
    simp [hpc, PickProcessor.hand]
  | enqueue receivedTime pick => exact enqueue_step codec sorting B readings hpc
  | returned =>
    simp only [processPick, hpc]
    exact .idle (by simp)

theorem cleanDatabase_step (now : Int64) (stmt : Statement) :
    Pipeline.Step codec B.mMaximumInputQueueSize B.pipeline (B.cleanDatabase now stmt).2
      (B.cleanDatabase now stmt).1.pipeline := by
  cases hpc : B.databaseCleaner with
  | isOpen =>
    simp only [cleanDatabase, hpc]
    split
    · exact .idle (by simp [Action.quiet])
    · exact .idle (by simp)
  | deletePicksBefore oldestLoadTime =>
    simp only [cleanDatabase, hpc]
    split
    · exact .idle (by simp [Action.quiet])
    rcases hdelete : B.mDatabase.object.deletePicksBefore oldestLoadTime stmt with ⟨result, db⟩
    rcases B.mDatabase.object.deletePicksBefore_cases oldestLoadTime stmt with
      ⟨n, hok, hpicks⟩ | ⟨e, he⟩
    · simp only [hdelete] at hok hpicks
      subst hok
      have hnext (databaseCleaner : DatabaseCleaner) : ({ B with
          mDatabase := { B.mDatabase with object := db }
          databaseCleaner := databaseCleaner } : Broker Bytes).pipeline =
          { B.pipeline with table :=
              if stmt.step then B.pipeline.table.deleteBefore oldestLoadTime
              else B.pipeline.table } := by
        simp [pipeline, mPickStore, hpicks]
      simp only [hnext]
      cases stmt.step with
      | true => exact .delete oldestLoadTime
      | false => exact .idle (by simp)
    · rw [hdelete] at he
      cases he
      exact .idle (by simp)
  | _ =>
    simp only [cleanDatabase, hpc]
    exact .idle (by simp)

theorem stop_step (fetched : Bool) :
    Pipeline.Step codec B.mMaximumInputQueueSize B.pipeline [] (B.stop fetched).pipeline := by
  have hsame : (B.stop fetched).pipeline = B.pipeline := by
    unfold stop
    split <;> (try split) <;> rfl
  rw [hsame]
  exact .idle (by simp)

theorem serve_step {service : SubscribeService V1.Pick} {actions : List Action}
    (hdeque : service.shared.mPickStore.mDeque = B.mPickStore.mDeque)
    (hquiet : ∀ a ∈ actions, a.quiet) :
    Pipeline.Step codec B.mMaximumInputQueueSize B.pipeline (B.serve service actions).2
      (B.serve service actions).1.pipeline := by
  unfold serve
  split
  · exact .idle (by simp)
  · have hsame : ({ B with mSubscribeService := { B.mSubscribeService with
        object := service } } : Broker Bytes).pipeline = B.pipeline := by
      simp only [pipeline, mPickStore] at hdeque ⊢
      rw [hdeque]
    rw [hsame]
    exact .idle hquiet

end Steps

end Broker

/-- The constructor succeeds on an open database that loads, with both services configured. -/
theorem new_ok {Bytes : Type*} {codec : Codec Bytes} {sorting : Sorting Int64 V1.Pick}
    {orderBy : Sorting Int64 Bytes} {options : BrokerOptions} {database : Database Bytes}
    {stmt : LoadStatement} {now : Int64} {isSecured : Bool} {B : Broker Bytes}
    (hnew : Broker.new codec sorting orderBy options (some database) stmt now isSecured = .ok B) :
    ∃ serviceOptions loadedPicks, options.mSubscribeServiceOptions = some serviceOptions ∧
      database.mIsOpen = true ∧ options.mPublishServiceOptions.isSome ∧
      database.load codec orderBy stmt = .ok loadedPicks ∧
      B = Broker.started options database (.started sorting
        (.backfilled serviceOptions.mPickStoreOptions loadedPicks now) serviceOptions
          isSecured) := by
  simp only [Broker.new] at hnew
  split at hnew
  · cases hnew
  · rename_i hopen
    split at hnew
    · cases hnew
    · cases hnew
    · rename_i serviceOptions hpublish hservice
      split at hnew
      · cases hnew
      · rename_i loadedPicks hload
        cases hnew
        exact ⟨serviceOptions, loadedPicks, hservice, by simpa using hopen,
          by simp [hpublish], hload, rfl⟩

/-- The steps of publishers and subscribers, not of the broker's own threads. -/
def BrokerEvent.isClient : BrokerEvent → Bool
  | .addPickCallback _ _ | .callbackReturns _ | .streamSince _ _ _ | .reactor _ _ => true
  | .processPick _ | .cleanDatabase _ _ | .stop _ => false

def Action.isClient : Action → Bool
  | .refused _ | .overran _ | .overflowed _ | .accepted _ | .returned _ | .writer _ _ => true
  | _ => false

/-- The broker's threads are where they were, and what they go by is unchanged. -/
structure Broker.SameThreads {Bytes : Type*} (B B' : Broker Bytes) : Prop where
  mOptions : B'.mOptions = B.mOptions
  mKeepRunning : B'.mKeepRunning = B.mKeepRunning
  stopper : B'.stopper = B.stopper
  pickProcessor : B'.pickProcessor = B.pickProcessor
  databaseCleaner : B'.databaseCleaner = B.databaseCleaner
  mDatabase : B'.mDatabase = B.mDatabase
  mSubscribeService : B'.mSubscribeService.isReset = B.mSubscribeService.isReset

section Runs

variable {Bytes : Type*} [DecidableEq Bytes] (codec : Codec Bytes)
  (sorting : Sorting Int64 V1.Pick)

/-- Every step of the broker moves the picks as the pipeline does. -/
theorem broker_step (B : Broker Bytes) (event : BrokerEvent) :
    Pipeline.Step codec B.mMaximumInputQueueSize B.pipeline
      ((broker codec sorting).answer B event) ((broker codec sorting).next B event).pipeline := by
  cases event with
  | addPickCallback pick now => exact B.addPickCallback_step codec pick now
  | callbackReturns i => exact B.callbackReturns_step codec i
  | processPick readings => exact B.processPick_step codec sorting readings
  | cleanDatabase now stmt => exact B.cleanDatabase_step codec now stmt
  | stop fetched => exact B.stop_step codec fetched
  | streamSince contextAddress request client_metadata =>
    exact B.serve_step codec rfl (by simp)
  | reactor i event =>
    apply B.serve_step codec (react_mDeque B.mSubscribeService.object i event)
    intro a ha
    obtain ⟨action, _, rfl⟩ := List.mem_map.mp ha
    rfl

/-- A client moves none of the broker's own threads. -/
theorem next_client (B : Broker Bytes) {event : BrokerEvent} (h : event.isClient = true) :
    B.SameThreads ((broker codec sorting).next B event) := by
  cases event with
  | processPick readings | cleanDatabase now stmt | stop fetched => cases h
  | addPickCallback pick now =>
    simp only [Machine.next, broker, Broker.addPickCallback]
    split <;> exact ⟨rfl, rfl, rfl, rfl, rfl, rfl, rfl⟩
  | callbackReturns i =>
    simp only [Machine.next, broker, Broker.callbackReturns]
    split <;> exact ⟨rfl, rfl, rfl, rfl, rfl, rfl, rfl⟩
  | streamSince contextAddress request client_metadata =>
    simp only [Machine.next, broker, Broker.serve]
    split <;> exact ⟨rfl, rfl, rfl, rfl, rfl, rfl, rfl⟩
  | reactor i event =>
    simp only [Machine.next, broker, Broker.serve]
    split <;> exact ⟨rfl, rfl, rfl, rfl, rfl, rfl, rfl⟩

/-- What a client's step reports is about the client. -/
theorem answer_client (B : Broker Bytes) {event : BrokerEvent} (h : event.isClient = true) :
    ∀ a ∈ (broker codec sorting).answer B event, a.isClient = true := by
  intro a ha
  cases event with
  | processPick readings | cleanDatabase now stmt | stop fetched => cases h
  | addPickCallback pick now =>
    simp only [Machine.answer, broker, Broker.addPickCallback] at ha
    split at ha
    · obtain rfl := List.mem_singleton.mp ha
      rfl
    · obtain rfl := List.mem_singleton.mp ha
      rfl
    · rcases List.mem_append.mp ha with hpopped | haccepted
      · obtain ⟨pick, _, rfl⟩ := List.mem_map.mp hpopped
        rfl
      · obtain rfl := List.mem_singleton.mp haccepted
        rfl
  | callbackReturns i =>
    simp only [Machine.answer, broker, Broker.callbackReturns] at ha
    split at ha
    · cases ha
    · obtain rfl := List.mem_singleton.mp ha
      rfl
  | streamSince contextAddress request client_metadata =>
    simp only [Machine.answer, broker, Broker.serve] at ha
    split at ha <;> cases ha
  | reactor i event =>
    simp only [Machine.answer, broker, Broker.serve] at ha
    split at ha
    · cases ha
    · obtain ⟨action, _, rfl⟩ := List.mem_map.mp ha
      rfl

/-- No step changes the options. -/
theorem next_mOptions (B : Broker Bytes) (event : BrokerEvent) :
    ((broker codec sorting).next B event).mOptions = B.mOptions := by
  cases event with
  | processPick readings =>
    simp only [Machine.next, broker, Broker.processPick]
    repeat' split
    all_goals rfl
  | cleanDatabase now stmt =>
    simp only [Machine.next, broker, Broker.cleanDatabase]
    repeat' split
    all_goals rfl
  | stop fetched =>
    simp only [Machine.next, broker, Broker.stop]
    repeat' split
    all_goals rfl
  | _ => exact (next_client codec sorting B rfl).mOptions

/-- What the steps of the pipeline keep holds after every run of the broker. -/
theorem pipeline_invariant {B : Broker Bytes} {Inv : Pipeline Bytes → List Action → Prop}
    {ok : Broker Bytes → BrokerEvent → Prop} {allowed : Pipeline Bytes → List Action → Prop}
    (hallowed : ∀ B event, ok B event →
      allowed B.pipeline ((broker codec sorting).answer B event))
    (keep : ∀ P actions P' tr, Inv P tr → allowed P actions →
      Pipeline.Step codec B.mMaximumInputQueueSize P actions P' → Inv P' (tr ++ actions))
    {events : List BrokerEvent} (h : Inv B.pipeline [])
    (hok : (broker codec sorting).Meets ok B events) :
    Inv ((broker codec sorting).final B events).pipeline
      ((broker codec sorting).trace B events) := by
  let Kept (B' : Broker Bytes) (tr : List Action) : Prop :=
    B'.mOptions = B.mOptions ∧ Inv B'.pipeline tr
  have hstep : ∀ B' event tr, Kept B' tr → ok B' event →
      Kept ((broker codec sorting).next B' event)
        (tr ++ (broker codec sorting).answer B' event) := by
    rintro B' event tr ⟨hoptions, hinv⟩ hevent
    refine ⟨(next_mOptions codec sorting B' event).trans hoptions, ?_⟩
    have hmove := broker_step codec sorting B' event
    rw [Broker.mMaximumInputQueueSize, hoptions] at hmove
    exact keep _ _ _ tr hinv (hallowed B' event hevent) hmove
  exact (Machine.invariant_trace (broker codec sorting) hstep ⟨rfl, h⟩ hok).2

theorem pipeline_invariant_of_step {B : Broker Bytes}
    {Inv : Pipeline Bytes → List Action → Prop}
    (keep : ∀ P actions P' tr, Inv P tr →
      Pipeline.Step codec B.mMaximumInputQueueSize P actions P' → Inv P' (tr ++ actions))
    (events : List BrokerEvent) (h : Inv B.pipeline []) :
    Inv ((broker codec sorting).final B events).pipeline
      ((broker codec sorting).trace B events) := by
  have hallowed : ∀ (B : Broker Bytes) (event : BrokerEvent), True →
      (fun (_ : Pipeline Bytes) (_ : List Action) => True) B.pipeline
        ((broker codec sorting).answer B event) := fun _ _ _ => trivial
  have hok := (broker codec sorting).meets_true B events
  have hkeep : ∀ P actions P' tr, Inv P tr → (fun (_ : Pipeline Bytes) (_ : List Action) => True)
      P actions → Pipeline.Step codec B.mMaximumInputQueueSize P actions P' →
      Inv P' (tr ++ actions) := fun P actions P' tr hP _ hstep => keep P actions P' tr hP hstep
  exact pipeline_invariant codec sorting hallowed hkeep h hok

end Runs

end PickBroker
