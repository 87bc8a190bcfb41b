import PickBroker.Broker.Refinement
import PickBroker.Subscribe.Neighbours
import PickBroker.Subscribe.Stream

namespace PickBroker

open Framework

/-- What the broker's subscribe service, or a thread in it, has done. -/
def Action.ofService : Action → Bool
  | .cleanedBefore _ | .enqueued _ _ | .notEnqueued _ _ | .writer _ _ => true
  | _ => false

/-- All that a step of the broker can do to its subscribe service. Writers move only until the
service has been reset. -/
inductive ServiceMove (sorting : Sorting Int64 V1.Pick) (S : UniquePtr (SubscribeService V1.Pick)) :
    BrokerEvent → List Action → SubscribeService V1.Pick → Prop where
  | still {event : BrokerEvent} {actions : List Action}
      (quiet : ∀ a ∈ actions, a.ofService = false)
      (gone : ∀ i e, event = .reactor i e → S.isReset = true) :
      ServiceMove sorting S event actions S.object
  | stopped (fetched : Bool) : ServiceMove sorting S (.stop fetched) [] S.object.stop
  | connected (contextAddress : UInt64) (request : StreamSinceRequest)
      (client_metadata : List (String × String)) :
      ServiceMove sorting S (.streamSince contextAddress request client_metadata) []
        (S.object.connect contextAddress request client_metadata)
  | reacted (there : S.isReset = false) (i : ℕ) (event : WriterEvent) :
      ServiceMove sorting S (.reactor i event) ((S.object.react i event).2.map (.writer i))
        (S.object.react i event).1
  | enqueued (readings : ProcessorReadings) (receivedTime : Int64) (pick : V1.Pick) :
      ServiceMove sorting S (.processPick readings)
        [.cleanedBefore (readings.storeNow - S.object.shared.mPickStore.mMaxHistory),
          .enqueued receivedTime pick]
        (S.object.enqueue sorting receivedTime pick readings.storeNow)
  | cleaned (readings : ProcessorReadings) (pick : V1.Pick) (e : Exception) :
      ServiceMove sorting S (.processPick readings)
        [.cleanedBefore (readings.storeNow - S.object.shared.mPickStore.mMaxHistory),
          .notEnqueued pick e]
        (S.object.enqueueThrows readings.storeNow)

/-- What a writer has done in a run. -/
def actionsOf (i : ℕ) (tr : List Action) : List (WriterAction V1.Pick) :=
  tr.filterMap fun
    | .writer j action => if j = i then some action else none
    | _ => none

theorem actionsOf_append (i : ℕ) (tr actions : List Action) :
    actionsOf i (tr ++ actions) = actionsOf i tr ++ actionsOf i actions := List.filterMap_append

theorem actionsOf_map_writer (i j : ℕ) (actions : List (WriterAction V1.Pick)) :
    actionsOf i (actions.map (.writer j)) = if j = i then actions else [] := by
  rw [actionsOf, List.filterMap_map]
  by_cases h : j = i <;> simp [h]

theorem enqueuedPicks_map_writer (i : ℕ) (actions : List (WriterAction V1.Pick)) :
    enqueuedPicks (actions.map (.writer i)) = [] := by
  rw [enqueuedPicks, List.filterMap_map]
  exact List.filterMap_eq_nil_iff.mpr fun _ _ => rfl

theorem not_ofService_lists {actions : List Action} (h : ∀ a ∈ actions, a.ofService = false)
    (i : ℕ) : actionsOf i actions = [] ∧ enqueuedPicks actions = [] := by
  refine ⟨?_, ?_⟩
  all_goals
    refine List.filterMap_eq_nil_iff.mpr ?_
    intro a ha
    have hnot := h a ha
    cases a <;> first | rfl | cases hnot

section Moves

variable {Bytes : Type*} (sorting : Sorting Int64 V1.Pick) (B : Broker Bytes)

theorem cleanDatabase_serviceMove (now : Int64) (stmt : Statement) :
    ServiceMove sorting B.mSubscribeService (.cleanDatabase now stmt)
      (B.cleanDatabase now stmt).2 (B.cleanDatabase now stmt).1.mSubscribeService.object := by
  cases hpc : B.databaseCleaner with
  | isOpen =>
    simp only [Broker.cleanDatabase, hpc]
    split <;> exact .still (by simp [Action.ofService]) (by simp)
  | deletePicksBefore oldestLoadTime =>
    simp only [Broker.cleanDatabase, hpc]
    split
    · exact .still (by simp [Action.ofService]) (by simp)
    · split
      · refine .still ?_ (by simp)
        split <;> simp [Action.ofService]
      · exact .still (by simp) (by simp)
  | _ =>
    simp only [Broker.cleanDatabase, hpc]
    exact .still (by simp) (by simp)

theorem stop_serviceMove (fetched : Bool) :
    ServiceMove sorting B.mSubscribeService (.stop fetched) []
      (B.stop fetched).mSubscribeService.object := by
  cases hpc : B.stopper with
  | stopSubscribeService =>
    simp only [Broker.stop, hpc]
    exact .stopped fetched
  | getPickProcessorFuture | getDatabaseCleanerFuture =>
    simp only [Broker.stop, hpc]
    split <;> exact .still (by simp) (by simp)
  | _ =>
    simp only [Broker.stop, hpc]
    exact .still (by simp) (by simp)

variable [DecidableEq Bytes] (codec : Codec Bytes)

theorem processPick_serviceMove (readings : ProcessorReadings) :
    ServiceMove sorting B.mSubscribeService (.processPick readings)
      (B.processPick codec sorting readings).2
      (B.processPick codec sorting readings).1.mSubscribeService.object := by
  cases hpc : B.pickProcessor with
  | takePick =>
    simp only [Broker.processPick, hpc]
    split <;> exact .still (by simp [Action.ofService]) (by simp)
  | add receivedTime pick =>
    simp only [Broker.processPick, hpc]
    split
    · exact .still (by simp [Action.ofService]) (by simp)
    · split <;> exact .still (by simp [Action.ofService]) (by simp)
  | enqueue receivedTime pick =>
    simp only [Broker.processPick, hpc]
    split
    · exact .still (by simp [Action.ofService]) (by simp)
    · split
      · exact .enqueued readings receivedTime pick
      · exact .cleaned readings pick _
  | _ =>
    simp only [Broker.processPick, hpc]
    exact .still (by simp) (by simp)

/-- Every step of the broker moves the subscribe service so. -/
theorem broker_serviceMove (event : BrokerEvent) :
    ServiceMove sorting B.mSubscribeService event ((broker codec sorting).answer B event)
      ((broker codec sorting).next B event).mSubscribeService.object := by
  cases event with
  | addPickCallback pick now =>
    simp only [Machine.next, Machine.answer, broker, Broker.addPickCallback]
    split
    · exact .still (by simp [Action.ofService]) (by simp)
    · exact .still (by simp [Action.ofService]) (by simp)
    · refine .still ?_ (by simp)
      intro a ha
      simp only [List.mem_append, List.mem_map, List.mem_singleton] at ha
      rcases ha with ⟨pick, _, rfl⟩ | rfl <;> rfl
  | callbackReturns i =>
    simp only [Machine.next, Machine.answer, broker, Broker.callbackReturns]
    split <;> exact .still (by simp [Action.ofService]) (by simp)
  | processPick readings => exact processPick_serviceMove sorting B codec readings
  | cleanDatabase now stmt => exact cleanDatabase_serviceMove sorting B now stmt
  | stop fetched => exact stop_serviceMove sorting B fetched
  | streamSince contextAddress request client_metadata =>
    simp only [Machine.next, Machine.answer, broker, Broker.serve]
    split
    · exact .still (by simp) (by simp)
    · exact .connected contextAddress request client_metadata
  | reactor i event =>
    simp only [Machine.next, Machine.answer, broker, Broker.serve]
    split
    · rename_i hgone
      exact .still (by simp) fun _ _ _ => hgone
    · rename_i hthere
      exact .reacted (by simpa using hthere) i event

end Moves

/-- What gRPC promises the broker's writers, while there is a service. -/
def BrokerPromised {Bytes : Type*} (B : Broker Bytes) : BrokerEvent → Prop
  | .streamSince contextAddress request client_metadata =>
    CallsBackLive B.mSubscribeService.object (.streamSince contextAddress request client_metadata)
  | .reactor i event => CallsBackLive B.mSubscribeService.object (.reactor i event)
  | _ => True

instance {Bytes : Type*} (B : Broker Bytes) :
    (event : BrokerEvent) → Decidable (BrokerPromised B event)
  | .streamSince contextAddress request client_metadata =>
    inferInstanceAs (Decidable (CallsBackLive B.mSubscribeService.object
      (.streamSince contextAddress request client_metadata)))
  | .reactor i event =>
    inferInstanceAs (Decidable (CallsBackLive B.mSubscribeService.object (.reactor i event)))
  | .addPickCallback _ _ | .callbackReturns _ | .processPick _ | .cleanDatabase _ _
  | .stop _ => .isTrue trivial

theorem Apart.serviceMove {Bytes : Type*} {sorting : Sorting Int64 V1.Pick} {B : Broker Bytes}
    {event : BrokerEvent} {actions : List Action} {S' : SubscribeService V1.Pick}
    (h : Apart B.mSubscribeService.object) (hok : BrokerPromised B event)
    (hmove : ServiceMove sorting B.mSubscribeService event actions S') : Apart S' := by
  cases hmove with
  | still quiet gone => exact h
  | stopped fetched => exact h.same rfl
  | connected contextAddress request client_metadata =>
    exact h.connect request client_metadata hok
  | reacted there i event => exact h.react i hok
  | enqueued readings receivedTime pick => exact h.same rfl
  | cleaned readings pick e => exact h.same rfl

/-- The broker beside the stream of one of its writers. -/
structure Followed (Bytes : Type*) where
  broker : Broker Bytes
  stream : WriterStream V1.Pick

/-- What a writer sees of a step of the broker: a step of its own, or what the others have done to
what they share. -/
def BrokerEvent.seenBy {Bytes : Type*} (i : ℕ) (B B' : Broker Bytes) :
    BrokerEvent → RunEvent V1.Pick
  | .reactor j event =>
    if j = i ∧ B.mSubscribeService.isReset = false then .writer event
    else .others B'.mSubscribeService.object.shared
  | _ => .others B'.mSubscribeService.object.shared

def followed {Bytes : Type*} [DecidableEq Bytes] (codec : Codec Bytes)
    (sorting : Sorting Int64 V1.Pick) (i : ℕ) :
    Machine (Followed Bytes) BrokerEvent (List Action) where
  step F event :=
    let (B, actions) := (broker codec sorting).step F.broker event
    ({ broker := B, stream := writerStream.next F.stream (event.seenBy i F.broker B) }, actions)

/-- The stream is that of the broker's writer. -/
structure InStep {Bytes : Type*} (i : ℕ) (F : Followed Bytes) : Prop where
  shared : F.stream.run.shared = F.broker.mSubscribeService.object.shared
  writer : ∃ R, F.broker.mSubscribeService.object.reactors[i]? = some R ∧
    F.stream.run.writer = R.writer

section Following

variable {Bytes : Type*} [DecidableEq Bytes] (codec : Codec Bytes)
  (sorting : Sorting Int64 V1.Pick) (i : ℕ)

/-- Following a writer does not change the broker. -/
theorem followed_broker (F : Followed Bytes) (events : List BrokerEvent) :
    ((followed codec sorting i).final F events).broker =
        (broker codec sorting).final F.broker events ∧
      (followed codec sorting i).trace F events = (broker codec sorting).trace F.broker events := by
  induction events generalizing F with
  | nil => exact ⟨rfl, rfl⟩
  | cons event events ih =>
    obtain ⟨hfinal, htrace⟩ := ih ((followed codec sorting i).next F event)
    refine ⟨hfinal, ?_⟩
    rw [Machine.trace_cons, Machine.trace_cons, htrace]
    rfl

theorem next_others (S : WriterStream V1.Pick) (shared : Shared V1.Pick) :
    writerStream.next S (.others shared) =
      { S with run := { S.run with shared := shared } } := by
  simp [writerStream, writerRun, Machine.next, RunEvent.isWriteDone]

/-- The stream of the followed writer stays the broker's. -/
theorem InStep.next {F : Followed Bytes} (h : InStep i F) (event : BrokerEvent) :
    InStep i ((followed codec sorting i).next F event) ∧
      ((followed codec sorting i).next F event).stream.run.trace =
        F.stream.run.trace ++ actionsOf i ((followed codec sorting i).answer F event) := by
  have hmove := broker_serviceMove sorting F.broker codec event
  obtain ⟨hshared, R, hi, hwriter⟩ := h
  -- Whatever the others do leaves the writer in its place.
  have hothers : ∀ (S' : SubscribeService V1.Pick) (actions : List Action),
      ((broker codec sorting).next F.broker event).mSubscribeService.object = S' →
      (broker codec sorting).answer F.broker event = actions →
      event.seenBy i F.broker ((broker codec sorting).next F.broker event) = .others S'.shared →
      S'.reactors[i]? = some R → actionsOf i actions = [] →
      InStep i ((followed codec sorting i).next F event) ∧
        ((followed codec sorting i).next F event).stream.run.trace =
          F.stream.run.trace ++ actionsOf i ((followed codec sorting i).answer F event) := by
    intro S' actions hS hactions hseen hplace hnone
    have hanswer : (followed codec sorting i).answer F event = actions := hactions
    have hstream : ((followed codec sorting i).next F event).stream =
        { F.stream with run := { F.stream.run with shared := S'.shared } } := by
      rw [← next_others, ← hseen]
      rfl
    rw [hanswer, hnone, hstream, List.append_nil]
    refine ⟨⟨?_, R, ?_, ?_⟩, rfl⟩
    · rw [hstream]
      exact congrArg SubscribeService.shared hS.symm
    · exact (congrArg (fun S => S.reactors[i]?) hS).trans hplace
    · rw [hstream]
      exact hwriter
  generalize hS : ((broker codec sorting).next F.broker event).mSubscribeService.object = S' at hmove
  generalize hactions : (broker codec sorting).answer F.broker event = actions at hmove
  cases hmove with
  | still quiet gone =>
    apply hothers _ _ hS hactions _ hi (not_ofService_lists quiet i).1
    cases event with
    | reactor j e =>
      have hgone := gone j e rfl
      simp [BrokerEvent.seenBy, hgone, hS]
    | _ => simp [BrokerEvent.seenBy, hS]
  | stopped fetched => exact hothers _ _ hS hactions (by simp [BrokerEvent.seenBy, hS]) hi rfl
  | connected contextAddress request client_metadata =>
    apply hothers _ _ hS hactions (by simp [BrokerEvent.seenBy, hS]) _ rfl
    have hlt := (List.getElem?_eq_some_iff.mp hi).1
    rw [SubscribeService.connect, List.getElem?_append_left hlt]
    exact hi
  | reacted there j e =>
    by_cases hj : j = i
    · subst hj
      obtain ⟨hafter, hreactors, hdone, hnew⟩ := react_of_getElem? hi e
      have hseen : (BrokerEvent.reactor j e).seenBy j F.broker
          ((broker codec sorting).next F.broker (.reactor j e)) = .writer e := by
        simp [BrokerEvent.seenBy, there]
      have hstream : ((followed codec sorting j).next F (.reactor j e)).stream.run =
          { shared := (R.writer.step F.broker.mSubscribeService.object.shared e).1
            writer := (R.writer.step F.broker.mSubscribeService.object.shared e).2.1
            trace := F.stream.run.trace ++
              (R.writer.step F.broker.mSubscribeService.object.shared e).2.2 } := by
        have hnext : ((followed codec sorting j).next F (.reactor j e)).stream =
            writerStream.next F.stream (.writer e) := by
          rw [← hseen]
          rfl
        rw [hnext]
        simp [writerStream, writerRun, Machine.next, hshared, hwriter]
      have hanswer : (followed codec sorting j).answer F (.reactor j e) = _ := hactions
      rw [hanswer, actionsOf_map_writer, if_pos rfl, hdone, hstream]
      refine ⟨⟨?_, (R.step F.broker.mSubscribeService.object.shared e).2.1, ?_, ?_⟩, rfl⟩
      · rw [hstream]
        exact (hafter ▸ congrArg SubscribeService.shared hS).symm
      · refine (congrArg (fun S => S.reactors[j]?) hS).trans ?_
        rw [hreactors, List.getElem?_set_self (List.getElem?_eq_some_iff.mp hi).1]
      · rw [hstream, hnew]
    · apply hothers _ _ hS hactions (by simp [BrokerEvent.seenBy, hj, hS])
      · cases hQ : F.broker.mSubscribeService.object.reactors[j]? with
        | none => rw [react_of_none hQ]; exact hi
        | some Q =>
          rw [(react_of_getElem? hQ e).2.1, List.getElem?_set_ne hj]
          exact hi
      · rw [actionsOf_map_writer, if_neg hj]
  | enqueued readings receivedTime pick =>
    exact hothers _ _ hS hactions (by simp [BrokerEvent.seenBy, hS]) hi rfl
  | cleaned readings pick e =>
    exact hothers _ _ hS hactions (by simp [BrokerEvent.seenBy, hS]) hi rfl

end Following

/-- A client without a start time has passed the checks of its writer. -/
def oneClient : List BrokerEvent :=
  [.streamSince 7 {} [], .reactor 0 (.proceed {}), .reactor 0 (.proceed {})]

/-- It is counted, a pick comes in and is stored, and the writer fetches it and begins to write. -/
def onePickThrough : List BrokerEvent :=
  .reactor 0 (.proceed {}) :: .addPickCallback samplePick 1 :: processed 1 ++
    [.reactor 0 (.proceed {}), .reactor 0 (.proceed {})]

/-- Two picks come in and are stored, and the writer fetches both, writes one after the other, and
finds no more. -/
def twoPicksThrough : List BrokerEvent :=
  .reactor 0 (.proceed {}) :: .addPickCallback samplePick 1 :: processed 1 ++
    .addPickCallback otherPhase 2 :: processed 2 ++
    [.reactor 0 (.proceed {}), .reactor 0 (.proceed {}), .reactor 0 (.onWriteDone true true false),
      .reactor 0 (.proceed {}), .reactor 0 (.onWriteDone true true false), .reactor 0 (.proceed {})]

end PickBroker
