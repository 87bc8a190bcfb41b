import PickBroker.Broker.AddPick
import PickBroker.Broker.BrokerOptions
import PickBroker.Database.Database
import PickBroker.MetricsSingleton
import PickBroker.Subscribe.SubscribeService

namespace PickBroker

open Framework

/-- `std::unique_ptr`: after a reset `object` is what it owned last. -/
structure UniquePtr (α : Type*) where
  object : α
  isReset : Bool := false

/-- What the thread of `processPick` does next. -/
inductive PickProcessor where
  | loop
  | takePick
  | readDatabase (receivedTime : Int64) (pick : V1.Pick)
  | add (receivedTime : Int64) (pick : V1.Pick)
  | countDuplicate
  | readSubscribeService (receivedTime : Int64) (pick : V1.Pick)
  | enqueue (receivedTime : Int64) (pick : V1.Pick)
  | returned
  deriving DecidableEq

/-- What the thread of `cleanDatabase` does next. -/
inductive DatabaseCleaner where
  | loop
  | readDatabase
  | isOpen
  | readDatabaseAgain (oldestLoadTime : Int64)
  | deletePicksBefore (oldestLoadTime : Int64)
  | wait
  | returned
  | threw (e : Exception)
  deriving DecidableEq

/-- What the thread that calls `stop` does next. -/
inductive Stopper where
  | clearKeepRunning
  | requestShutdown
  | stopPublishService
  | resetPublishService
  | stopSubscribeService
  | resetSubscribeService
  | closeDatabase
  | resetDatabase
  | clearIsRunning
  | getPublishServiceFuture
  | getPickProcessorFuture
  | getSubscribeServiceFuture
  | getDatabaseCleanerFuture
  | returned
  | threw (e : Exception)
  deriving DecidableEq

/-- The broker after `start`. `callbacks` are the picks of the calls of `addPickCallback` that
have queued their pick and not returned yet. -/
structure Broker (Bytes : Type*) where
  mOptions : BrokerOptions
  mDatabase : UniquePtr (Database Bytes)
  mSubscribeService : UniquePtr (SubscribeService V1.Pick)
  mInputQueue : List V1.Pick := []
  mMetrics : MetricsSingleton := {}
  mIsRunning : Bool := false
  mKeepRunning : Bool := true
  mShutdownRequested : Bool := false
  pickProcessor : PickProcessor := .loop
  databaseCleaner : DatabaseCleaner := .loop
  stopper : Stopper := .clearKeepRunning
  callbacks : List V1.Pick := []

/-- The pointers that `stop` resets and the workers call through. -/
inductive Pointer where
  | mDatabase
  | mSubscribeService
  deriving DecidableEq

/-- What becomes of a pick, and what else a step of the broker does that can be seen. Nothing is known
of a process that has overrun a buffer; the broker is left as it was, as if the pick had not come. -/
inductive Action where
  | refused (e : Exception)
  | overran (pick : V1.Pick)
  | overflowed (pick : V1.Pick)
  | accepted (pick : V1.Pick)
  | returned (pick : V1.Pick)
  | took (pick : V1.Pick)
  | inserted (receivedTime : Int64) (pick : V1.Pick)
  | duplicate (pick : V1.Pick)
  | failed (pick : V1.Pick) (e : Exception)
  | cleanedBefore (time : Int64)
  | enqueued (receivedTime : Int64) (pick : V1.Pick)
  | notEnqueued (pick : V1.Pick) (e : Exception)
  | deletedBefore (time : Int64)
  | calledAfterReset (pointer : Pointer)
  | writer (i : ℕ) (action : WriterAction V1.Pick)
  deriving DecidableEq

/-- What a step of `processPick` reads from outside: the clock when it has taken a pick, how the
insert statement goes, what enqueuing throws, and the clock of the store. -/
structure ProcessorReadings where
  now : Int64 := 0
  stmt : Statement := .ok
  thrown : Option Exception := none
  storeNow : Int64 := 0

/-- The next step of one of the threads. Publishers call `addPickCallback`, and a pick is queued
in one step as the mutex is held. `stop` may find that what the cleaner threw has been fetched
before. -/
inductive BrokerEvent where
  | addPickCallback (pick : V1.Pick) (now : Int64)
  | callbackReturns (i : ℕ)
  | processPick (readings : ProcessorReadings)
  | cleanDatabase (now : Int64) (stmt : Statement)
  | stop (fetched : Bool)
  | streamSince (contextAddress : UInt64) (request : StreamSinceRequest)
      (client_metadata : List (String × String))
  | reactor (i : ℕ) (event : WriterEvent)

/-- The loop of `addPickCallback`: the picks it pops, and the queue it leaves. -/
def makeRoom (mMaximumInputQueueSize : ℕ) : List V1.Pick → List V1.Pick × List V1.Pick
  | [] => ([], [])
  | pick :: mInputQueue =>
    if mMaximumInputQueueSize ≤ (pick :: mInputQueue).length then
      let (popped, kept) := makeRoom mMaximumInputQueueSize mInputQueue
      (pick :: popped, kept)
    else ([], pick :: mInputQueue)

namespace Broker

variable {Bytes : Type*}

/-- The broker that has been constructed, when `start` has been called. -/
def started (options : BrokerOptions) (database : Database Bytes)
    (subscribeService : SubscribeService V1.Pick) : Broker Bytes :=
  { mOptions := options
    mDatabase := { object := database }
    mSubscribeService := { object := subscribeService } }

/-- The constructor, and `start`. `now` is the clock of the pick store, `isSecured` how the
subscribe service is started. -/
def new (codec : Codec Bytes) (sorting : Sorting Int64 V1.Pick) (orderBy : Sorting Int64 Bytes)
    (options : BrokerOptions) (database : Option (Database Bytes)) (stmt : LoadStatement)
    (now : Int64) (isSecured : Bool) : Except Exception (Broker Bytes) :=
  match database with
  | none => .error (.invalid_argument "Database is null")
  | some db =>
    if !db.mIsOpen then .error (.invalid_argument "Database is not open")
    else match options.mPublishServiceOptions, options.mSubscribeServiceOptions with
      | none, _ => .error (.invalid_argument "Publish service options not set on broker")
      | some _, none => .error (.invalid_argument "Subscribe service options not set on broker")
      | some _, some serviceOptions =>
        match db.load codec orderBy stmt with
        | .error e => .error e
        | .ok loadedPicks => .ok (started options db (.started sorting
            (.backfilled serviceOptions.mPickStoreOptions loadedPicks now) serviceOptions
            isSecured))

def mMaximumInputQueueSize (B : Broker Bytes) : ℕ := B.mOptions.mQueueCapacity.toInt.toNat

/-- The picks the subscribe service stores. -/
def mPickStore (B : Broker Bytes) : PickStore V1.Pick :=
  B.mSubscribeService.object.shared.mPickStore

def addPickCallback (B : Broker Bytes) (pick : V1.Pick) (now : Int64) :
    Broker Bytes × List Action :=
  match checkAndFixPick pick now with
  | .error (.threw e) => (B, [.refused e])
  | .error .overrun => (B, [.overran pick])
  | .ok pick =>
    let (popped, kept) := makeRoom B.mMaximumInputQueueSize B.mInputQueue
    ({ B with
        mInputQueue := kept ++ [pick]
        mMetrics := popped.foldl (fun m _ => m.incrementOverflowInputPicksCounter) B.mMetrics
        callbacks := B.callbacks ++ [pick] },
      popped.map .overflowed ++ [.accepted pick])

/-- The rest of `addPickCallback` behind the mutex. -/
def callbackReturns (B : Broker Bytes) (i : ℕ) : Broker Bytes × List Action :=
  match B.callbacks[i]? with
  | none => (B, [])
  | some pick =>
    ({ B with
        mMetrics := B.mMetrics.incrementPicksReceivedCounter
        callbacks := B.callbacks.eraseIdx i }, [.returned pick])

def processPick [DecidableEq Bytes] (codec : Codec Bytes) (sorting : Sorting Int64 V1.Pick)
    (B : Broker Bytes) (readings : ProcessorReadings) : Broker Bytes × List Action :=
  match B.pickProcessor with
  | .loop => ({ B with pickProcessor := if B.mKeepRunning then .takePick else .returned }, [])
  | .takePick =>
    match B.mInputQueue with
    | [] => ({ B with pickProcessor := .loop }, [])
    | pick :: mInputQueue =>
      ({ B with
          mInputQueue := mInputQueue
          pickProcessor := .readDatabase readings.now pick }, [.took pick])
  | .readDatabase receivedTime pick => ({ B with pickProcessor := .add receivedTime pick }, [])
  | .add receivedTime pick =>
    if B.mDatabase.isReset then (B, [.calledAfterReset .mDatabase])
    else
      let (result, database) := B.mDatabase.object.add codec receivedTime pick readings.stmt
      let B := { B with mDatabase := { B.mDatabase with object := database } }
      match result with
      | .ok () =>
        ({ B with pickProcessor := .readSubscribeService receivedTime pick },
          [.inserted receivedTime pick])
      | .error (.DuplicatePickException _) =>
        ({ B with pickProcessor := .countDuplicate }, [.duplicate pick])
      | .error e => ({ B with pickProcessor := .loop }, [.failed pick e])
  | .countDuplicate =>
    ({ B with
        mMetrics := B.mMetrics.incrementDuplicatePicksReceivedCounter
        pickProcessor := .loop }, [])
  | .readSubscribeService receivedTime pick =>
    ({ B with pickProcessor := .enqueue receivedTime pick }, [])
  | .enqueue receivedTime pick =>
    if B.mSubscribeService.isReset then (B, [.calledAfterReset .mSubscribeService])
    else
      let service := B.mSubscribeService.object
      let oldestPickToKeep := readings.storeNow - B.mPickStore.mMaxHistory
      match readings.thrown with
      | none =>
        ({ B with
            mSubscribeService := { B.mSubscribeService with
              object := service.enqueue sorting receivedTime pick readings.storeNow }
            pickProcessor := .loop },
          [.cleanedBefore oldestPickToKeep, .enqueued receivedTime pick])
      | some e =>
        ({ B with
            mSubscribeService := { B.mSubscribeService with
              object := service.enqueueThrows readings.storeNow }
            pickProcessor := .loop }, [.cleanedBefore oldestPickToKeep, .notEnqueued pick e])
  | .returned => (B, [])

/-- `now` is the clock reading, `stmt` how the delete statement goes. The wait for the shutdown
ends by itself after a while, so it may end at any time. -/
def cleanDatabase (B : Broker Bytes) (now : Int64) (stmt : Statement) :
    Broker Bytes × List Action :=
  match B.databaseCleaner with
  | .loop =>
    ({ B with databaseCleaner := if B.mKeepRunning then .readDatabase else .returned }, [])
  | .readDatabase => ({ B with databaseCleaner := .isOpen }, [])
  | .isOpen =>
    if B.mDatabase.isReset then (B, [.calledAfterReset .mDatabase])
    else
      ({ B with databaseCleaner :=
          if B.mDatabase.object.mIsOpen then
            .readDatabaseAgain (now - B.mOptions.mPickRetention * 1000000)
          else .wait }, [])
  | .readDatabaseAgain oldestLoadTime =>
    ({ B with databaseCleaner := .deletePicksBefore oldestLoadTime }, [])
  | .deletePicksBefore oldestLoadTime =>
    if B.mDatabase.isReset then (B, [.calledAfterReset .mDatabase])
    else
      let (result, database) := B.mDatabase.object.deletePicksBefore oldestLoadTime stmt
      let B := { B with mDatabase := { B.mDatabase with object := database } }
      match result with
      | .ok _ =>
        ({ B with databaseCleaner := .wait },
          if stmt.step then [.deletedBefore oldestLoadTime] else [])
      | .error e => ({ B with databaseCleaner := .threw e }, [])
  | .wait => ({ B with databaseCleaner := .loop }, [])
  | .returned | .threw _ => (B, [])

/-- The statements of `stop`, for a broker whose pointers are all set when it is called. Getting
a future waits for its thread, and throws what the thread has thrown. Both servers have been
started, so that the thread of a service ends when its service is stopped: its future is ready. -/
def stop (B : Broker Bytes) (fetched : Bool) : Broker Bytes :=
  match B.stopper with
  | .clearKeepRunning => { B with mKeepRunning := false, stopper := .requestShutdown }
  | .requestShutdown => { B with mShutdownRequested := true, stopper := .stopPublishService }
  | .stopPublishService => { B with stopper := .resetPublishService }
  | .resetPublishService => { B with stopper := .stopSubscribeService }
  | .stopSubscribeService =>
    { B with
      mSubscribeService := { B.mSubscribeService with object := B.mSubscribeService.object.stop }
      stopper := .resetSubscribeService }
  | .resetSubscribeService =>
    { B with
      mSubscribeService := { B.mSubscribeService with isReset := true }
      stopper := .closeDatabase }
  | .closeDatabase =>
    { B with
      mDatabase := { B.mDatabase with object := B.mDatabase.object.close }
      stopper := .resetDatabase }
  | .resetDatabase =>
    { B with mDatabase := { B.mDatabase with isReset := true }, stopper := .clearIsRunning }
  | .clearIsRunning => { B with mIsRunning := false, stopper := .getPublishServiceFuture }
  | .getPublishServiceFuture => { B with stopper := .getPickProcessorFuture }
  | .getPickProcessorFuture =>
    if B.pickProcessor = .returned then { B with stopper := .getSubscribeServiceFuture } else B
  | .getSubscribeServiceFuture => { B with stopper := .getDatabaseCleanerFuture }
  | .getDatabaseCleanerFuture =>
    match B.databaseCleaner with
    | .returned => { B with stopper := .returned }
    | .threw e => { B with stopper := if fetched then .returned else .threw e }
    | _ => B
  | .returned | .threw _ => B

/-- A step of the subscribe service, while there is one. -/
def serve (B : Broker Bytes) (service : SubscribeService V1.Pick) (actions : List Action) :
    Broker Bytes × List Action :=
  if B.mSubscribeService.isReset then (B, [])
  else ({ B with mSubscribeService := { B.mSubscribeService with object := service } }, actions)

end Broker

/-- The broker with its publishers, its two workers, the thread that stops it and the writers of
its subscribe service, in any order of their steps. -/
def broker {Bytes : Type*} [DecidableEq Bytes] (codec : Codec Bytes)
    (sorting : Sorting Int64 V1.Pick) : Machine (Broker Bytes) BrokerEvent (List Action) where
  step B
    | .addPickCallback pick now => B.addPickCallback pick now
    | .callbackReturns i => B.callbackReturns i
    | .processPick readings => B.processPick codec sorting readings
    | .cleanDatabase now stmt => B.cleanDatabase now stmt
    | .stop fetched => (B.stop fetched, [])
    | .streamSince contextAddress request client_metadata =>
      B.serve (B.mSubscribeService.object.connect contextAddress request client_metadata) []
    | .reactor i event =>
      let (service, actions) := B.mSubscribeService.object.react i event
      B.serve service (actions.map (.writer i))

/-- The default options with both services. -/
def bothServices : BrokerOptions where
  mPublishServiceOptions := some {}
  mSubscribeServiceOptions := some {}

/-- The broker with an empty database whose bytes are field lists. -/
def freshBroker : Broker V1.Pick :=
  .started bothServices {} (.started (Sorting.stable Int64 V1.Pick) (.backfilled {} [] 0) {} false)

theorem new_freshBroker :
    Broker.new Codec.plain (Sorting.stable Int64 V1.Pick) (Sorting.stable Int64 V1.Pick)
      bothServices (some {}) {} 0 false = .ok freshBroker := rfl

/-- A pass of the pick processor that takes a pick to the store within one clock tick. -/
def processed (now : Int64) : List BrokerEvent :=
  List.replicate 6 (.processPick { now := now, storeNow := now })

/-- A pass of the database cleaner, up to its wait. -/
def cleaned (now : Int64) : List BrokerEvent := List.replicate 5 (.cleanDatabase now .ok)

end PickBroker
