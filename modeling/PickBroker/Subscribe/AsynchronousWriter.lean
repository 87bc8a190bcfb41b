import PickBroker.Grpc
import PickBroker.Store.PickStore

namespace PickBroker

theorem defaultSubscribers_pos : (1 : Int32) ≤ 64 := by decide

/-- Options of the subscribe service, whose constructor asks for the gRPC options to be set. -/
structure SubscribeServiceOptions where
  mGRPCOptions : GRPCServerOptions := {}
  mPickStoreOptions : PickStoreOptions := {}
  mMaximumNumberOfSubscribers : Int32 := 64
  subscribers_pos : 1 ≤ mMaximumNumberOfSubscribers := by
    first | exact defaultSubscribers_pos | decide

def SubscribeServiceOptions.setMaximumNumberOfSubscribers (options : SubscribeServiceOptions)
    (maxSubscribers : Int32) : Except Exception SubscribeServiceOptions :=
  if h : maxSubscribers < 1 then
    .error (.invalid_argument "Maximum number of subscribers must be positive")
  else
    .ok { options with
      mMaximumNumberOfSubscribers := maxSubscribers
      subscribers_pos := one_le_of_not_lt h }

def SubscribeServiceOptions.setGRPCOptions (options : SubscribeServiceOptions)
    (grpcOptions : GRPCServerOptions) : SubscribeServiceOptions :=
  { options with mGRPCOptions := grpcOptions }

structure Duration where
  seconds : Int64
  nanos : Int32

/-- `std::chrono::seconds(seconds) + std::chrono::nanoseconds(nanos)`. -/
def Duration.toNanoseconds (duration : Duration) : Int64 :=
  duration.seconds * 1000000000 + duration.nanos.toInt64

structure StreamSinceRequest where
  backfill_duration : Option Duration := none

/-- What the constructor of a writer is called with. -/
structure Connection where
  contextAddress : UInt64
  request : StreamSinceRequest := {}
  client_metadata : List (String × String) := []
  options : SubscribeServiceOptions := {}
  isSecured : Bool := false

def Connection.limitReached (connection : Connection) (subscriberCount : Int32) : Bool :=
  connection.options.mMaximumNumberOfSubscribers ≤ subscriberCount

def Connection.unauthorized (connection : Connection) : Bool :=
  connection.options.mGRPCOptions.refuses connection.isSecured
    (validateSubscriber connection.client_metadata)

/-- What the thread of a writer does next: the four parts of its constructor, then the loop of
`nextWrite`, which ends when the writer waits for gRPC. -/
inductive Pc where
  | checkLimit
  | authenticate
  | trySubscribe
  | fetchAdd
  | nextWrite
  | idle
  | deleted
  deriving DecidableEq

/-- The stream of one subscriber. -/
structure AsynchronousWriter (Pick : Type*) where
  connection : Connection
  pc : Pc := .checkLimit
  mPicksQueue : List Pick := []
  mWriteInProgress : Bool := false
  mRegistered : Bool := false

/-- What all writers of a service share. -/
structure Shared (Pick : Type*) where
  mPickStore : PickStore Pick
  mSubscriberCount : Int32 := 0

/-- What a writer does towards gRPC and the rest of the service. -/
inductive WriterAction (Pick : Type*) where
  | finish (status : Status)
  | subscribe
  | unsubscribe
  | fetchAdd
  | getPicks (picks : List Pick)
  | startWrite (pick : Pick)
  deriving DecidableEq

def WriterAction.isFinish {Pick : Type*} : WriterAction Pick → Bool
  | .finish _ => true
  | _ => false

/-- What a step reads from outside: the clock of the constructor and the one of the store,
whether memory runs out on subscribing, `mKeepRunning`, and `IsCancelled` in the loop and
behind it. -/
structure Readings where
  now : Int64 := 0
  storeNow : Int64 := 0
  outOfMemory : Bool := false
  keepRunning : Bool := true
  cancelled : Bool := false
  cancelledAfter : Bool := false

/-- The next step of the writer's own thread, or an event of gRPC. -/
inductive WriterEvent where
  | proceed (readings : Readings)
  | onWriteDone (ok keepRunning cancelled : Bool)
  | onCancel
  | onDone

/-- Picks are fetched this many at a time. -/
def MAXIMUM_QUEUE_SIZE : ℤ := 32

namespace AsynchronousWriter

variable {Pick : Type*}

def mContextAddress (w : AsynchronousWriter Pick) : UInt64 := w.connection.contextAddress

/-- The store with the subscriber, or what `PickStore::subscribe` throws. -/
def trySubscribe (w : AsynchronousWriter Pick) (store : PickStore Pick) (readings : Readings) :
    Except Exception (PickStore Pick) :=
  if readings.outOfMemory then .error (.bad_alloc "std::bad_alloc")
  else match w.connection.request.backfill_duration with
    | some duration =>
      store.subscribeSince w.mContextAddress (readings.now - duration.toNanoseconds)
        readings.storeNow
    | none => .ok (store.subscribe w.mContextAddress)

def failedToSubscribe (w : AsynchronousWriter Pick) : Status :=
  { code := .INTERNAL
    message := if w.connection.request.backfill_duration.isSome then
        "Server error - failed to subscribe with backfill"
      else "Server error - failed to subscribe" }

/-- One pass through the loop of `nextWrite`, or its end. -/
def nextWrite (shared : Shared Pick) (w : AsynchronousWriter Pick) (readings : Readings) :
    Shared Pick × AsynchronousWriter Pick × List (WriterAction Pick) :=
  if readings.keepRunning && !readings.cancelled then
    match w.mPicksQueue with
    | pick :: _ =>
      if w.mWriteInProgress then (shared, w, [])
      else (shared, { w with mWriteInProgress := true, pc := .idle }, [.startWrite pick])
    | [] =>
      match shared.mPickStore.getPicks w.mContextAddress MAXIMUM_QUEUE_SIZE with
      | .ok (newPicks, store) =>
        ({ shared with mPickStore := store }, { w with mPicksQueue := newPicks },
          [.getPicks newPicks])
      | .error _ => (shared, w, [])
  else
    (shared, { w with pc := .idle },
      [.finish (if readings.cancelledAfter then .cancelled else .ok)])

/-- The next step of the writer's thread. No branch that finishes the call returns from the
constructor. -/
def proceed (shared : Shared Pick) (w : AsynchronousWriter Pick) (readings : Readings) :
    Shared Pick × AsynchronousWriter Pick × List (WriterAction Pick) :=
  match w.pc with
  | .checkLimit =>
    (shared, { w with pc := .authenticate },
      if w.connection.limitReached shared.mSubscriberCount then
        [.finish { code := .RESOURCE_EXHAUSTED, message := "Maximum subscriber limit reached" }]
      else [])
  | .authenticate =>
    (shared, { w with pc := .trySubscribe },
      if w.connection.unauthorized then [.finish .invalidAccessToken] else [])
  | .trySubscribe =>
    match w.trySubscribe shared.mPickStore readings with
    | .ok store => ({ shared with mPickStore := store }, { w with pc := .fetchAdd }, [.subscribe])
    | .error _ => (shared, { w with pc := .fetchAdd }, [.finish w.failedToSubscribe])
  | .fetchAdd =>
    ({ shared with mSubscriberCount := shared.mSubscriberCount + 1 },
      { w with mRegistered := true, mWriteInProgress := false, pc := .nextWrite }, [.fetchAdd])
  | .nextWrite => w.nextWrite shared readings
  | .idle => (shared, w, [])
  | .deleted => (shared, w, [])

/-- `OnWriteDone`; when the next write is due it goes on in the loop of `nextWrite`. -/
def onWriteDone (shared : Shared Pick) (w : AsynchronousWriter Pick)
    (ok keepRunning cancelled : Bool) :
    Shared Pick × AsynchronousWriter Pick × List (WriterAction Pick) :=
  if !ok then
    (shared, w, [.finish (if cancelled then .cancelled
      else { code := .UNKNOWN, message := "Unknown server error" })])
  else if !keepRunning then
    (shared, w, [.finish .serverShutdown])
  else
    (shared, { w with mWriteInProgress := false, mPicksQueue := w.mPicksQueue.tail
                      pc := .nextWrite }, [])

/-- The part `OnCancel` and `OnDone` share. Neither takes the subscriber from the count. -/
def disconnect (shared : Shared Pick) (w : AsynchronousWriter Pick) :
    Shared Pick × AsynchronousWriter Pick × List (WriterAction Pick) :=
  if w.mRegistered then
    ({ shared with mPickStore := shared.mPickStore.unsubscribe w.mContextAddress },
      { w with mRegistered := false }, [.unsubscribe])
  else (shared, w, [])

def onCancel (shared : Shared Pick) (w : AsynchronousWriter Pick) :
    Shared Pick × AsynchronousWriter Pick × List (WriterAction Pick) :=
  w.disconnect shared

def onDone (shared : Shared Pick) (w : AsynchronousWriter Pick) :
    Shared Pick × AsynchronousWriter Pick × List (WriterAction Pick) :=
  let (shared, w, actions) := w.disconnect shared
  (shared, { w with pc := .deleted }, actions)

def step (shared : Shared Pick) (w : AsynchronousWriter Pick) :
    WriterEvent → Shared Pick × AsynchronousWriter Pick × List (WriterAction Pick)
  | .proceed readings => w.proceed shared readings
  | .onWriteDone ok keepRunning cancelled => w.onWriteDone shared ok keepRunning cancelled
  | .onCancel => w.onCancel shared
  | .onDone => w.onDone shared

end AsynchronousWriter

end PickBroker
