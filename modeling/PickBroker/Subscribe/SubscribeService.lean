import PickBroker.Subscribe.AsynchronousWriter

namespace PickBroker

open Framework

variable {Pick : Type*}

/-- The parts of the constructor before its client counts as a subscriber. -/
def Pc.admitting : Pc → Bool
  | .checkLimit | .authenticate | .trySubscribe | .fetchAdd => true
  | .nextWrite | .idle | .deleted => false

def WriterEvent.disconnects : WriterEvent → Bool
  | .onCancel | .onDone => true
  | .proceed _ | .onWriteDone _ _ _ => false

/-- A writer with its history: whether its constructor rejected the client, and whether the
client has gone. -/
structure Reactor (Pick : Type*) where
  writer : AsynchronousWriter Pick
  rejected : Bool := false
  disconnected : Bool := false

namespace Reactor

def step (shared : Shared Pick) (R : Reactor Pick) (event : WriterEvent) :
    Shared Pick × Reactor Pick × List (WriterAction Pick) :=
  let (shared, writer, actions) := R.writer.step shared event
  (shared,
    { writer := writer
      rejected := R.rejected || (R.writer.pc.admitting && actions.any WriterAction.isFinish)
      disconnected := R.disconnected || event.disconnects }, actions)

/-- An admitted subscriber that has not disconnected. -/
def connected (R : Reactor Pick) : Bool :=
  !R.writer.pc.admitting && !R.rejected && !R.disconnected

end Reactor

/-- The service with all the writers it has made since it was started. -/
structure SubscribeService (Pick : Type*) where
  shared : Shared Pick
  mOptions : SubscribeServiceOptions := {}
  mSecured : Bool := false
  reactors : List (Reactor Pick) := []

/-- A call of `StreamSince`, a step of one of the writers, or a pick to send. -/
inductive ServiceEvent (Pick : Type*) where
  | streamSince (contextAddress : UInt64) (request : StreamSinceRequest)
      (client_metadata : List (String × String))
  | reactor (i : ℕ) (event : WriterEvent)
  | enqueue (receivedTime : Int64) (pick : Pick) (now : Int64)

namespace SubscribeService

/-- `start` on a store from either constructor. -/
def started (sorting : Sorting Int64 Pick) (start : Construction Pick)
    (options : SubscribeServiceOptions) (isSecured : Bool) : SubscribeService Pick :=
  { shared := { mPickStore := start.build sorting }, mOptions := options, mSecured := isSecured }

def connect (S : SubscribeService Pick) (contextAddress : UInt64) (request : StreamSinceRequest)
    (client_metadata : List (String × String)) : SubscribeService Pick :=
  { S with reactors := S.reactors ++
    [{ writer :=
        { connection :=
          { contextAddress := contextAddress
            request := request
            client_metadata := client_metadata
            options := S.mOptions
            isSecured := S.mSecured } } }] }

def react (S : SubscribeService Pick) (i : ℕ) (event : WriterEvent) :
    SubscribeService Pick × List (WriterAction Pick) :=
  match S.reactors[i]? with
  | none => (S, [])
  | some R =>
    let (shared, R', actions) := R.step S.shared event
    ({ S with shared := shared, reactors := S.reactors.set i R' }, actions)

def enqueue (sorting : Sorting Int64 Pick) (S : SubscribeService Pick) (receivedTime : Int64)
    (pick : Pick) (now : Int64) : SubscribeService Pick :=
  { S with shared := { S.shared with
      mPickStore := S.shared.mPickStore.enqueue sorting receivedTime pick now } }

/-- An `enqueue` that throws while it puts the pick in place: the store is cleaned before that. -/
def enqueueThrows (S : SubscribeService Pick) (now : Int64) : SubscribeService Pick :=
  { S with shared := { S.shared with mPickStore := S.shared.mPickStore.cleanDequeAt now } }

def stop (S : SubscribeService Pick) : SubscribeService Pick :=
  { S with shared := { S.shared with mSubscriberCount := 0 } }

/-- How many admitted subscribers have not disconnected. -/
def connected (S : SubscribeService Pick) : ℕ := S.reactors.countP Reactor.connected

end SubscribeService

/-- The threads of the service interleave at their accesses to what they share. -/
def subscribeService (sorting : Sorting Int64 Pick) :
    Machine (SubscribeService Pick) (ServiceEvent Pick) (List (WriterAction Pick)) where
  step S
    | .streamSince contextAddress request client_metadata =>
      (S.connect contextAddress request client_metadata, [])
    | .reactor i event => S.react i event
    | .enqueue receivedTime pick now => (S.enqueue sorting receivedTime pick now, [])

/-- What gRPC promises: contexts of live calls have different addresses, and a writer is called
back only after its constructor has returned or gone into the loop of `nextWrite`. -/
def Promised (S : SubscribeService Pick) : ServiceEvent Pick → Prop
  | .streamSince contextAddress _ _ =>
    ∀ R ∈ S.reactors, R.writer.pc ≠ .deleted → R.writer.mContextAddress ≠ contextAddress
  | .reactor _ (.proceed _) => True
  | .reactor i _ => ∀ R ∈ S.reactors[i]?, R.writer.pc.admitting = false
  | .enqueue _ _ _ => True

instance (S : SubscribeService Pick) (event : ServiceEvent Pick) : Decidable (Promised S event) :=
  match event with
  | .streamSince contextAddress _ _ => inferInstanceAs (Decidable (∀ R ∈ S.reactors,
      R.writer.pc ≠ .deleted → R.writer.mContextAddress ≠ contextAddress))
  | .reactor _ (.proceed _) | .enqueue _ _ _ => .isTrue trivial
  | .reactor i (.onWriteDone _ _ _) | .reactor i .onCancel | .reactor i .onDone =>
    inferInstanceAs (Decidable (∀ R ∈ S.reactors[i]?, R.writer.pc.admitting = false))

end PickBroker
