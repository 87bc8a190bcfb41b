import PickBroker.Publish.AsynchronousReader
import PickBroker.Framework.Machine

namespace PickBroker

open Framework

variable {Pick : Type*}

/-- What the constructor of a reader does next, with one access to what the readers share in each
part. Then the reader is open until gRPC is done with it. -/
inductive ReaderPc where
  | checkLimit
  | authenticate
  | fetchAdd
  | loadKeepRunning
  | opened
  | deleted
  deriving DecidableEq

def ReaderPc.constructing : ReaderPc → Bool
  | .checkLimit | .authenticate | .fetchAdd | .loadKeepRunning => true
  | .opened | .deleted => false

/-- A reader of the service, with what its constructor is called with. -/
structure Publisher where
  reader : AsynchronousReader
  client_metadata : List (String × String) := []
  isSecured : Bool := false
  pc : ReaderPc := .checkLimit

/-- A call of `start` or `stop`: `start` sets `mSecured` before it serves, then blocks and
touches nothing any more. -/
inductive ControlPc where
  | startKeepRunning
  | startCount
  | startCredentials
  | stopKeepRunning
  | stopCount
  | returned
  deriving DecidableEq

/-- The service with all the readers it has made and all the calls that control it. -/
structure PublishService where
  mOptions : PublishServiceOptions := {}
  mPublisherCount : Int32 := 0
  mKeepRunning : Bool := true
  mSecured : Bool := false
  publishers : List Publisher := []
  controls : List ControlPc := []

/-- The next step of a reader's constructor, or an event of gRPC. -/
inductive ReaderEvent (Pick : Type*) where
  | proceed
  | onReadDone (event : ReadDone Pick)
  | onDone

inductive PublishEvent (Pick : Type*) where
  | publish (client_metadata : List (String × String))
  | reader (i : ℕ) (event : ReaderEvent Pick)
  | start
  | stop
  | control (i : ℕ)

namespace PublishService

def new (options : PublishServiceOptions) : PublishService := { mOptions := options }

/-- `Publish`, up to the first access of the constructor it calls. -/
def publish (S : PublishService) (client_metadata : List (String × String)) : PublishService :=
  { S with publishers := S.publishers ++
    [{ reader :=
        { mMaximumNumberOfPublishers := S.mOptions.mMaximumPublishers
          mMaximumConsecutiveInvalidMessages := S.mOptions.mMaximumConsecutiveInvalidMessages }
       client_metadata := client_metadata
       isSecured := S.mSecured }] }

/-- The next part of the constructor of `P`. -/
def proceed (S : PublishService) (P : Publisher) :
    PublishService × Publisher × List (ReaderAction Pick) :=
  match P.pc with
  | .checkLimit =>
    if P.reader.mMaximumNumberOfPublishers ≤ S.mPublisherCount then
      (S, { P with pc := .opened },
        [.finish { code := .RESOURCE_EXHAUSTED, message := "Maximum publisher limit reached" }])
    else (S, { P with pc := .authenticate }, [])
  | .authenticate =>
    if S.mOptions.mGRPCOptions.refuses P.isSecured (validatePublisher P.client_metadata) then
      (S, { P with pc := .opened }, [.finish .invalidAccessToken])
    else (S, { P with pc := .fetchAdd }, [])
  | .fetchAdd =>
    ({ S with mPublisherCount := S.mPublisherCount + 1 },
      { P with reader := { P.reader with mRegistered := true }, pc := .loadKeepRunning }, [])
  | .loadKeepRunning =>
    (S, { P with pc := .opened }, [if S.mKeepRunning then .startRead else .finish .ok])
  | .opened | .deleted => (S, P, [])

def onDone (S : PublishService) (P : Publisher) : PublishService × Publisher :=
  (if P.reader.mRegistered then { S with mPublisherCount := S.mPublisherCount - 1 } else S,
    { P with pc := .deleted })

/-- gRPC calls a reader back once its constructor has returned, and not after `OnDone`. -/
def readerStep (S : PublishService) (P : Publisher) :
    ReaderEvent Pick → PublishService × Publisher × List (ReaderAction Pick)
  | .proceed => S.proceed P
  | .onReadDone event =>
    if P.pc = .opened then
      let (reader, actions) := P.reader.onReadDone event
      (S, { P with reader := reader }, actions)
    else (S, P, [])
  | .onDone =>
    if P.pc = .opened then
      let (S, P) := S.onDone P
      (S, P, [])
    else (S, P, [])

/-- The next store of a call of `start` or `stop`. -/
def controlStep (S : PublishService) : ControlPc → PublishService × ControlPc
  | .startKeepRunning => ({ S with mKeepRunning := true }, .startCount)
  | .startCount => ({ S with mPublisherCount := 0 }, .startCredentials)
  | .startCredentials => ({ S with mSecured := S.mOptions.mGRPCOptions.secures }, .returned)
  | .stopKeepRunning => ({ S with mKeepRunning := false }, .stopCount)
  | .stopCount => ({ S with mPublisherCount := 0 }, .returned)
  | .returned => (S, .returned)

def react (S : PublishService) (i : ℕ) (event : ReaderEvent Pick) :
    PublishService × List (ReaderAction Pick) :=
  match S.publishers[i]? with
  | none => (S, [])
  | some P =>
    let (S', P', actions) := S.readerStep P event
    ({ S' with publishers := S.publishers.set i P' }, actions)

def control (S : PublishService) (i : ℕ) : PublishService :=
  match S.controls[i]? with
  | none => S
  | some pc =>
    let (S', pc') := S.controlStep pc
    { S' with controls := S.controls.set i pc' }

end PublishService

/-- The threads of the service interleave at their accesses to what they share. -/
def publishService : Machine PublishService (PublishEvent Pick) (List (ReaderAction Pick)) where
  step S
    | .publish client_metadata => (S.publish client_metadata, [])
    | .reader i event => S.react i event
    | .start => ({ S with controls := S.controls ++ [.startKeepRunning] }, [])
    | .stop => ({ S with controls := S.controls ++ [.stopKeepRunning] }, [])
    | .control i => (S.control i, [])

/-- All that a step of a reader can be. -/
inductive ReaderMove (S : PublishService) (P : Publisher) :
    ReaderEvent Pick → PublishService × Publisher × List (ReaderAction Pick) → Prop where
  | refused (hpc : P.pc = .checkLimit ∨ P.pc = .authenticate) (status : Status) :
      ReaderMove S P .proceed (S, { P with pc := .opened }, [.finish status])
  | withinLimit (hpc : P.pc = .checkLimit) :
      ReaderMove S P .proceed (S, { P with pc := .authenticate }, [])
  | authenticated (hpc : P.pc = .authenticate)
      (hpassed : S.mOptions.mGRPCOptions.refuses P.isSecured
        (validatePublisher P.client_metadata) = false) :
      ReaderMove S P .proceed (S, { P with pc := .fetchAdd }, [])
  | added (hpc : P.pc = .fetchAdd) :
      ReaderMove S P .proceed
        ({ S with mPublisherCount := S.mPublisherCount + 1 },
          { P with reader := { P.reader with mRegistered := true }, pc := .loadKeepRunning }, [])
  | constructed (hpc : P.pc = .loadKeepRunning) :
      ReaderMove S P .proceed
        (S, { P with pc := .opened }, [if S.mKeepRunning then .startRead else .finish .ok])
  | readDone (hpc : P.pc = .opened) (event : ReadDone Pick) :
      ReaderMove S P (.onReadDone event)
        (S, { P with reader := (P.reader.onReadDone event).1 }, (P.reader.onReadDone event).2)
  | done (hpc : P.pc = .opened) :
      ReaderMove S P .onDone ((S.onDone P).1, { P with pc := .deleted }, [])
  | ignored (event : ReaderEvent Pick) (hnot : event = .proceed → P.pc.constructing = false) :
      ReaderMove S P event (S, P, [])

theorem proceed_move (S : PublishService) (P : Publisher) :
    ReaderMove S P (.proceed : ReaderEvent Pick) (S.proceed P) := by
  rw [PublishService.proceed]
  cases hpc : P.pc with
  | checkLimit =>
    dsimp only
    split
    · exact .refused (Or.inl hpc) _
    · exact .withinLimit hpc
  | authenticate =>
    dsimp only
    split
    · exact .refused (Or.inr hpc) _
    · rename_i hpassed
      exact .authenticated hpc (Bool.of_not_eq_true hpassed)
  | fetchAdd => exact .added hpc
  | loadKeepRunning => exact .constructed hpc
  | opened | deleted => exact .ignored _ fun _ => by rw [hpc]; rfl

theorem readerStep_move (S : PublishService) (P : Publisher) (event : ReaderEvent Pick) :
    ReaderMove S P event (S.readerStep P event) := by
  cases event with
  | proceed => exact proceed_move S P
  | onReadDone event =>
    rw [PublishService.readerStep]
    split
    · exact .readDone ‹_› event
    · exact .ignored _ nofun
  | onDone =>
    rw [PublishService.readerStep]
    split
    · exact .done ‹_›
    · exact .ignored _ nofun

/-- On the publisher count, and not taken off again by `OnDone`. -/
def Publisher.registered (P : Publisher) : Bool := P.reader.mRegistered && P.pc != .deleted

def PublishService.registered (S : PublishService) : ℕ := S.publishers.countP Publisher.registered

/-- No constructor, `start` or `stop` is under way; a callback is one step. -/
def PublishService.AtRest (S : PublishService) : Prop :=
  (∀ P ∈ S.publishers, P.pc.constructing = false) ∧ ∀ pc ∈ S.controls, pc = .returned

instance PublishService.decidableAtRest (S : PublishService) : Decidable S.AtRest :=
  inferInstanceAs (Decidable ((∀ P ∈ S.publishers, P.pc.constructing = false) ∧
    ∀ pc ∈ S.controls, pc = .returned))

/-- The limit holds, and at rest the count is that of the registered publishers. -/
structure PublishService.Limited (S : PublishService) : Prop where
  within : S.registered ≤ S.mOptions.mMaximumPublishers.toInt
  exact_at_rest : S.AtRest → S.mPublisherCount.toInt = S.registered

/-- A publisher that is about to be counted finds a free place, and nobody is registered when the
count is set to zero. -/
def KeepsPlaces (S : PublishService) : PublishEvent Pick → Prop
  | .reader i .proceed => ∀ P ∈ S.publishers[i]?, P.pc = .fetchAdd →
      S.registered < S.mOptions.mMaximumPublishers.toInt
  | .control i => ∀ pc ∈ S.controls[i]?, pc = .startCount ∨ pc = .stopCount → S.registered = 0
  | _ => True

end PickBroker
