import PickBroker.Grpc

namespace PickBroker

theorem defaultPublishers_pos : (1 : Int32) ≤ 2048 := by decide

theorem noMessageSize_pos : (none : Option Int32).all (1 ≤ ·) = true := rfl

/-- Options of the publish service, whose constructor asks for the gRPC options to be set. -/
structure PublishServiceOptions where
  mGRPCOptions : GRPCServerOptions := {}
  mMaximumPublishers : Int32 := 2048
  mMaximumConsecutiveInvalidMessages : UInt32 := 8
  mMaximumMessageSizeInBytes : Option Int32 := none
  publishers_pos : 1 ≤ mMaximumPublishers := by first | exact defaultPublishers_pos | decide
  message_size_pos : mMaximumMessageSizeInBytes.all (1 ≤ ·) = true := by
    first | exact noMessageSize_pos | decide

namespace PublishServiceOptions

def setGRPCOptions (options : PublishServiceOptions) (grpcOptions : GRPCServerOptions) :
    PublishServiceOptions :=
  { options with mGRPCOptions := grpcOptions }

def setMaximumNumberOfPublishers (options : PublishServiceOptions) (maxPublishers : Int32) :
    Except Exception PublishServiceOptions :=
  if h : maxPublishers < 1 then
    .error (.invalid_argument "Maximum number of publishers must be positive")
  else
    .ok { options with mMaximumPublishers := maxPublishers, publishers_pos := one_le_of_not_lt h }

def setMaximumMessageSizeInBytes (options : PublishServiceOptions) (maxMessageSize : Int32) :
    Except Exception PublishServiceOptions :=
  if h : maxMessageSize < 1 then
    .error (.invalid_argument "Maximum message size must be positive")
  else
    .ok { options with
      mMaximumMessageSizeInBytes := some maxMessageSize
      message_size_pos := decide_eq_true (one_le_of_not_lt h) }

def setMaximumConsecutiveInvalidMessages (options : PublishServiceOptions)
    (maxInvalidMessages : UInt32) : PublishServiceOptions :=
  { options with mMaximumConsecutiveInvalidMessages := maxInvalidMessages }

end PublishServiceOptions

/-- What a publisher is told at the end of its stream. -/
structure PublishResponse where
  total_picks : UInt64 := 0
  picks_rejected : UInt64 := 0
  duplicate_picks : UInt64 := 0
  deriving DecidableEq

/-- The session of one publisher. -/
structure AsynchronousReader where
  mResponse : PublishResponse := {}
  mTotalPicks : UInt64 := 0
  mInvalidPicks : UInt64 := 0
  mRejectedPicks : UInt64 := 0
  mDuplicatePicks : UInt64 := 0
  mInvalidMessageCounter : UInt32 := 0
  mMaximumConsecutiveInvalidMessages : UInt32 := 8
  mMaximumNumberOfPublishers : Int32 := 2048
  mRegistered : Bool := false
  deriving DecidableEq

/-- What a reader does towards gRPC and the broker. -/
inductive ReaderAction (Pick : Type*) where
  | startRead
  | callback (pick : Pick)
  | finish (status : Status)
  deriving DecidableEq

/-- A message that was read, what the callback did with its pick, and the value of `mKeepRunning`
right after. -/
structure Message (Pick : Type*) where
  pick : Pick
  outcome : Except Exception Unit
  keepRunning : Bool

/-- The event `OnReadDone(ok)`; when it is not ok the stream has ended. -/
inductive ReadDone (Pick : Type*) where
  | ok (message : Message Pick)
  | notOk (keepRunning : Bool)

def tooManyInvalidMessages : Status :=
  { code := .INVALID_ARGUMENT
    message := "Too many consecutive messages were invalid - check API" }

namespace AsynchronousReader

variable {Pick : Type*}

/-- The constructor: `publisherCount` and `keepRunning` are the values it loads. It registers the
publisher when it gets past both checks. -/
def new (options : PublishServiceOptions) (client_metadata : List (String × String))
    (publisherCount : Int32) (keepRunning isSecured : Bool) :
    AsynchronousReader × List (ReaderAction Pick) :=
  let r : AsynchronousReader :=
    { mMaximumNumberOfPublishers := options.mMaximumPublishers
      mMaximumConsecutiveInvalidMessages := options.mMaximumConsecutiveInvalidMessages }
  if r.mMaximumNumberOfPublishers ≤ publisherCount then
    (r, [.finish { code := .RESOURCE_EXHAUSTED, message := "Maximum publisher limit reached" }])
  else if options.mGRPCOptions.refuses isSecured (validatePublisher client_metadata) then
    (r, [.finish .invalidAccessToken])
  else
    ({ r with mRegistered := true }, [if keepRunning then .startRead else .finish .ok])

/-- What follows the callback, by what it returned or threw. -/
def handle (r : AsynchronousReader) (outcome : Except Exception Unit) :
    AsynchronousReader × List (ReaderAction Pick) :=
  match outcome with
  | .ok () => ({ r with mInvalidMessageCounter := 0 }, [])
  | .error (.invalid_argument _) =>
    let r := { r with
      mInvalidMessageCounter := r.mInvalidMessageCounter + 1
      mInvalidPicks := r.mInvalidPicks + 1 }
    (r, if r.mMaximumConsecutiveInvalidMessages < r.mInvalidMessageCounter then
        [.finish tooManyInvalidMessages]
      else [])
  | .error (.DuplicatePickException _) =>
    ({ r with mRejectedPicks := r.mRejectedPicks + 1, mDuplicatePicks := r.mDuplicatePicks + 1 },
      [])
  | .error _ => ({ r with mRejectedPicks := r.mRejectedPicks + 1 }, [])

def onReadDone (r : AsynchronousReader) :
    ReadDone Pick → AsynchronousReader × List (ReaderAction Pick)
  | .ok message =>
    let r := { r with mTotalPicks := r.mTotalPicks + 1 }
    let (r, actions) := r.handle message.outcome
    -- The code goes on here from every handler, also from one that has called Finish.
    (r, .callback message.pick :: actions ++
      [if message.keepRunning then .startRead else .finish .serverShutdown])
  | .notOk keepRunning =>
    ({ r with
        mResponse :=
          { total_picks := r.mTotalPicks
            picks_rejected := r.mRejectedPicks
            duplicate_picks := r.mDuplicatePicks } },
      [.finish (if keepRunning then .ok else .serverShutdown)])

end AsynchronousReader

end PickBroker
