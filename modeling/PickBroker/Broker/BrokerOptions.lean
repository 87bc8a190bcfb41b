import PickBroker.Publish.AsynchronousReader
import PickBroker.Subscribe.AsynchronousWriter

namespace PickBroker

theorem defaultPickRetention_pos : (0 : Int64) < 30 * 60 * 1000 := by decide

/-- Options of the broker; those of a service that are not set are `none`. The setters reject an
empty queue and a retention interval that is not positive. -/
structure BrokerOptions where
  mPublishServiceOptions : Option PublishServiceOptions := none
  mSubscribeServiceOptions : Option SubscribeServiceOptions := none
  /-- Milliseconds. -/
  mPickRetention : Int64 := 30 * 60 * 1000
  mQueueCapacity : Int32 := 8192
  retention_pos : 0 < mPickRetention := by first | exact defaultPickRetention_pos | decide
  capacity_pos : 1 ≤ mQueueCapacity := by first | exact defaultCapacity_pos | decide

namespace BrokerOptions

/-- The two services may not have one port. -/
def setPublishServiceOptions (options : BrokerOptions) (publish : PublishServiceOptions) :
    Except Exception BrokerOptions :=
  match options.mSubscribeServiceOptions with
  | some subscribe =>
    if publish.mGRPCOptions.mPort = subscribe.mGRPCOptions.mPort then
      .error (.invalid_argument "Cannot bind publish service to subscribe service port")
    else .ok { options with mPublishServiceOptions := some publish }
  | none => .ok { options with mPublishServiceOptions := some publish }

def setSubscribeServiceOptions (options : BrokerOptions) (subscribe : SubscribeServiceOptions) :
    Except Exception BrokerOptions :=
  match options.mPublishServiceOptions with
  | some publish =>
    if subscribe.mGRPCOptions.mPort = publish.mGRPCOptions.mPort then
      .error (.invalid_argument "Cannot bind subscribe service to publish service port")
    else .ok { options with mSubscribeServiceOptions := some subscribe }
  | none => .ok { options with mSubscribeServiceOptions := some subscribe }

def setQueueCapacity (options : BrokerOptions) (capacity : Int32) :
    Except Exception BrokerOptions :=
  if h : capacity < 1 then
    .error (.invalid_argument "Queue capacity must be positive")
  else
    .ok { options with mQueueCapacity := capacity, capacity_pos := one_le_of_not_lt h }

def setPickRetentionInterval (options : BrokerOptions) (pickRetention : Int64) :
    Except Exception BrokerOptions :=
  if h : pickRetention ≤ 0 then
    .error (.invalid_argument "Pick retention interval must be positive")
  else
    .ok { options with mPickRetention := pickRetention, retention_pos := Int64.not_le.mp h }

end BrokerOptions

end PickBroker
