import PickBroker.Exception
import PickBroker.Framework.Int64Order

namespace PickBroker

theorem defaultRetentionDuration_pos : (1 : Int64) ≤ 15 * 60 := by decide

theorem defaultCapacity_pos : (1 : Int32) ≤ 8192 := by decide

/-- Options of the pick store. The setters reject what is below one, so no value of this type
holds an empty queue or retention. -/
structure PickStoreOptions where
  /-- Seconds. -/
  mMaximumRetentionDuration : Int64 := 15 * 60
  mMaximumQueueCapacity : Int32 := 8192
  retention_pos : 1 ≤ mMaximumRetentionDuration := by
    first | exact defaultRetentionDuration_pos | decide
  capacity_pos : 1 ≤ mMaximumQueueCapacity := by first | exact defaultCapacity_pos | decide

namespace PickStoreOptions

def setMaximumQueueCapacity (options : PickStoreOptions) (maxCapacity : Int32) :
    Except Exception PickStoreOptions :=
  if h : maxCapacity < 1 then
    .error (.invalid_argument "Maximum queue size must be positive")
  else
    .ok { options with mMaximumQueueCapacity := maxCapacity, capacity_pos := one_le_of_not_lt h }

def setMaximumRetentionDuration (options : PickStoreOptions) (duration : Int64) :
    Except Exception PickStoreOptions :=
  if h : duration < 1 then
    .error (.invalid_argument "Pick retention duration must be positive")
  else
    .ok { options with mMaximumRetentionDuration := duration, retention_pos := Int64.not_lt.mp h }

end PickStoreOptions

end PickBroker
