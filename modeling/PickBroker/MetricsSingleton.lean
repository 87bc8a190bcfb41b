import Mathlib.Init

namespace PickBroker

/-- The counters of what comes in. -/
structure MetricsSingleton where
  mOverflowInputPicksCounter : Int64 := 0
  mPicksReceivedCounter : Int64 := 0
  mInvalidPicksReceivedCounter : Int64 := 0
  mDuplicatePicksCounter : Int64 := 0

namespace MetricsSingleton

def incrementOverflowInputPicksCounter (m : MetricsSingleton) : MetricsSingleton :=
  { m with mOverflowInputPicksCounter := m.mOverflowInputPicksCounter + 1 }

def incrementPicksReceivedCounter (m : MetricsSingleton) : MetricsSingleton :=
  { m with mPicksReceivedCounter := m.mPicksReceivedCounter + 1 }

def getPicksReceivedCount (m : MetricsSingleton) : Int64 := m.mPicksReceivedCounter

def incrementInvalidPicksReceivedCounter (m : MetricsSingleton) : MetricsSingleton :=
  { m with mInvalidPicksReceivedCounter := m.mInvalidPicksReceivedCounter + 1 }

def getInvalidPicksReceivedCount (m : MetricsSingleton) : Int64 := m.mInvalidPicksReceivedCounter

def incrementDuplicatePicksReceivedCounter (m : MetricsSingleton) : MetricsSingleton :=
  { m with mDuplicatePicksCounter := m.mDuplicatePicksCounter + 1 }

def resetCounters (_ : MetricsSingleton) : MetricsSingleton := {}

end MetricsSingleton

end PickBroker
