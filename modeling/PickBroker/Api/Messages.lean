import PickBroker.Exception
import Mathlib.Data.List.Basic

/-! The messages of the publish and subscribe services: a field that is not set is `none`, and a
getter then reads the default of the proto file. -/

namespace PickBroker.V1

structure StreamIdentifier where
  network : Option String := none
  station : Option String := none
  channel : Option String := none
  location_code : Option String := none
  deriving DecidableEq

/-- `google.protobuf.Timestamp`: its fields have no presence. -/
structure Timestamp where
  seconds : Int64 := 0
  nanos : Int32 := 0
  deriving DecidableEq

/-- An open enumeration: a value without a name is kept as it is. -/
inductive PhaseHint where
  | PHASE_HINT_UNKNOWN
  | PHASE_HINT_P
  | PHASE_HINT_S
  | unnamed (value : Int32) (h : value < 0 ∨ 2 < value)
  deriving DecidableEq

structure Algorithm where
  name : Option String := none
  version : Option String := none
  tag : Option String := none
  deriving DecidableEq

structure Pick where
  stream_identifier : Option StreamIdentifier := none
  time : Option Timestamp := none
  phase_hint : Option PhaseHint := none
  algorithm : Option Algorithm := none
  deriving DecidableEq

namespace StreamIdentifier

def getNetwork (identifier : StreamIdentifier) : String := identifier.network.getD ""

def getStation (identifier : StreamIdentifier) : String := identifier.station.getD ""

def getChannel (identifier : StreamIdentifier) : String := identifier.channel.getD ""

def getLocationCode (identifier : StreamIdentifier) : String := identifier.location_code.getD "--"

end StreamIdentifier

namespace Algorithm

def getName (algorithm : Algorithm) : String := algorithm.name.getD "uFilterPicker"

def getVersion (algorithm : Algorithm) : String := algorithm.version.getD ""

def getTag (algorithm : Algorithm) : String := algorithm.tag.getD ""

end Algorithm

/-- `TimeUtil::TimestampToNanoseconds`. -/
def Timestamp.toNanoseconds (time : Timestamp) : Int64 :=
  time.seconds * 1000000000 + time.nanos.toInt64

namespace Pick

def getStreamIdentifier (pick : Pick) : StreamIdentifier := pick.stream_identifier.getD {}

def getTime (pick : Pick) : Timestamp := pick.time.getD {}

def getPhaseHint (pick : Pick) : PhaseHint := pick.phase_hint.getD .PHASE_HINT_UNKNOWN

def getAlgorithm (pick : Pick) : Algorithm := pick.algorithm.getD {}

end Pick

/-- Two picks read equal through the getters. -/
def comparePicks (lhs rhs : Pick) : Bool :=
  lhs.getStreamIdentifier.getNetwork = rhs.getStreamIdentifier.getNetwork ∧
    lhs.getStreamIdentifier.getStation = rhs.getStreamIdentifier.getStation ∧
    lhs.getStreamIdentifier.getChannel = rhs.getStreamIdentifier.getChannel ∧
    lhs.getStreamIdentifier.getLocationCode = rhs.getStreamIdentifier.getLocationCode ∧
    lhs.getTime.toNanoseconds = rhs.getTime.toNanoseconds ∧
    lhs.getPhaseHint = rhs.getPhaseHint ∧
    lhs.getAlgorithm.getName = rhs.getAlgorithm.getName ∧
    lhs.getAlgorithm.getVersion = rhs.getAlgorithm.getVersion ∧
    lhs.getAlgorithm.getTag = rhs.getAlgorithm.getTag

end PickBroker.V1
