import PickBroker.Store.PickStoreOptions
import PickBroker.Framework.Machine
import PickBroker.Framework.TimedLog

namespace PickBroker

open Framework

/-- The cursor of a subscriber that has no start time yet. -/
def MAX_TIME : Int64 := Int64.maxValue

/-- The store of received picks, oldest first, with one read cursor for each subscriber.
Times are nanoseconds since the epoch in 64-bit integers. -/
structure PickStore (Pick : Type*) where
  mCursorMap : Std.ExtTreeMap UInt64 Int64 := {}
  mDeque : List (Int64 × Pick) := []
  mMaxHistory : Int64 := 15 * 60 * 1000000000
  mMaxQueueCapacity : ℕ := 8192

namespace PickStore

variable {Pick : Type*}

/-- The constructor without backfill keeps the defaults: it reads no option. -/
def new (_options : PickStoreOptions) : PickStore Pick := {}

def cleanDeque (s : PickStore Pick) (oldestPickToKeep : Int64) : PickStore Pick :=
  let halfQueueCapacity := s.mMaxQueueCapacity / 2
  if s.mDeque.length < halfQueueCapacity then s
  else { s with mDeque := s.mDeque.dropWhile fun e => e.1 < oldestPickToKeep }

/-- `cleanDeque()` with the clock reading it takes. -/
def cleanDequeAt (s : PickStore Pick) (now : Int64) : PickStore Pick :=
  s.cleanDeque (now - s.mMaxHistory)

/-- The constructor with backfill. -/
def backfilled (sorting : Sorting Int64 Pick) (options : PickStoreOptions)
    (backfillPicks : List (Int64 × Pick)) (now : Int64) : PickStore Pick :=
  cleanDequeAt
    { mDeque := sorting.sort backfillPicks
      mMaxHistory := options.mMaximumRetentionDuration * 1000000000
      mMaxQueueCapacity := options.mMaximumQueueCapacity.toInt.toNat } now

def subscribe (s : PickStore Pick) (contextAddress : UInt64) : PickStore Pick :=
  { s with mCursorMap := s.mCursorMap.insert contextAddress MAX_TIME }

/-- `subscribe` with a start time; `now` is the clock reading it compares with. -/
def subscribeSince (s : PickStore Pick) (contextAddress : UInt64) (startTime now : Int64) :
    Except Exception (PickStore Pick) :=
  if now < startTime ∧ startTime ≠ MAX_TIME then
    .error (.invalid_argument "startTime cannot be in the future")
  else
    .ok { s with mCursorMap := s.mCursorMap.insert contextAddress startTime }

def unsubscribe (s : PickStore Pick) (contextAddress : UInt64) : PickStore Pick :=
  { s with mCursorMap := s.mCursorMap.erase contextAddress }

/-- The new pick is older than the newest stored one. -/
def sortDeque (deque : List (Int64 × Pick)) (receivedTime : Int64) : Bool :=
  match deque.getLast? with
  | none => false
  | some back => receivedTime < back.1

def insertPick (sorting : Sorting Int64 Pick) (deque : List (Int64 × Pick))
    (item : Int64 × Pick) : List (Int64 × Pick) :=
  if sortDeque deque item.1 then sorting.sort (deque ++ [item]) else deque ++ [item]

/-- `now` is the clock reading of the `cleanDeque` call. -/
def enqueue (sorting : Sorting Int64 Pick) (s : PickStore Pick) (receivedTime : Int64)
    (pick : Pick) (now : Int64) : PickStore Pick :=
  let s := s.cleanDequeAt now
  let mDeque := insertPick sorting s.mDeque (receivedTime, pick)
  -- The deque holds at least the new item, so there is a back element.
  let newest := (mDeque.getLast?.map Prod.fst).getD receivedTime
  { s with
    mDeque := mDeque
    mCursorMap := s.mCursorMap.map fun _ cursor => if cursor = MAX_TIME then newest else cursor }

/-- The loop of `getPicks`: it carries the picks collected so far and the last read time. -/
def collect (cursor : Int64) (maximumNumberOfPicks : ℤ) :
    List Pick × Int64 → List (Int64 × Pick) → List Pick × Int64
  | acc, [] => acc
  | (result, lastReadTime), (time, pick) :: rest =>
    let acc := if cursor ≤ time then (result ++ [pick], time) else (result, lastReadTime)
    if maximumNumberOfPicks ≤ acc.1.length then acc
    else collect cursor maximumNumberOfPicks acc rest

def getPicks (s : PickStore Pick) (contextAddress : UInt64) (maximumNumberOfPicks : ℤ) :
    Except Exception (List Pick × PickStore Pick) :=
  if maximumNumberOfPicks < 1 then
    .error (.invalid_argument "Maximum number of picks must be positive")
  else match s.mCursorMap[contextAddress]? with
    | none => .ok ([], s)
    | some cursor =>
      let (result, lastReadTime) := collect cursor maximumNumberOfPicks ([], cursor) s.mDeque
      if result.isEmpty then .ok ([], s)
      else .ok (result, { s with
        mCursorMap := s.mCursorMap.insert contextAddress (lastReadTime + 1) })

/-- `assert(lastReadTime > cursor)` of a debug build: it is reached only when the call has
collected a pick. -/
def assertionHolds (s : PickStore Pick) (contextAddress : UInt64) (maximumNumberOfPicks : ℤ) :
    Bool :=
  match s.mCursorMap[contextAddress]? with
  | none => true
  | some cursor =>
    let (result, lastReadTime) := collect cursor maximumNumberOfPicks ([], cursor) s.mDeque
    result.isEmpty || cursor < lastReadTime

def getNumberOfSubscribers (s : PickStore Pick) : Int32 := Int32.ofNat s.mCursorMap.size

def isSubscribed (s : PickStore Pick) (contextAddress : UInt64) : Bool :=
  s.mCursorMap.contains contextAddress

end PickStore

/-- A call of the store's interface, with the clock reading it takes. -/
inductive Call (Pick : Type*) where
  | subscribe (contextAddress : UInt64)
  | subscribeSince (contextAddress : UInt64) (startTime now : Int64)
  | unsubscribe (contextAddress : UInt64)
  | enqueue (receivedTime : Int64) (pick : Pick) (now : Int64)
  | getPicks (contextAddress : UInt64) (maximumNumberOfPicks : ℤ)

/-- The received times of the picks a run enqueues. -/
def receivedTimes {Pick : Type*} (calls : List (Call Pick)) : List Int64 :=
  calls.filterMap fun
    | .enqueue receivedTime _ _ => some receivedTime
    | _ => none

inductive Answer (Pick : Type*) where
  | done
  | picks (result : List Pick)
  | threw (e : Exception)
  deriving DecidableEq

/-- The pick store as a machine: the calls are serialised by its mutex. -/
def pickStore {Pick : Type*} (sorting : Sorting Int64 Pick) :
    Machine (PickStore Pick) (Call Pick) (Answer Pick) where
  step s
    | .subscribe a => (s.subscribe a, .done)
    | .subscribeSince a startTime now =>
      match s.subscribeSince a startTime now with
      | .ok s' => (s', .done)
      | .error e => (s, .threw e)
    | .unsubscribe a => (s.unsubscribe a, .done)
    | .enqueue receivedTime pick now => (s.enqueue sorting receivedTime pick now, .done)
    | .getPicks a n =>
      match s.getPicks a n with
      | .ok (result, s') => (s', .picks result)
      | .error e => (s, .threw e)

/-- The two ways to build a pick store. -/
inductive Construction (Pick : Type*) where
  | new (options : PickStoreOptions)
  | backfilled (options : PickStoreOptions) (backfillPicks : List (Int64 × Pick)) (now : Int64)

namespace Construction

variable {Pick : Type*}

def build (sorting : Sorting Int64 Pick) : Construction Pick → PickStore Pick
  | .new options => PickStore.new options
  | .backfilled options picks now => PickStore.backfilled sorting options picks now

/-- The picks the store is given at construction. -/
def picks : Construction Pick → List (Int64 × Pick)
  | .new _ => []
  | .backfilled _ picks _ => picks

end Construction

/-- The states of all runs from both constructors. -/
def Reachable {Pick : Type*} (sorting : Sorting Int64 Pick) (s : PickStore Pick) : Prop :=
  ∃ start calls, s = (pickStore sorting).final (Construction.build sorting start) calls

end PickBroker
