import PickBroker.Framework.Int64Range
import PickBroker.Framework.Suffixes
import PickBroker.Store.Chunked
import PickBroker.Subscribe.AsynchronousWriter

namespace PickBroker

open Framework

variable {Pick : Type*}

namespace Duration

/-- The duration in nanoseconds, whatever its size. -/
def nanoseconds (d : Duration) : ℤ := d.seconds.toInt * 1000000000 + d.nanos.toInt

/-- What protobuf allows: at most ten thousand years either way, and parts of one sign. -/
structure Valid (d : Duration) : Prop where
  seconds : -315576000000 ≤ d.seconds.toInt ∧ d.seconds.toInt ≤ 315576000000
  nanos : -1000000000 < d.nanos.toInt ∧ d.nanos.toInt < 1000000000
  signs : (0 < d.seconds.toInt → 0 ≤ d.nanos.toInt) ∧ (d.seconds.toInt < 0 → d.nanos.toInt ≤ 0)

/-- The start time the constructor of a writer passes on. -/
def startTime (d : Duration) (now : Int64) : Int64 := now - d.toNanoseconds

/-- The moment the backfill begins at, or the oldest time there is when that is none. -/
def beginning (d : Duration) (now : Int64) : ℤ :=
  if Representable (now.toInt - d.nanoseconds) then now.toInt - d.nanoseconds
  else Int64.minValue.toInt

/-- No step on the way to the start time wraps. -/
structure Unwrapped (d : Duration) (now : Int64) : Prop where
  seconds : (d.seconds * 1000000000).toInt = d.seconds.toInt * 1000000000
  sum : d.toNanoseconds.toInt = (d.seconds * 1000000000).toInt + d.nanos.toInt
  difference : (d.startTime now).toInt = now.toInt - d.toNanoseconds.toInt

/-- The duration and the moment it leads to are within 64 bits. -/
def InRange (d : Duration) (now : Int64) : Prop :=
  d.nanoseconds < 2 ^ 63 ∧ now.toInt - d.nanoseconds < 2 ^ 63

end Duration

def startTimeInFuture : Exception := .invalid_argument "startTime cannot be in the future"

namespace AsynchronousWriter

/-- The writer of a client that asks for this backfill. -/
def asking (w : AsynchronousWriter Pick) (d : Duration) : AsynchronousWriter Pick :=
  { w with connection := { w.connection with request := { backfill_duration := some d } } }

/-- The store behind the attempt to subscribe; one that throws leaves it alone. -/
def afterSubscribing (w : AsynchronousWriter Pick) (store : PickStore Pick) (readings : Readings) :
    PickStore Pick :=
  match w.trySubscribe store readings with
  | .ok store => store
  | .error _ => store

end AsynchronousWriter

/-- How many picks the first `k` reads get, `n` at a time. -/
def PickStore.yield (sorting : Sorting Int64 Pick) (s : PickStore Pick) (a : UInt64) (n : ℤ)
    (k : ℕ) : ℕ :=
  (((pickStore sorting).answers s (List.replicate k (.getPicks a n))).map fun
    | .picks result => result.length
    | _ => 0).sum

/-- The backfill starts where it should, and one that does not reach into the future is not taken
for one that does while the clock does not go back. -/
structure StartsRight (Pick : Type*) (now : Int64) (d : Duration) : Prop where
  value : (d.startTime now).toInt = d.beginning now
  unwrapped : d.Unwrapped now
  accepted : 0 ≤ d.nanoseconds → ∀ (w : AsynchronousWriter Pick) store readings,
    readings.now = now → now ≤ readings.storeNow →
      (w.asking d).trySubscribe store readings ≠ .error startTimeInFuture

/-- For a client that is not subscribed yet, the stored picks in reach of the shorter backfill are
the newest of those in reach of the longer one, and reading yields no more of them. -/
structure YieldsRight (sorting : Sorting Int64 Pick) (now : Int64) (shorter longer : Duration) :
    Prop where
  reach : ∀ (w : AsynchronousWriter Pick) store readings, Reachable sorting store →
    store.mCursorMap[w.mContextAddress]? = none → readings.now = now → now ≤ readings.storeNow →
      ((w.asking shorter).afterSubscribing store readings).unread w.mContextAddress <:+
        ((w.asking longer).afterSubscribing store readings).unread w.mContextAddress
  yield : ∀ (w : AsynchronousWriter Pick) store readings, Reachable sorting store →
    store.mCursorMap[w.mContextAddress]? = none → readings.now = now → now ≤ readings.storeNow →
    (∀ e ∈ store.mDeque, e.1 ≠ MAX_TIME) → ∀ n k, 1 ≤ n →
      ((w.asking shorter).afterSubscribing store readings).yield sorting w.mContextAddress n k ≤
        ((w.asking longer).afterSubscribing store readings).yield sorting w.mContextAddress n k

structure BackfillsRight (sorting : Sorting Int64 Pick) (now : Int64) (shorter longer : Duration) :
    Prop where
  shorter_starts : StartsRight Pick now shorter
  longer_starts : StartsRight Pick now longer
  yields : shorter.nanoseconds ≤ longer.nanoseconds → 0 ≤ longer.nanoseconds →
    YieldsRight sorting now shorter longer

namespace Duration

variable {d : Duration} {now : Int64}

/-- The steps that do not wrap lead to the value. -/
theorem Unwrapped.toInt_startTime (h : d.Unwrapped now) :
    d.toNanoseconds.toInt = d.nanoseconds ∧ (d.startTime now).toInt = now.toInt - d.nanoseconds := by
  have hsum : d.toNanoseconds.toInt = d.nanoseconds := by
    rw [h.sum, h.seconds, nanoseconds]
  exact ⟨hsum, by rw [h.difference, hsum]⟩

theorem Unwrapped.inRange (h : d.Unwrapped now) : d.InRange now := by
  obtain ⟨hsum, hdifference⟩ := h.toInt_startTime
  have hupper := d.toNanoseconds.toInt_lt
  have hupper' := (d.startTime now).toInt_lt
  rw [hsum] at hupper
  rw [hdifference] at hupper'
  exact ⟨hupper, hupper'⟩

/-- As the parts have one sign, neither is further from zero than the whole. -/
theorem InRange.unwrapped (h : d.InRange now) (hvalid : d.Valid) (hnow : 0 ≤ now.toInt) :
    d.Unwrapped now := by
  obtain ⟨hupper, hupper'⟩ := h
  have hnanos := hvalid.nanos
  have hpos := hvalid.signs.1
  have hneg := hvalid.signs.2
  have hnow' := now.toInt_lt
  have hwhole : d.nanoseconds = d.seconds.toInt * 1000000000 + d.nanos.toInt := rfl
  have hthousand : (1000000000 : Int64).toInt = 1000000000 := rfl
  have hseconds : (d.seconds * 1000000000).toInt = d.seconds.toInt * 1000000000 := by
    rw [← hthousand, toInt_mul_iff, hthousand]
    constructor <;> omega
  have hsum : d.toNanoseconds.toInt = (d.seconds * 1000000000).toInt + d.nanos.toInt := by
    rw [toNanoseconds, ← Int32.toInt_toInt64, toInt_add_iff, hseconds, Int32.toInt_toInt64]
    constructor <;> omega
  refine ⟨hseconds, hsum, ?_⟩
  rw [startTime, toInt_sub_iff, hsum, hseconds]
  constructor <;> omega

theorem Unwrapped.beginning (h : d.Unwrapped now) :
    (d.startTime now).toInt = d.beginning now := by
  have hvalue := h.toInt_startTime.2
  have hrange := representable_toInt (d.startTime now)
  rw [hvalue] at hrange
  rw [Duration.beginning, if_pos hrange, hvalue]

end Duration

namespace AsynchronousWriter

variable (w : AsynchronousWriter Pick) (store : PickStore Pick) (readings : Readings)

theorem trySubscribe_asking (d : Duration) (h : readings.outOfMemory = false) :
    (w.asking d).trySubscribe store readings =
      store.subscribeSince w.mContextAddress (d.startTime readings.now) readings.storeNow := by
  simp only [trySubscribe, asking, h, Duration.startTime, mContextAddress, Bool.false_eq_true,
    if_false]

/-- What is in reach after the attempt: all since the start time, unless it was refused. -/
theorem unread_afterSubscribing (d : Duration)
    (hnew : store.mCursorMap[w.mContextAddress]? = none) :
    ((w.asking d).afterSubscribing store readings).unread w.mContextAddress =
      if readings.outOfMemory = true ∨ (readings.storeNow < d.startTime readings.now ∧
          d.startTime readings.now ≠ MAX_TIME) then []
      else since (d.startTime readings.now) store.mDeque := by
  cases hmemory : readings.outOfMemory with
  | true => simp [afterSubscribing, trySubscribe, hmemory, PickStore.unread_of_none hnew]
  | false =>
    rw [afterSubscribing, trySubscribe_asking w store readings d hmemory, PickStore.subscribeSince]
    by_cases hfuture : readings.storeNow < d.startTime readings.now ∧
        d.startTime readings.now ≠ MAX_TIME
    · simp [hfuture, PickStore.unread_of_none hnew]
    · rw [if_neg hfuture, if_neg (by simpa using hfuture)]
      exact PickStore.unread_of_cursor (by simp)

theorem afterSubscribing_mDeque (d : Duration) :
    ((w.asking d).afterSubscribing store readings).mDeque = store.mDeque := by
  cases hmemory : readings.outOfMemory with
  | true => simp [afterSubscribing, trySubscribe, hmemory]
  | false =>
    rw [afterSubscribing, trySubscribe_asking w store readings d hmemory, PickStore.subscribeSince]
    split_ifs <;> rfl

end AsynchronousWriter

theorem PickStore.yield_eq (sorting : Sorting Int64 Pick) {s : PickStore Pick}
    (h : Ordered s.mDeque) (hmax : ∀ e ∈ s.mDeque, e.1 ≠ MAX_TIME) (a : UInt64) {n : ℤ}
    (hn : 1 ≤ n) (k : ℕ) :
    s.yield sorting a n k = (batches n.toNat k (s.unread a)).flatten.length := by
  rw [yield, answers_reads h hmax hn, List.map_map, List.length_flatten]
  congr 1
  apply List.map_congr_left
  intro b _
  simp

section Starts

variable {now : Int64} {d shorter longer : Duration}

/-- A start time that was computed without a wrap is no later than the clock when the backfill is
not negative. -/
theorem Duration.Unwrapped.not_future (h : d.Unwrapped now) (hd : 0 ≤ d.nanoseconds)
    {storeNow : Int64} (hclock : now ≤ storeNow) : ¬ storeNow < d.startTime now := by
  have hvalue := h.toInt_startTime.2
  rw [Int64.le_iff_toInt_le] at hclock
  rw [Int64.lt_iff_toInt_lt]
  omega

theorem startsRight_iff (Pick : Type*) (hvalid : d.Valid) (hnow : 0 ≤ now.toInt) :
    StartsRight Pick now d ↔ d.InRange now := by
  constructor
  · intro h
    exact h.unwrapped.inRange
  · intro h
    have hunwrapped := h.unwrapped hvalid hnow
    refine ⟨hunwrapped.beginning, hunwrapped, ?_⟩
    intro hd w store readings hreadings hclock
    subst hreadings
    have hpast := hunwrapped.not_future hd hclock
    cases hmemory : readings.outOfMemory with
    | true => simp [AsynchronousWriter.trySubscribe, hmemory, startTimeInFuture]
    | false =>
      rw [AsynchronousWriter.trySubscribe_asking w store readings d hmemory,
        PickStore.subscribeSince, if_neg fun hfuture => hpast hfuture.1]
      simp

/-- The longer backfill begins no later, so what the shorter one reaches it reaches as well. -/
theorem reach_suffix {store : PickStore Pick} (hord : Ordered store.mDeque)
    (hshorter : shorter.Unwrapped now) (hlonger : longer.Unwrapped now)
    (hle : shorter.nanoseconds ≤ longer.nanoseconds) (hd : 0 ≤ longer.nanoseconds)
    (w : AsynchronousWriter Pick) (hnew : store.mCursorMap[w.mContextAddress]? = none)
    {readings : Readings} (hreadings : readings.now = now) (hclock : now ≤ readings.storeNow) :
    ((w.asking shorter).afterSubscribing store readings).unread w.mContextAddress <:+
      ((w.asking longer).afterSubscribing store readings).unread w.mContextAddress := by
  subst hreadings
  rw [w.unread_afterSubscribing store readings shorter hnew,
    w.unread_afterSubscribing store readings longer hnew]
  have hpast := hlonger.not_future hd hclock
  have hstart : longer.startTime readings.now ≤ shorter.startTime readings.now := by
    rw [Int64.le_iff_toInt_le, hshorter.toInt_startTime.2, hlonger.toInt_startTime.2]
    omega
  cases hmemory : readings.outOfMemory with
  | true => simp
  | false =>
    split
    · exact List.nil_suffix
    · rw [if_neg (by simp [hpast])]
      exact hord.since_suffix hstart

theorem yieldsRight (sorting : Sorting Int64 Pick) (hshorter : shorter.Unwrapped now)
    (hlonger : longer.Unwrapped now) (hle : shorter.nanoseconds ≤ longer.nanoseconds)
    (hd : 0 ≤ longer.nanoseconds) : YieldsRight sorting now shorter longer := by
  constructor
  · intro w store readings hstore hnew hreadings hclock
    exact reach_suffix hstore.ordered hshorter hlonger hle hd w hnew hreadings hclock
  · intro w store readings hstore hnew hreadings hclock hmax n k hn
    have hsuffix :=
      reach_suffix hstore.ordered hshorter hlonger hle hd w hnew hreadings hclock
    have hdeque := w.afterSubscribing_mDeque store readings
    have hord (d : Duration) : Ordered ((w.asking d).afterSubscribing store readings).mDeque := by
      rw [hdeque d]
      exact hstore.ordered
    rw [PickStore.yield_eq sorting (hord shorter) (by rwa [hdeque]) _ hn,
      PickStore.yield_eq sorting (hord longer) (by rwa [hdeque]) _ hn]
    have hunread := (hord longer).sublist (PickStore.unread_sublist _ w.mContextAddress)
    exact hunread.length_batches_le (by omega) k hsuffix

end Starts

/-- Two valid backfills are served right exactly when both durations and both start times are
within 64 bits: nothing stops a longer one from wrapping. -/
theorem backfills_right_iff (sorting : Sorting Int64 Pick) {now : Int64} {shorter longer : Duration}
    (hshorter : shorter.Valid) (hlonger : longer.Valid) (hnow : 0 ≤ now.toInt) :
    BackfillsRight sorting now shorter longer ↔ shorter.InRange now ∧ longer.InRange now := by
  constructor
  · intro h
    exact ⟨h.shorter_starts.unwrapped.inRange, h.longer_starts.unwrapped.inRange⟩
  · intro hranges
    obtain ⟨hshort, hlong⟩ := hranges
    refine ⟨(startsRight_iff Pick hshorter hnow).mpr hshort,
      (startsRight_iff Pick hlonger hnow).mpr hlong, ?_⟩
    intro hle hd
    exact yieldsRight sorting (hshort.unwrapped hshorter hnow) (hlong.unwrapped hlonger hnow) hle hd

def anHour : Duration := { seconds := 3600, nanos := 0 }

theorem anHour_valid : anHour.Valid := ⟨by decide, by decide, by decide⟩

def fourCenturies : Duration := { seconds := 12622780800, nanos := 0 }

theorem fourCenturies_valid : fourCenturies.Valid := ⟨by decide, by decide, by decide⟩

theorem backfills_right_iff_anHour :
    BackfillsRight (Sorting.stable Int64 ℕ) 1750000000000000000 anHour fourCenturies ↔
      anHour.InRange 1750000000000000000 ∧ fourCenturies.InRange 1750000000000000000 :=
  backfills_right_iff (Sorting.stable Int64 ℕ) anHour_valid fourCenturies_valid (by decide)

/-- Who asks for the picks of four centuries is told that they are in the future. -/
theorem fourCenturies_in_future (w : AsynchronousWriter Pick) (store : PickStore Pick) :
    (w.asking fourCenturies).trySubscribe store
        { now := 1750000000000000000, storeNow := 1750000000000000000 } =
      .error startTimeInFuture := by
  rw [AsynchronousWriter.trySubscribe_asking _ _ _ _ rfl, PickStore.subscribeSince,
    if_pos (by decide)]
  rfl

theorem fourCenturies_not_right :
    ¬ BackfillsRight (Sorting.stable Int64 ℕ) 1750000000000000000 anHour fourCenturies := by
  intro h
  have hduration : 0 ≤ fourCenturies.nanoseconds := by decide
  exact h.longer_starts.accepted hduration { connection := { contextAddress := 101 } }
    (PickStore.new {}) _ rfl (by decide) (fourCenturies_in_future _ _)

end PickBroker
