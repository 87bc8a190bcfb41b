import PickBroker.Api.Messages
import PickBroker.Framework.Int64Order
import PickBroker.Framework.Results

namespace PickBroker

open Framework

/-- How a call ends that does not return: it throws, or it writes past the end of a buffer, and from
then on nothing is known of the process. -/
inductive Failure where
  | threw (e : Exception)
  | overrun
  deriving DecidableEq

/-- A string stands for its `char`s one by one. -/
def isspace (c : Char) : Bool :=
  c == ' ' || c == '\t' || c == '\n' || c == '\x0b' || c == '\x0c' || c == '\r'

/-- How many characters the buffer of a copied string holds, its terminator among them. The string
itself has room for fifteen, and on the heap libstdc++ gets as many as there are. -/
def bufferSize (input : String) : ℕ := max 15 input.length + 1

/-- `std::ranges::transform` of a string within its own buffer: element `i` goes to place
`out + i`. A place behind the end is none of the string's, and one behind the buffer is none at
all. -/
def transform (op : Char → Char) (bufferSize out : ℕ) (result : List Char) :
    Except Failure (List Char) :=
  (List.range result.length).foldlM
    (fun chars i => match chars[i]? with
      | none => .ok chars
      | some c => if out + i < bufferSize then .ok (chars.set (out + i) (op c))
        else .error .overrun) result

def capitalizeAndRemoveBlanks (input : String) : Except Failure String :=
  let result := input.toList.filter fun c => !isspace c
  -- The output begins at `result.end()`.
  (transform Char.toUpper (bufferSize input) result.length result).map String.ofList

/-- The check the network, the station and the channel go through. -/
def checkAndFixCode (notSet isEmpty : String) (code : Option String) : Except Failure String :=
  match code with
  | none => .error (.threw (.invalid_argument notSet))
  | some code => do
    let code ← capitalizeAndRemoveBlanks code
    if code = "" then .error (.threw (.invalid_argument isEmpty)) else .ok code

def fixLocationCode (location_code : Option String) : Except Failure String :=
  match location_code with
  | none => .ok "--"
  | some location_code => do
    let location ← capitalizeAndRemoveBlanks location_code
    .ok (if location = "" then "--" else location)

def checkAndFixStreamIdentifier (identifier : V1.StreamIdentifier) :
    Except Failure V1.StreamIdentifier := do
  let network ← checkAndFixCode "Network not set" "Network is empty" identifier.network
  let station ← checkAndFixCode "Station not set" "Station is empty" identifier.station
  let channel ← checkAndFixCode "Channel not set" "Channel is empty" identifier.channel
  let location ← fixLocationCode identifier.location_code
  return { network := network, station := station, channel := channel, location_code := location }

def checkAndFixAlgorithm (algorithm : V1.Algorithm) : Except Failure V1.Algorithm :=
  match algorithm.version with
  | none => .error (.threw (.invalid_argument "Algorithm version not set"))
  | some _ => .ok { algorithm with name := some (algorithm.name.getD "uFilterPicker") }

/-- What `addPickCallback` does before it takes the mutex: the pick it queues, or how it fails. `now`
is the clock reading. -/
def checkAndFixPick (pick : V1.Pick) (now : Int64) : Except Failure V1.Pick :=
  match pick.stream_identifier with
  | none => .error (.threw (.invalid_argument "Stream identifier not set"))
  | some identifier =>
    match pick.time with
    | none => .error (.threw (.invalid_argument "Pick time not set"))
    | some time =>
      match pick.algorithm with
      | none => .error (.threw (.invalid_argument "Algorithm not set"))
      | some algorithm => do
        let newIdentifier ← checkAndFixStreamIdentifier identifier
        let newAlgorithm ← checkAndFixAlgorithm algorithm
        if now < time.toNanoseconds then
          throw (.threw (.invalid_argument "Pick cannot be from future"))
        return { pick with stream_identifier := newIdentifier, algorithm := newAlgorithm }

def samplePick : V1.Pick where
  stream_identifier := some
    { network := some "UU", station := some "FORK", channel := some "HHZ"
      location_code := some "01" }
  time := some {}
  algorithm := some { name := some "uFilterPicker", version := some "1.0.0" }

/-- A pick of another phase at the same station. -/
def otherPhase : V1.Pick := { samplePick with phase_hint := some .PHASE_HINT_S }

example : checkAndFixPick samplePick 0 = .ok samplePick := by decide

/-- A pick that passed: the identifier is complete, and the algorithm has a name and a version. -/
structure Normalized (pick : V1.Pick) : Prop where
  identifier : ∃ network station channel location,
    pick.stream_identifier = some ⟨some network, some station, some channel, some location⟩
  time : ∃ time, pick.time = some time
  algorithm : ∃ name version tag, pick.algorithm = some ⟨some name, some version, tag⟩

theorem checkAndFixStreamIdentifier_complete {identifier identifier' : V1.StreamIdentifier}
    (h : checkAndFixStreamIdentifier identifier = .ok identifier') :
    ∃ network station channel location,
      identifier' = ⟨some network, some station, some channel, some location⟩ := by
  obtain ⟨network, -, h⟩ := bind_eq_ok_iff.mp h
  obtain ⟨station, -, h⟩ := bind_eq_ok_iff.mp h
  obtain ⟨channel, -, h⟩ := bind_eq_ok_iff.mp h
  obtain ⟨location, -, h⟩ := bind_eq_ok_iff.mp h
  cases h
  exact ⟨network, station, channel, location, rfl⟩

theorem checkAndFixAlgorithm_complete {algorithm algorithm' : V1.Algorithm}
    (h : checkAndFixAlgorithm algorithm = .ok algorithm') :
    ∃ name version tag, algorithm' = ⟨some name, some version, tag⟩ := by
  unfold checkAndFixAlgorithm at h
  split at h
  · cases h
  · rename_i version hversion
    cases h
    exact ⟨algorithm.name.getD "uFilterPicker", version, algorithm.tag, by rw [hversion]⟩

theorem checkAndFixPick_normalized {pick pick' : V1.Pick} {now : Int64}
    (h : checkAndFixPick pick now = .ok pick') : Normalized pick' := by
  unfold checkAndFixPick at h
  split at h
  · cases h
  split at h
  · cases h
  rename_i time htime
  split at h
  · cases h
  obtain ⟨identifier, hidentifier, h⟩ := bind_eq_ok_iff.mp h
  obtain ⟨algorithm, halgorithm, h⟩ := bind_eq_ok_iff.mp h
  split at h
  · cases h
  cases h
  obtain ⟨network, station, channel, location, rfl⟩ :=
    checkAndFixStreamIdentifier_complete hidentifier
  obtain ⟨name, version, tag, rfl⟩ := checkAndFixAlgorithm_complete halgorithm
  exact ⟨⟨network, station, channel, location, rfl⟩, ⟨time, htime⟩, ⟨name, version, tag, rfl⟩⟩

end PickBroker
