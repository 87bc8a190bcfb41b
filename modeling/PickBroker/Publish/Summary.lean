import PickBroker.Publish.Session
import Mathlib.Algebra.Group.Nat.Defs

namespace PickBroker

open Framework

variable {Pick : Type*}

/-- What the callback did with a pick, as the API documents it. -/
inductive Reaction where
  | accepted
  | invalid
  | duplicate
  | failed
  deriving DecidableEq

def Message.reaction (message : Message Pick) : Reaction :=
  match message.outcome with
  | .ok () => .accepted
  | .error (.invalid_argument _) => .invalid
  | .error (.DuplicatePickException _) => .duplicate
  | .error _ => .failed

/-- How many messages met with a reaction. -/
def tally (messages : List (Message Pick)) (reaction : Reaction) : ℕ :=
  messages.countP fun message => message.reaction = reaction

/-- What the API documents about the response. -/
structure Summarizes (response : PublishResponse) (messages : List (Message Pick)) : Prop where
  total : response.total_picks.toNat = messages.length
  accepted : (response.total_picks.toNat : ℤ) - response.picks_rejected.toNat =
    tally messages .accepted
  duplicates : response.duplicate_picks.toNat = tally messages .duplicate
  others : (response.picks_rejected.toNat : ℤ) - response.duplicate_picks.toNat =
    tally messages .invalid + tally messages .failed

theorem tally_cons (message : Message Pick) (messages : List (Message Pick)) (reaction : Reaction) :
    tally (message :: messages) reaction =
      tally messages reaction + if message.reaction = reaction then 1 else 0 := by
  simp [tally, List.countP_cons]

/-- Every message meets with one reaction. -/
theorem length_eq_tally (messages : List (Message Pick)) :
    messages.length = tally messages .accepted + tally messages .invalid +
      tally messages .duplicate + tally messages .failed := by
  induction messages with
  | nil => rfl
  | cons message messages ih =>
    simp only [List.length_cons, tally_cons, ih]
    cases message.reaction <;> simp <;> omega

theorem tally_eq_zero {messages : List (Message Pick)} {reaction : Reaction} :
    tally messages reaction = 0 ↔ ∀ message ∈ messages, message.reaction ≠ reaction := by
  simp [tally, List.countP_eq_zero]

/-- The three counters of the response. -/
structure Counted (r r' : AsynchronousReader) (total rejected duplicate : ℕ) : Prop where
  total : r'.mTotalPicks = r.mTotalPicks + UInt64.ofNat total
  rejected : r'.mRejectedPicks = r.mRejectedPicks + UInt64.ofNat rejected
  duplicate : r'.mDuplicatePicks = r.mDuplicatePicks + UInt64.ofNat duplicate

/-- One message: a pick refused as invalid is not counted as rejected. -/
theorem counted_next (S : Session Pick) (message : Message Pick) :
    Counted S.reader (session.next S (.ok message)).reader 1
      ((if message.reaction = .duplicate then 1 else 0) +
        if message.reaction = .failed then 1 else 0)
      (if message.reaction = .duplicate then 1 else 0) := by
  obtain ⟨pick, outcome, keepRunning⟩ := message
  cases outcome with
  | ok _ =>
    constructor <;> simp [Message.reaction, Machine.next, session,
      AsynchronousReader.onReadDone, AsynchronousReader.handle]
  | error e =>
    cases e <;> constructor <;> simp [Message.reaction, Machine.next, session,
      AsynchronousReader.onReadDone, AsynchronousReader.handle]

theorem counted_final (S : Session Pick) (messages : List (Message Pick)) :
    Counted S.reader (session.final S (messages.map .ok)).reader messages.length
      (tally messages .duplicate + tally messages .failed) (tally messages .duplicate) := by
  induction messages generalizing S with
  | nil => constructor <;> simp [tally]
  | cons message messages ih =>
    have hfirst := counted_next S message
    have hlater := ih (session.next S (.ok message))
    constructor
    · rw [List.map_cons, Machine.final_cons, hlater.total, hfirst.total, List.length_cons,
        Nat.add_comm, UInt64.ofNat_add, UInt64.add_assoc]
    · rw [List.map_cons, Machine.final_cons, hlater.rejected, hfirst.rejected, tally_cons,
        tally_cons, UInt64.add_assoc, ← UInt64.ofNat_add]
      congr 2
      omega
    · rw [List.map_cons, Machine.final_cons, hlater.duplicate, hfirst.duplicate, tally_cons,
        UInt64.add_assoc, ← UInt64.ofNat_add]
      congr 2
      omega

/-- The response filled in at the end of a stream, whose counters start at zero. -/
theorem response_final {S : Session Pick} (htotal : S.reader.mTotalPicks = 0)
    (hrejected : S.reader.mRejectedPicks = 0) (hduplicate : S.reader.mDuplicatePicks = 0)
    (messages : List (Message Pick)) (keepRunning : Bool) :
    (session.final S (messages.map .ok ++ [.notOk keepRunning])).reader.mResponse =
      { total_picks := UInt64.ofNat messages.length
        picks_rejected := UInt64.ofNat (tally messages .duplicate + tally messages .failed)
        duplicate_picks := UInt64.ofNat (tally messages .duplicate) } := by
  have h := counted_final S messages
  rw [Machine.final_append]
  change PublishResponse.mk _ _ _ = _
  rw [h.total, h.rejected, h.duplicate, htotal, hrejected, hduplicate]
  simp

theorem new_counters (Pick : Type*) (options : PublishServiceOptions)
    (client_metadata : List (String × String)) (publisherCount : Int32)
    (keepRunning isSecured : Bool) :
    let S : Session Pick :=
      Session.opened options client_metadata publisherCount keepRunning isSecured
    S.reader.mTotalPicks = 0 ∧ S.reader.mRejectedPicks = 0 ∧ S.reader.mDuplicatePicks = 0 := by
  simp only [Session.opened, AsynchronousReader.new]
  split
  · exact ⟨rfl, rfl, rfl⟩
  · split <;> exact ⟨rfl, rfl, rfl⟩

/-- The response says what the API documents exactly when the messages can be counted in 64 bits
and the callback refused none of them as invalid. -/
theorem summarizes_iff (options : PublishServiceOptions)
    (client_metadata : List (String × String)) (publisherCount : Int32)
    (keepRunning isSecured : Bool) (messages : List (Message Pick)) (stillRunning : Bool) :
    Summarizes (session.final
        (Session.opened options client_metadata publisherCount keepRunning isSecured)
        (messages.map .ok ++ [.notOk stillRunning])).reader.mResponse messages ↔
      messages.length < 2 ^ 64 ∧ ∀ message ∈ messages, message.reaction ≠ .invalid := by
  obtain ⟨ht, hr, hd⟩ := new_counters Pick options client_metadata publisherCount keepRunning
    isSecured
  rw [response_final ht hr hd, ← tally_eq_zero]
  have hsum := length_eq_tally messages
  constructor
  · intro h
    have htotal := h.total
    have haccepted := h.accepted
    simp only [UInt64.toNat_ofNat'] at htotal haccepted
    omega
  · intro hparts
    obtain ⟨hlt, hnone⟩ := hparts
    constructor <;> simp only [UInt64.toNat_ofNat'] <;> omega

/-- An accepted, a duplicate and an invalid pick. -/
def threeMessages : List (Message ℕ) :=
  [{ pick := 1, outcome := .ok (), keepRunning := true },
    { pick := 1, outcome := .error (.DuplicatePickException "again"), keepRunning := true },
    { pick := 2, outcome := .error (.invalid_argument "bad pick"), keepRunning := true }]

/-- The invalid pick is not among the rejected ones, so it is taken for accepted. -/
theorem threeMessages_not_summarized :
    ¬ Summarizes (session.final (Session.opened {} [] 0 true false)
      (threeMessages.map .ok ++ [.notOk true])).reader.mResponse threeMessages := by
  intro h
  have haccepted := h.accepted
  revert haccepted
  decide

end PickBroker
