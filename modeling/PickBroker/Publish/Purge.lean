import PickBroker.Publish.Session
import PickBroker.Framework.Streaks
import Mathlib.Data.List.Induction
import Mathlib.Algebra.Group.Nat.Defs

namespace PickBroker

open Framework

variable {Pick : Type*}

namespace Message

/-- The callback refused the message with `std::invalid_argument`. -/
def invalid (message : Message Pick) : Bool :=
  match message.outcome with
  | .error (.invalid_argument _) => true
  | _ => false

/-- The callback returned. -/
def accepted (message : Message Pick) : Bool :=
  match message.outcome with
  | .ok () => true
  | .error _ => false

end Message

/-- Message `k` completes an unbroken row of `m` invalid messages. -/
def CompletesRow (m : UInt32) (messages : List (Message Pick)) (k : ℕ) : Prop :=
  k < messages.length ∧ row Message.invalid (messages.take (k + 1)) = m.toNat

/-- With message `k` there have been `m + 1` invalid messages since the last accepted one, a number
that the counter can hold. -/
def ExceedsSinceAccepted (m : UInt32) (messages : List (Message Pick)) (k : ℕ) : Prop :=
  k < messages.length ∧ m.toNat + 1 < 2 ^ 32 ∧
    countSince Message.invalid Message.accepted (messages.take (k + 1)) = m.toNat + 1

/-- At message `k` the reader finishes with INVALID_ARGUMENT. -/
def Purges (S : Session Pick) (messages : List (Message Pick)) (k : ℕ) : Prop :=
  ∃ actions, (session.answers S (messages.map .ok))[k]? = some actions ∧
    .finish tooManyInvalidMessages ∈ actions

/-- What the counter of a reader says after these messages. -/
structure CountsInvalid (m : UInt32) (messages : List (Message Pick)) (r : AsynchronousReader) :
    Prop where
  maximum : r.mMaximumConsecutiveInvalidMessages = m
  counter : r.mInvalidMessageCounter =
    UInt32.ofNat (countSince Message.invalid Message.accepted messages)

section Counter

variable {m : UInt32} {messages : List (Message Pick)} {S : Session Pick}

theorem counts_next (h : CountsInvalid m messages S.reader) (message : Message Pick) :
    CountsInvalid m (messages ++ [message]) (session.next S (.ok message)).reader := by
  obtain ⟨pick, outcome, keepRunning⟩ := message
  have hcounter := h.counter
  change CountsInvalid m _ (S.reader.onReadDone (.ok ⟨pick, outcome, keepRunning⟩)).1
  cases outcome with
  | ok _ =>
    refine ⟨h.maximum, ?_⟩
    rw [countSince_concat]
    rfl
  | error e =>
    cases e with
    | invalid_argument what =>
      refine ⟨h.maximum, ?_⟩
      rw [countSince_concat]
      simp only [AsynchronousReader.onReadDone, AsynchronousReader.handle, hcounter,
        Message.accepted, Message.invalid, Bool.false_eq_true, if_false, if_true]
      exact (UInt32.ofNat_add _ 1).symm
    | runtime_error what | DuplicatePickException what | bad_alloc what =>
      refine ⟨h.maximum, ?_⟩
      rw [countSince_concat]
      exact hcounter

theorem counts_final (h : CountsInvalid m ([] : List (Message Pick)) S.reader) (messages : List (Message Pick)) :
    CountsInvalid m messages (session.final S (messages.map .ok)).reader := by
  induction messages using List.reverseRecOn with
  | nil => exact h
  | append_singleton messages message ih =>
    rw [List.map_append, Machine.final_append]
    exact counts_next ih message

theorem purges_message_iff {r : AsynchronousReader} {message : Message Pick} :
    .finish tooManyInvalidMessages ∈ (r.onReadDone (.ok message)).2 ↔
      message.invalid = true ∧
        r.mMaximumConsecutiveInvalidMessages < r.mInvalidMessageCounter + 1 := by
  obtain ⟨pick, outcome, keepRunning⟩ := message
  have hlast : (.finish tooManyInvalidMessages : ReaderAction Pick) ≠
      if keepRunning then .startRead else .finish .serverShutdown := by
    cases keepRunning <;> simp [tooManyInvalidMessages, Status.serverShutdown]
  cases outcome with
  | ok _ => simp [AsynchronousReader.onReadDone, AsynchronousReader.handle, Message.invalid, hlast]
  | error e =>
    cases e with
    | invalid_argument what =>
      simp [AsynchronousReader.onReadDone, AsynchronousReader.handle, Message.invalid, hlast]
    | runtime_error what | DuplicatePickException what | bad_alloc what =>
      simp [AsynchronousReader.onReadDone, AsynchronousReader.handle, Message.invalid, hlast]

theorem purges_iff (h : CountsInvalid m ([] : List (Message Pick)) S.reader) {k : ℕ} (hk : k < messages.length) :
    Purges S messages k ↔ messages[k].invalid = true ∧
      m < UInt32.ofNat (countSince Message.invalid Message.accepted (messages.take k)) + 1 := by
  have hcounts := counts_final h (messages.take k)
  have hanswer : (session.answers S (messages.map .ok))[k]? =
      some ((session.final S ((messages.take k).map .ok)).reader.onReadDone (.ok messages[k])).2 := by
    rw [Machine.answers_getElem?, ← List.map_take, List.getElem?_map,
      List.getElem?_eq_getElem hk]
    rfl
  rw [Purges, hanswer, ← hcounts.counter, ← hcounts.maximum, ← purges_message_iff]
  simp

theorem not_purges {k : ℕ} (hk : messages.length ≤ k) : ¬ Purges S messages k := by
  intro h
  obtain ⟨actions, hactions, -⟩ := h
  rw [Machine.answers_getElem?, List.getElem?_map, List.getElem?_eq_none hk] at hactions
  cases hactions

/-- The number of invalid messages passes no value up to the limit by. -/
theorem countSince_le (hfits : m.toNat + 1 < 2 ^ 32) {k : ℕ}
    (hbefore : ∀ j < k, ¬ ExceedsSinceAccepted m messages j) :
    countSince Message.invalid Message.accepted (messages.take k) ≤ m.toNat := by
  induction k with
  | zero => simp
  | succ k ih =>
    have hle := ih fun j hj => hbefore j (by omega)
    by_cases hk : k < messages.length
    · have hnot := hbefore k (by omega)
      have hgrows := countSince_concat_le Message.invalid Message.accepted (messages.take k)
        messages[k]
      rw [← List.take_succ_eq_append_getElem hk] at hgrows
      have hne : countSince Message.invalid Message.accepted (messages.take (k + 1)) ≠
          m.toNat + 1 := fun heq => hnot ⟨hk, hfits, heq⟩
      omega
    · rwa [List.take_of_length_le (by omega), ← List.take_of_length_le (show
        messages.length ≤ k by omega)]

/-- Up to the first purge, the reader purges with the message that exceeds the limit. -/
theorem purges_iff_exceeds (h : CountsInvalid m ([] : List (Message Pick)) S.reader) {k : ℕ}
    (hbefore : ∀ j < k, ¬ ExceedsSinceAccepted m messages j) :
    Purges S messages k ↔ ExceedsSinceAccepted m messages k := by
  by_cases hk : k < messages.length
  · rw [purges_iff h hk, ExceedsSinceAccepted]
    by_cases hfits : m.toNat + 1 < 2 ^ 32
    · have hle := countSince_le hfits hbefore
      rw [List.take_succ_eq_append_getElem hk, countSince_concat]
      generalize countSince Message.invalid Message.accepted (messages.take k) = c at hle ⊢
      have hcounter : (UInt32.ofNat c + 1).toNat = c + 1 := by
        have hone : UInt32.ofNat c + 1 = UInt32.ofNat (c + 1) := (UInt32.ofNat_add c 1).symm
        have hlt : c + 1 < 2 ^ 32 := by omega
        rw [hone, UInt32.toNat_ofNat_of_lt' hlt]
      rw [UInt32.lt_iff_toNat_lt, hcounter]
      have hexclusive : messages[k].invalid = true → messages[k].accepted = false := by
        intro hinvalid
        rw [Message.invalid] at hinvalid
        split at hinvalid
        · simp [Message.accepted, *]
        · cases hinvalid
      cases hinvalid : messages[k].invalid with
      | true =>
        simp only [hexclusive hinvalid, Bool.false_eq_true, if_false, if_true, true_and, hk, hfits]
        omega
      | false =>
        cases messages[k].accepted with
        | true => simp
        | false =>
          simp only [Bool.false_eq_true, if_false, false_and, false_iff, hk, hfits, true_and]
          omega
    · constructor
      · intro hpurges
        have hlt := UInt32.lt_iff_toNat_lt.mp hpurges.2
        have hmax := (UInt32.ofNat (countSince Message.invalid Message.accepted
          (messages.take k)) + 1).toNat_lt
        omega
      · intro hexceeds
        exact absurd hexceeds.2.1 hfits
  · constructor
    · intro hpurges
      exact absurd hpurges (not_purges (by omega))
    · intro hexceeds
      exact absurd hexceeds.1 hk

end Counter

theorem opened_counts (options : PublishServiceOptions) (client_metadata : List (String × String))
    (publisherCount : Int32) (keepRunning isSecured : Bool) :
    CountsInvalid options.mMaximumConsecutiveInvalidMessages ([] : List (Message Pick))
      (Session.opened options client_metadata publisherCount keepRunning isSecured :
        Session Pick).reader := by
  rw [Session.opened, AsynchronousReader.new]
  dsimp only
  split
  · exact ⟨rfl, rfl⟩
  · split <;> exact ⟨rfl, rfl⟩

/-- A session first ends for invalid messages where a row of them is first completed exactly when
no message completes a row or exceeds the limit, or the first to do the one is the first to do the
other: the reader counts on over messages that were neither accepted nor invalid, and ends the
session one message late. -/
theorem purge_at_row_iff (options : PublishServiceOptions)
    (client_metadata : List (String × String)) (publisherCount : Int32)
    (keepRunning isSecured : Bool) (messages : List (Message Pick)) :
    (∀ k, FirstAt (Purges (Session.opened options client_metadata publisherCount keepRunning
          isSecured) messages) k ↔
        FirstAt (CompletesRow options.mMaximumConsecutiveInvalidMessages messages) k) ↔
      (∀ k, ¬ CompletesRow options.mMaximumConsecutiveInvalidMessages messages k ∧
        ¬ ExceedsSinceAccepted options.mMaximumConsecutiveInvalidMessages messages k) ∨
      ∃ k, FirstAt (CompletesRow options.mMaximumConsecutiveInvalidMessages messages) k ∧
        FirstAt (ExceedsSinceAccepted options.mMaximumConsecutiveInvalidMessages messages) k := by
  have hopened : CountsInvalid options.mMaximumConsecutiveInvalidMessages
      ([] : List (Message Pick)) _ :=
    opened_counts options client_metadata publisherCount keepRunning isSecured
  have hfirst (k : ℕ) : FirstAt (Purges (Session.opened options client_metadata publisherCount
      keepRunning isSecured) messages) k ↔ FirstAt (ExceedsSinceAccepted
        options.mMaximumConsecutiveInvalidMessages messages) k :=
    firstAt_congr (fun k hbefore => purges_iff_exceeds hopened hbefore) k
  rw [← firstAt_agree_iff]
  constructor
  · intro h k
    exact (h k).symm.trans (hfirst k)
  · intro h k
    exact (hfirst k).trans (h k).symm

/-- After two invalid messages the publisher is to be purged. -/
def allowsTwo : PublishServiceOptions := { mMaximumConsecutiveInvalidMessages := 2 }

def refusedMessage : Message ℕ :=
  { pick := 7, outcome := .error (.invalid_argument "bad pick"), keepRunning := true }

def duplicateMessage : Message ℕ :=
  { pick := 7, outcome := .error (.DuplicatePickException "known"), keepRunning := true }

/-- The second invalid message in a row is read on from, and three that duplicates keep apart end
the session. -/
theorem purges_off_the_row :
    let S := Session.opened allowsTwo [] 0 true false
    let three := [refusedMessage, refusedMessage, refusedMessage]
    let apart := [refusedMessage, duplicateMessage, refusedMessage, duplicateMessage,
      refusedMessage]
    CompletesRow 2 three 1 ∧ ¬ Purges S three 1 ∧
      ¬ (∀ k, FirstAt (Purges S three) k ↔ FirstAt (CompletesRow 2 three) k) ∧
      (∀ k < 5, ¬ CompletesRow 2 apart k) ∧ Purges S apart 4 := by
  have hnot : ¬ Purges (Session.opened allowsTwo [] 0 true false)
      [refusedMessage, refusedMessage, refusedMessage] 1 := by
    intro h
    obtain ⟨actions, hactions, hfinish⟩ := h
    have hanswer : (session.answers (Session.opened allowsTwo [] 0 true false)
        ([refusedMessage, refusedMessage, refusedMessage].map .ok))[1]? =
        some [.callback 7, .startRead] := by decide
    rw [hanswer] at hactions
    cases hactions
    simp at hfinish
  refine ⟨⟨by decide, by decide⟩, hnot, ?_, ?_, ⟨_, rfl, by decide⟩⟩
  · intro h
    have hrow : FirstAt (CompletesRow 2 [refusedMessage, refusedMessage, refusedMessage]) 1 := by
      refine ⟨⟨by decide, by decide⟩, ?_⟩
      intro j hj hcompletes
      obtain rfl : j = 0 := by omega
      have hlength := hcompletes.2
      revert hlength
      decide
    exact hnot ((h 1).mpr hrow).1
  · have hrows : ∀ k < 5, row Message.invalid ([refusedMessage, duplicateMessage, refusedMessage,
        duplicateMessage, refusedMessage].take (k + 1)) ≠ 2 := by decide
    intro k hk hcompletes
    exact hrows k hk hcompletes.2

end PickBroker
