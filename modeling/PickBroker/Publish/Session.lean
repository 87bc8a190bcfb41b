import PickBroker.Publish.AsynchronousReader
import PickBroker.Framework.Machine

namespace PickBroker

open Framework

variable {Pick : Type*}

namespace ReaderAction

def isFinish : ReaderAction Pick → Bool
  | .finish _ => true
  | _ => false

def isStartRead : ReaderAction Pick → Bool
  | .startRead => true
  | _ => false

end ReaderAction

/-- A reader with the reads it has started that gRPC has not answered, and all it has done. -/
structure Session (Pick : Type*) where
  reader : AsynchronousReader
  outstanding : ℕ
  trace : List (ReaderAction Pick)

namespace Session

def opened (options : PublishServiceOptions) (client_metadata : List (String × String))
    (publisherCount : Int32) (keepRunning isSecured : Bool) : Session Pick :=
  let (reader, actions) :=
    AsynchronousReader.new options client_metadata publisherCount keepRunning isSecured
  { reader := reader, outstanding := actions.countP ReaderAction.isStartRead, trace := actions }

end Session

/-- The events of one session, one after the other; the answers are what the reader does. -/
def session : Machine (Session Pick) (ReadDone Pick) (List (ReaderAction Pick)) where
  step S event :=
    let (reader, actions) := S.reader.onReadDone event
    ({ reader := reader
       outstanding := S.outstanding - 1 + actions.countP ReaderAction.isStartRead
       trace := S.trace ++ actions }, actions)

/-- gRPC answers started reads only. -/
def Answered (S : Session Pick) (_ : ReadDone Pick) : Prop := 1 ≤ S.outstanding

instance (S : Session Pick) (event : ReadDone Pick) : Decidable (Answered S event) :=
  inferInstanceAs (Decidable (1 ≤ S.outstanding))

/-- Nothing is done after a Finish: no second one, no read, no pick handed on. -/
def Orderly (trace : List (ReaderAction Pick)) : Prop :=
  ∀ before status after, trace = before ++ .finish status :: after → after = []

/-- The message does not make the reader purge its publisher. -/
def WithinLimit (S : Session Pick) : ReadDone Pick → Prop
  | .ok message => ∀ what, message.outcome = .error (.invalid_argument what) →
      S.reader.mInvalidMessageCounter + 1 ≤ S.reader.mMaximumConsecutiveInvalidMessages
  | .notOk _ => True

section Trace

variable {l k : List (ReaderAction Pick)}

/-- A Finish may come last. -/
theorem orderly_concat (h : ∀ x ∈ l, x.isFinish = false) (x : ReaderAction Pick) :
    Orderly (l ++ [x]) := by
  intro before status after heq
  cases List.eq_nil_or_concat after with
  | inl hnil => exact hnil
  | inr hcons =>
    obtain ⟨after', y, rfl⟩ := hcons
    rw [List.concat_eq_append, ← List.cons_append, ← List.append_assoc] at heq
    have hl := (List.append_inj' heq rfl).1
    have hmem : ReaderAction.finish status ∈ l := by
      rw [hl]
      simp
    exact absurd (h _ hmem) (by simp [ReaderAction.isFinish])

/-- What has gone wrong stays so. -/
theorem Orderly.of_append (h : Orderly (l ++ k)) : Orderly l := by
  intro before status after heq
  have hall := h before status (after ++ k) (by rw [heq]; simp)
  exact (List.append_eq_nil_iff.mp hall).1

end Trace

theorem trace_next (S : Session Pick) (event : ReadDone Pick) :
    (session.next S event).trace = S.trace ++ (S.reader.onReadDone event).2 := rfl

theorem outstanding_next (S : Session Pick) (event : ReadDone Pick) :
    (session.next S event).outstanding =
      S.outstanding - 1 + (S.reader.onReadDone event).2.countP ReaderAction.isStartRead := rfl

theorem trace_final (S : Session Pick) (events : List (ReadDone Pick)) :
    ∃ later, (session.final S events).trace = S.trace ++ later := by
  induction events generalizing S with
  | nil => exact ⟨[], by simp⟩
  | cons event events ih =>
    obtain ⟨later, h⟩ := ih (session.next S event)
    refine ⟨(S.reader.onReadDone event).2 ++ later, ?_⟩
    rw [Machine.final_cons, h, trace_next, List.append_assoc]

/-- Within the limit the reader ends every event with its one read or Finish. -/
theorem onReadDone_within {S : Session Pick} {event : ReadDone Pick} (h : WithinLimit S event) :
    ∃ before last, (S.reader.onReadDone event).2 = before ++ [last] ∧
      ∀ x ∈ before, x.isFinish = false ∧ x.isStartRead = false := by
  cases event with
  | notOk keepRunning => exact ⟨[], _, rfl, by simp⟩
  | ok message =>
    obtain ⟨pick, outcome, keepRunning⟩ := message
    refine ⟨[.callback pick], if keepRunning then .startRead else .finish .serverShutdown, ?_,
      by simp [ReaderAction.isFinish, ReaderAction.isStartRead]⟩
    cases outcome with
    | ok _ => rfl
    | error e =>
      cases e with
      | invalid_argument what =>
        have hle := h what rfl
        simp [AsynchronousReader.onReadDone, AsynchronousReader.handle, UInt32.not_lt.mpr hle]
      | runtime_error what => rfl
      | DuplicatePickException what => rfl
      | bad_alloc what => rfl

/-- Past the limit it finishes and goes on. -/
theorem onReadDone_past {S : Session Pick} {event : ReadDone Pick} (h : ¬ WithinLimit S event) :
    ∃ pick last, (S.reader.onReadDone event).2 =
      [.callback pick] ++ .finish tooManyInvalidMessages :: [last] := by
  cases event with
  | notOk keepRunning => exact absurd trivial h
  | ok message =>
    obtain ⟨pick, outcome, keepRunning⟩ := message
    simp only [WithinLimit, not_forall] at h
    obtain ⟨what, rfl, hlt⟩ := h
    refine ⟨pick, if keepRunning then .startRead else .finish .serverShutdown, ?_⟩
    simp [AsynchronousReader.onReadDone, AsynchronousReader.handle, UInt32.not_le.mp hlt]

/-- What a session keeps within the limit: at most one read is outstanding, and none after a
Finish. -/
structure Session.Proper (S : Session Pick) : Prop where
  one : S.outstanding ≤ 1
  unfinished : 1 ≤ S.outstanding → ∀ x ∈ S.trace, x.isFinish = false
  orderly : Orderly S.trace

theorem proper_of_last (reader : AsynchronousReader) {l : List (ReaderAction Pick)}
    (h : ∀ x ∈ l, x.isFinish = false) (last : ReaderAction Pick) :
    Session.Proper { reader := reader, outstanding := [last].countP ReaderAction.isStartRead,
                     trace := l ++ [last] } := by
  refine ⟨List.countP_le_length, ?_, orderly_concat h last⟩
  intro hstart x hx
  rcases List.mem_append.mp hx with hx | hx
  · exact h x hx
  · obtain ⟨y, hy, hread⟩ := List.countP_pos_iff.mp hstart
    rw [List.mem_singleton.mp hx, ← List.mem_singleton.mp hy]
    cases y with
    | startRead => rfl
    | callback pick => rfl
    | finish status => cases hread

theorem Session.opened_proper (options : PublishServiceOptions)
    (client_metadata : List (String × String)) (publisherCount : Int32)
    (keepRunning isSecured : Bool) :
    (Session.opened options client_metadata publisherCount keepRunning isSecured :
      Session Pick).Proper := by
  have hlast : ∃ reader last, AsynchronousReader.new options client_metadata publisherCount
      keepRunning isSecured = (reader, [(last : ReaderAction Pick)]) := by
    unfold AsynchronousReader.new
    dsimp only
    split
    · exact ⟨_, _, rfl⟩
    · split <;> exact ⟨_, _, rfl⟩
  obtain ⟨reader, last, h⟩ := hlast
  rw [Session.opened, h]
  exact proper_of_last reader (l := []) (by simp) last

theorem proper_next {S : Session Pick} (h : S.Proper) (event : ReadDone Pick)
    (hanswered : Answered S event) (hwithin : WithinLimit S event) :
    (session.next S event).Proper := by
  obtain ⟨before, last, hactions, hbefore⟩ := onReadDone_within hwithin
  have hnone : ∀ x ∈ S.trace ++ before, x.isFinish = false := by
    intro x hx
    rcases List.mem_append.mp hx with hx | hx
    · exact h.unfinished hanswered x hx
    · exact (hbefore x hx).1
  have hcount : before.countP ReaderAction.isStartRead = 0 :=
    List.countP_eq_zero.mpr fun x hx => by simp [(hbefore x hx).2]
  have hone : S.outstanding - 1 = 0 := Nat.sub_eq_zero_of_le h.one
  have hnext : session.next S event =
      { reader := (session.next S event).reader
        outstanding := [last].countP ReaderAction.isStartRead
        trace := S.trace ++ before ++ [last] } := by
    have ht := trace_next S event
    have ho := outstanding_next S event
    rw [hactions, ← List.append_assoc] at ht
    rw [hactions, List.countP_append, hcount, hone, Nat.zero_add, Nat.zero_add] at ho
    rw [← ht, ← ho]
  rw [hnext]
  exact proper_of_last _ hnone last

/-- A purge leaves an action behind its Finish, whatever comes later. -/
theorem not_orderly_of_past {S : Session Pick} {event : ReadDone Pick}
    (h : ¬ WithinLimit S event) (events : List (ReadDone Pick)) :
    ¬ Orderly (session.final S (event :: events)).trace := by
  obtain ⟨pick, last, hactions⟩ := onReadDone_past h
  obtain ⟨later, htrace⟩ := trace_final (session.next S event) events
  intro horderly
  rw [Machine.final_cons, htrace, trace_next, hactions, ← List.append_assoc] at horderly
  exact absurd (horderly.of_append _ _ _ rfl) (List.cons_ne_nil _ _)

/-- In a session whose reads gRPC answers one by one, nothing follows a Finish exactly when no
invalid message comes once the limit is reached. -/
theorem session_orderly_iff (options : PublishServiceOptions)
    (client_metadata : List (String × String)) (publisherCount : Int32)
    (keepRunning isSecured : Bool) (events : List (ReadDone Pick))
    (hanswered : session.Meets Answered
      (Session.opened options client_metadata publisherCount keepRunning isSecured) events) :
    Orderly (session.final
        (Session.opened options client_metadata publisherCount keepRunning isSecured)
        events).trace ↔
      session.Meets WithinLimit
        (Session.opened options client_metadata publisherCount keepRunning isSecured) events := by
  have hopened : Session.Proper (Session.opened options client_metadata publisherCount keepRunning
    isSecured : Session Pick) := Session.opened_proper ..
  generalize Session.opened options client_metadata publisherCount keepRunning isSecured = S at *
  constructor
  · intro horderly
    by_contra hpast
    obtain ⟨before, event, after, rfl, -, h⟩ := Machine.exists_first_break _ hpast
    rw [Machine.final_append] at horderly
    exact not_orderly_of_past h after horderly
  · intro hwithin
    have keep (S : Session Pick) (event : ReadDone Pick) (h : S.Proper)
        (hok : Answered S event ∧ WithinLimit S event) : (session.next S event).Proper :=
      proper_next h event hok.1 hok.2
    have hok := (Machine.meets_and session Answered WithinLimit S events).mpr
      ⟨hanswered, hwithin⟩
    exact (Machine.invariant _ keep hopened hok).orderly

def invalidMessages (n : ℕ) : List (ReadDone ℕ) :=
  List.replicate n (.ok { pick := 7, outcome := .error (.invalid_argument "bad pick"),
                          keepRunning := true })

theorem session_orderly_iff_eight :
    Orderly (session.final (Session.opened {} [] 0 true false) (invalidMessages 8)).trace ↔
      session.Meets WithinLimit (Session.opened {} [] 0 true false) (invalidMessages 8) :=
  session_orderly_iff {} [] 0 true false (invalidMessages 8) (by decide)

/-- The ninth invalid message in a row finishes the session, and the next read is started. -/
theorem ninth_invalid_message_reads_on :
    session.Meets Answered (Session.opened {} [] 0 true false) (invalidMessages 9) ∧
      ¬ Orderly (session.final (Session.opened {} [] 0 true false) (invalidMessages 9)).trace := by
  refine ⟨by decide, ?_⟩
  intro h
  have hend := h ((session.final (Session.opened {} [] 0 true false)
    (invalidMessages 9)).trace.take 18) tooManyInvalidMessages [.startRead] (by decide)
  exact absurd hend (List.cons_ne_nil _ _)

end PickBroker
