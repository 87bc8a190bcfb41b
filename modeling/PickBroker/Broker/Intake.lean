import PickBroker.Publish.PublishService
import PickBroker.Broker.Acceptance
import PickBroker.Broker.Deduplication
import PickBroker.Broker.Queueing

namespace PickBroker

open Framework

/-- The broker and the readers that call it back. `waiting` are the readers whose call of
`addPickCallback` is behind the mutex, with the message they read, in the order of the broker's
`callbacks`. -/
structure Intake (Bytes : Type*) where
  service : PublishService
  broker : Broker Bytes
  waiting : List (ℕ × V1.Pick) := []

/-- `onReadDone` is a message that reader `i` has read, with the clock reading of the callback and
what it finds in `mKeepRunning` afterwards. -/
inductive IntakeEvent where
  | onReadDone (i : ℕ) (pick : V1.Pick) (now : Int64) (keepRunning : Bool)
  | callbackReturns (k : ℕ) (keepRunning : Bool)
  | service (event : PublishEvent V1.Pick)
  | broker (event : BrokerEvent)

/-- `submitted` also has the clock reading of the callback. -/
inductive IntakeAction where
  | submitted (i : ℕ) (pick : V1.Pick) (now : Int64)
  | broker (action : Action)
  | reader (action : ReaderAction V1.Pick)
  deriving DecidableEq

/-- The refusals that are to be counted. -/
def Action.isInvalid : Action → Bool
  | .refused (.invalid_argument _) => true
  | _ => false

/-- What a call of `addPickCallback` has thrown. -/
def thrown (actions : List Action) : Option Exception :=
  actions.findSome? fun | .refused e => some e | _ => none

/-- The steps of the broker that the readers do not take. -/
def BrokerEvent.besidesReaders : BrokerEvent → Bool
  | .addPickCallback _ _ | .callbackReturns _ => false
  | _ => true

namespace Intake

variable {Bytes : Type*} (I : Intake Bytes)

def isWaiting (i : ℕ) : Bool := I.waiting.any fun w => w.1 == i

/-- Reader `i` is there and has handled what it has read before. -/
def reads (i : ℕ) : Bool :=
  match I.service.publishers[i]? with
  | none => false
  | some P => P.pc == .opened && !I.isWaiting i

/-- The steps of the publish service besides reading messages: gRPC tells a reader nothing while it
handles a message. -/
def permits : PublishEvent V1.Pick → Bool
  | .reader i (.onReadDone (.notOk _)) | .reader i .onDone => !I.isWaiting i
  | .reader _ (.onReadDone (.ok _)) => false
  | _ => true

/-- The rest of `OnReadDone` behind the callback. -/
def handle (i : ℕ) (message : Message V1.Pick) : Intake Bytes × List IntakeAction :=
  let (service, actions) := I.service.react i (.onReadDone (.ok message))
  ({ I with service := service }, actions.map .reader)

/-- `OnReadDone`, up to the mutex of the broker when the callback does not throw. When the callback
overruns a buffer, the message is the last one of the process. -/
def onReadDone (i : ℕ) (pick : V1.Pick) (now : Int64) (keepRunning : Bool) :
    Intake Bytes × List IntakeAction :=
  if I.reads i then
    let (broker, actions) := I.broker.addPickCallback pick now
    let I := { I with broker := broker }
    match thrown actions with
    | some e =>
      let (I, reactions) := I.handle i
        { pick := pick, outcome := .error e, keepRunning := keepRunning }
      (I, .submitted i pick now :: actions.map .broker ++ reactions)
    | none =>
      if .overran pick ∈ actions then (I, actions.map .broker)
      else
        ({ I with waiting := I.waiting ++ [(i, pick)] },
          .submitted i pick now :: actions.map .broker)
  else (I, [])

def callbackReturns (k : ℕ) (keepRunning : Bool) : Intake Bytes × List IntakeAction :=
  match I.waiting[k]? with
  | none => (I, [])
  | some (i, pick) =>
    let (broker, actions) := I.broker.callbackReturns k
    let I := { I with broker := broker, waiting := I.waiting.eraseIdx k }
    let (I, reactions) := I.handle i
      { pick := pick, outcome := .ok (), keepRunning := keepRunning }
    (I, actions.map .broker ++ reactions)

/-- `resetCounters` at any moment. -/
def resetCounters : Intake Bytes :=
  { I with broker := { I.broker with mMetrics := I.broker.mMetrics.resetCounters } }

/-- Nobody has submitted anything yet. -/
def new (options : PublishServiceOptions) (broker : Broker Bytes) : Intake Bytes :=
  { service := .new options, broker := broker }

end Intake

/-- Any number of readers feed the broker, while its own threads and the subscribers run. -/
def intake {Bytes : Type*} [DecidableEq Bytes] (codec : Codec Bytes)
    (sorting : Sorting Int64 V1.Pick) : Machine (Intake Bytes) IntakeEvent (List IntakeAction) where
  step I
    | .onReadDone i pick now keepRunning => I.onReadDone i pick now keepRunning
    | .callbackReturns k keepRunning => I.callbackReturns k keepRunning
    | .service event =>
      if I.permits event then
        ({ I with service := publishService.next I.service event },
          (publishService.answer I.service event).map .reader)
      else (I, [])
    | .broker event =>
      if event.besidesReaders then
        ({ I with broker := (broker codec sorting).next I.broker event },
          ((broker codec sorting).answer I.broker event).map .broker)
      else (I, [])

section Counts

variable (tr : List IntakeAction)

/-- The number of messages submitted. -/
def submitted : ℕ := tr.countP fun | .submitted _ _ _ => true | _ => false

def brokerActions : List Action := tr.filterMap fun | .broker action => some action | _ => none

/-- The number of messages refused with `std::invalid_argument`. -/
def refusedInvalid : ℕ := (brokerActions tr).countP Action.isInvalid

end Counts

/-- The two counters account for the messages submitted. -/
structure Intake.Balanced {Bytes : Type*} (I : Intake Bytes) (tr : List IntakeAction) : Prop where
  total : (submitted tr : ℤ) = I.broker.mMetrics.getPicksReceivedCount.toInt +
    I.broker.mMetrics.getInvalidPicksReceivedCount.toInt
  invalid : I.broker.mMetrics.getInvalidPicksReceivedCount.toInt = refusedInvalid tr

/-- A message that is submitted passes the checks of the broker. -/
def SubmitsValid {Bytes : Type*} (I : Intake Bytes) : IntakeEvent → Prop
  | .onReadDone i pick now _ => I.reads i = true → ∀ e, checkAndFixPick pick now ≠ .error (.threw e)
  | _ => True

section Reports

variable (tr tr' : List IntakeAction) (actions : List Action)
  (reactions : List (ReaderAction V1.Pick))

@[simp] theorem submitted_append : submitted (tr ++ tr') = submitted tr + submitted tr' :=
  List.countP_append

@[simp] theorem submitted_cons (i : ℕ) (pick : V1.Pick) (now : Int64) :
    submitted (.submitted i pick now :: tr) = submitted tr + 1 := List.countP_cons_of_pos rfl

@[simp] theorem submitted_broker : submitted (actions.map .broker) = 0 := by
  simp [submitted]

@[simp] theorem submitted_reader : submitted (reactions.map .reader) = 0 := by
  simp [submitted]

@[simp] theorem brokerActions_append :
    brokerActions (tr ++ tr') = brokerActions tr ++ brokerActions tr' := List.filterMap_append

@[simp] theorem brokerActions_cons (i : ℕ) (pick : V1.Pick) (now : Int64) :
    brokerActions (.submitted i pick now :: tr) = brokerActions tr := rfl

@[simp] theorem brokerActions_broker : brokerActions (actions.map .broker) = actions := by
  simp [brokerActions, List.filterMap_map]

@[simp] theorem brokerActions_reader : brokerActions (reactions.map .reader) = [] := by
  simp [brokerActions]

@[simp] theorem refusedInvalid_append :
    refusedInvalid (tr ++ tr') = refusedInvalid tr + refusedInvalid tr' := by
  rw [refusedInvalid, brokerActions_append, List.countP_append]
  rfl

end Reports

theorem Broker.not_overran {Bytes : Type*} (B : Broker Bytes) {pick : V1.Pick} {now : Int64}
    (hcheck : checkAndFixPick pick now ≠ .error .overrun) :
    .overran pick ∉ (B.addPickCallback pick now).2 := fun hmem =>
  hcheck (checkAndFixPick_overrun_iff.mpr ((overran_iff B pick now).mp hmem))

namespace Intake

variable {Bytes : Type*} (I : Intake Bytes)

@[simp] theorem handle_broker (i : ℕ) (message : Message V1.Pick) :
    (I.handle i message).1.broker = I.broker := rfl

@[simp] theorem handle_submitted (i : ℕ) (message : Message V1.Pick) :
    submitted (I.handle i message).2 = 0 := submitted_reader _

@[simp] theorem handle_brokerActions (i : ℕ) (message : Message V1.Pick) :
    brokerActions (I.handle i message).2 = [] := brokerActions_reader _

theorem onReadDone_overrun {i : ℕ} (hreads : I.reads i = true) {pick : V1.Pick} {now : Int64}
    (hcheck : checkAndFixPick pick now = .error .overrun) (keepRunning : Bool) :
    I.onReadDone i pick now keepRunning = (I, [.broker (.overran pick)]) := by
  simp [onReadDone, hreads, Broker.addPickCallback, hcheck, thrown]

/-- A message that is submitted is accepted, or refused as invalid. -/
theorem onReadDone_cases {i : ℕ} (hreads : I.reads i = true) {pick : V1.Pick} {now : Int64}
    (hcheck : checkAndFixPick pick now ≠ .error .overrun) (keepRunning : Bool) :
    (I.onReadDone i pick now keepRunning).1.broker = (I.broker.addPickCallback pick now).1 ∧
      brokerActions (I.onReadDone i pick now keepRunning).2 =
        (I.broker.addPickCallback pick now).2 ∧
      submitted (I.onReadDone i pick now keepRunning).2 = 1 := by
  simp only [onReadDone, hreads, if_true, if_neg (I.broker.not_overran hcheck)]
  split
  · simp
  · simp

end Intake

section Callback

variable {Bytes : Type*} (B : Broker Bytes) (pick : V1.Pick) (now : Int64)

/-- A call of `addPickCallback` either queues its pick or throws `std::invalid_argument`. -/
theorem accepted_or_refused (hinside : checkAndFixPick pick now ≠ .error .overrun) :
    (accepted (B.addPickCallback pick now).2).length +
      (B.addPickCallback pick now).2.countP Action.isInvalid = 1 := by
  unfold Broker.addPickCallback
  cases hcheck : checkAndFixPick pick now with
  | error failure =>
    cases failure with
    | overrun => exact absurd hcheck hinside
    | threw e =>
      obtain ⟨what, rfl⟩ := checkAndFixPick_error hcheck
      rfl
  | ok fixed =>
    have hpopped (popped : List V1.Pick) :
        (popped.map Action.overflowed).countP Action.isInvalid = 0 := by
      simp [List.countP_eq_zero, Action.isInvalid]
    simp [accepted, List.filterMap_map, List.countP_append, hpopped, Action.isInvalid]

theorem no_refusal_iff :
    (∀ a ∈ (B.addPickCallback pick now).2, a.isInvalid = false) ↔
      ∀ e, checkAndFixPick pick now ≠ .error (.threw e) := by
  unfold Broker.addPickCallback
  cases hcheck : checkAndFixPick pick now with
  | error failure =>
    cases failure with
    | overrun => simp [Action.isInvalid]
    | threw e =>
      obtain ⟨what, rfl⟩ := checkAndFixPick_error hcheck
      simp [Action.isInvalid]
  | ok fixed => simp [Action.isInvalid, or_imp, forall_and]

end Callback

section Steps

variable {Bytes : Type*} [DecidableEq Bytes] (codec : Codec Bytes)
  (sorting : Sorting Int64 V1.Pick)

/-- Nothing but a call of `addPickCallback` accepts anything. -/
theorem accepts_nothing (B : Broker Bytes) {event : BrokerEvent}
    (h : ∀ pick now, event ≠ .addPickCallback pick now) :
    accepted ((broker codec sorting).answer B event) = [] := by
  rw [accepted_answer]
  cases event with
  | addPickCallback pick now => exact absurd rfl (h pick now)
  | _ => rfl

/-- Nothing but a call of `addPickCallback` refuses anything. -/
theorem refuses_nothing (B : Broker Bytes) {event : BrokerEvent}
    (h : ∀ pick now, event ≠ .addPickCallback pick now) :
    ((broker codec sorting).answer B event).countP Action.isInvalid = 0 := by
  cases event with
  | addPickCallback pick now => exact absurd rfl (h pick now)
  | callbackReturns k =>
    simp only [Machine.answer, broker, Broker.callbackReturns]
    split <;> rfl
  | processPick readings =>
    simp only [Machine.answer, broker, Broker.processPick]
    repeat' split
    all_goals rfl
  | cleanDatabase now stmt =>
    simp only [Machine.answer, broker, Broker.cleanDatabase]
    repeat' split
    all_goals rfl
  | stop fetched => rfl
  | streamSince contextAddress request client_metadata =>
    simp only [Machine.answer, broker, Broker.serve]
    split <;> rfl
  | reactor i event =>
    simp only [Machine.answer, broker, Broker.serve]
    split
    · rfl
    · simp [List.countP_eq_zero, Action.isInvalid]

/-- What a step of the intake can be for the broker: nothing, an overrun, the submission of a
message, or a step that submits nothing. The number is that of the messages submitted. -/
inductive IntakeMoves (I : Intake Bytes) (event : IntakeEvent) :
    Broker Bytes → List Action → ℕ → Prop where
  | idle (valid : SubmitsValid I event) : IntakeMoves I event I.broker [] 0
  | overrun (pick : V1.Pick) (now : Int64) (overran : checkAndFixPick pick now = .error .overrun)
    (valid : SubmitsValid I event) : IntakeMoves I event I.broker [.overran pick] 0
  | submit (pick : V1.Pick) (now : Int64)
    (inside : checkAndFixPick pick now ≠ .error .overrun)
    (valid : SubmitsValid I event ↔ ∀ e, checkAndFixPick pick now ≠ .error (.threw e)) :
    IntakeMoves I event (I.broker.addPickCallback pick now).1
      (I.broker.addPickCallback pick now).2 1
  | other (step : BrokerEvent) (h : ∀ pick now, step ≠ .addPickCallback pick now)
    (valid : SubmitsValid I event) :
    IntakeMoves I event ((broker codec sorting).next I.broker step)
      ((broker codec sorting).answer I.broker step) 0

theorem intake_moves (I : Intake Bytes) (event : IntakeEvent) :
    IntakeMoves codec sorting I event ((intake codec sorting).next I event).broker
      (brokerActions ((intake codec sorting).answer I event))
      (submitted ((intake codec sorting).answer I event)) := by
  cases event with
  | onReadDone i pick now keepRunning =>
    cases hreads : I.reads i with
    | false =>
      simp only [Machine.answer, Machine.next, intake, Intake.onReadDone, hreads]
      exact .idle (by simp [SubmitsValid, hreads])
    | true =>
      change IntakeMoves codec sorting I _ (I.onReadDone i pick now keepRunning).1.broker
        (brokerActions (I.onReadDone i pick now keepRunning).2)
        (submitted (I.onReadDone i pick now keepRunning).2)
      by_cases hcheck : checkAndFixPick pick now = .error .overrun
      · rw [I.onReadDone_overrun hreads hcheck]
        exact .overrun pick now hcheck (by simp [SubmitsValid, hcheck])
      · obtain ⟨hbroker, hactions, hone⟩ := I.onReadDone_cases hreads hcheck keepRunning
        rw [hbroker, hactions, hone]
        exact .submit pick now hcheck (by simp [SubmitsValid, hreads])
  | callbackReturns k keepRunning =>
    simp only [Machine.answer, Machine.next, intake, Intake.callbackReturns]
    split
    · exact .idle trivial
    · simp only [Intake.handle_broker, brokerActions_append, brokerActions_broker,
        Intake.handle_brokerActions, List.append_nil, submitted_append, submitted_broker,
        Intake.handle_submitted]
      have hother (pick : V1.Pick) (now : Int64) :
          BrokerEvent.callbackReturns k ≠ .addPickCallback pick now := by
        intro h
        cases h
      exact .other (.callbackReturns k) hother trivial
  | service event =>
    rw [Machine.answer, Machine.next, intake]
    dsimp only
    split
    · rw [brokerActions_reader, submitted_reader]
      exact .idle trivial
    · exact .idle trivial
  | broker event =>
    rw [Machine.answer, Machine.next, intake]
    dsimp only
    split
    · rename_i hbesides
      rw [brokerActions_broker, submitted_broker]
      refine .other event ?_ trivial
      intro pick now heq
      rw [heq] at hbesides
      cases hbesides
    · exact .idle trivial

section Moves

variable {codec sorting} {I : Intake Bytes} {event : IntakeEvent} {B : Broker Bytes}
  {actions : List Action} {n : ℕ}

/-- Every step of the intake is one of the broker's pipeline, or none. -/
theorem IntakeMoves.step (h : IntakeMoves codec sorting I event B actions n) :
    Pipeline.Step codec I.broker.mMaximumInputQueueSize I.broker.pipeline actions B.pipeline := by
  cases h with
  | idle valid => exact .idle (by simp)
  | overrun pick now overran valid => exact .idle (by simp [Action.quiet])
  | submit pick now inside valid => exact I.broker.addPickCallback_step codec pick now
  | other step h valid => exact broker_step codec sorting I.broker step

/-- Each message that is submitted is accepted or refused, and nothing else is. -/
theorem IntakeMoves.submitted (h : IntakeMoves codec sorting I event B actions n) :
    n = (accepted actions).length + actions.countP Action.isInvalid := by
  cases h with
  | idle valid => rfl
  | overrun pick now overran valid => rfl
  | submit pick now inside valid => exact (accepted_or_refused I.broker pick now inside).symm
  | other step h valid =>
    rw [accepts_nothing codec sorting I.broker h, refuses_nothing codec sorting I.broker h]
    rfl

/-- A step refuses nothing exactly when what it submits is valid. -/
theorem IntakeMoves.valid_iff (h : IntakeMoves codec sorting I event B actions n) :
    (∀ a ∈ actions, a.isInvalid = false) ↔ SubmitsValid I event := by
  cases h with
  | idle valid => simpa using valid
  | overrun pick now overran valid => simpa [Action.isInvalid] using valid
  | submit pick now inside valid => rw [no_refusal_iff, valid]
  | other step h valid =>
    have hzero := refuses_nothing codec sorting I.broker h
    simpa [List.countP_eq_zero, valid] using hzero

end Moves

end Steps

/-- The books of the intake since a moment at which `n` calls were under way. -/
structure Intake.Booked {Bytes : Type*} (n : ℕ) (I : Intake Bytes) (tr : List IntakeAction) :
    Prop where
  submitted : submitted tr = (accepted (brokerActions tr)).length + refusedInvalid tr
  calls : n + (accepted (brokerActions tr)).length =
    (returned (brokerActions tr)).length + I.broker.callbacks.length
  received : I.broker.mMetrics.mPicksReceivedCounter =
    Int64.ofNat (returned (brokerActions tr)).length
  invalid : I.broker.mMetrics.mInvalidPicksReceivedCounter = 0

/-- No step of the pipeline counts anything as invalid. -/
theorem Pipeline.Step.invalid {Bytes : Type*} [DecidableEq Bytes] {codec : Codec Bytes}
    {capacity : ℕ} {P P' : Pipeline Bytes} {actions : List Action}
    (h : Pipeline.Step codec capacity P actions P') :
    P'.metrics.mInvalidPicksReceivedCounter = P.metrics.mInvalidPicksReceivedCounter := by
  cases h <;> rfl

section Runs

variable {Bytes : Type*} [DecidableEq Bytes] (codec : Codec Bytes)
  (sorting : Sorting Int64 V1.Pick)

theorem Intake.Booked.next {n : ℕ} {I : Intake Bytes} {tr : List IntakeAction}
    (h : I.Booked n tr) (event : IntakeEvent) :
    ((intake codec sorting).next I event).Booked n
      (tr ++ (intake codec sorting).answer I event) := by
  have hmoves := intake_moves codec sorting I event
  have hstep := hmoves.step
  have hcalls := hstep.calls.length_eq
  have hreceived := hstep.received
  simp only [Broker.pipeline_callbacks, Broker.pipeline_metrics, List.length_append]
    at hcalls hreceived
  refine ⟨?_, ?_, ?_, ?_⟩
  · have hsubmitted := hmoves.submitted
    have hbefore := h.submitted
    rw [← refusedInvalid] at hsubmitted
    simp only [submitted_append, brokerActions_append, lists_append, List.length_append,
      refusedInvalid_append]
    omega
  · have hbefore := h.calls
    simp only [brokerActions_append, lists_append, List.length_append]
    omega
  · simp only [brokerActions_append, lists_append, List.length_append, Int64.ofNat_add]
    rw [hreceived, h.received]
  · exact hstep.invalid.trans h.invalid

/-- The books from any reset on. -/
theorem intake_booked (I : Intake Bytes) (events : List IntakeEvent) :
    ((intake codec sorting).final I.resetCounters events).Booked I.broker.callbacks.length
      ((intake codec sorting).trace I.resetCounters events) := by
  have hreset : I.resetCounters.Booked I.broker.callbacks.length [] :=
    ⟨rfl, (Nat.zero_add _).symm, rfl, rfl⟩
  have keep (I' : Intake Bytes) (event : IntakeEvent) (tr : List IntakeAction)
      (h : I'.Booked I.broker.callbacks.length tr) (_ : True) :
      ((intake codec sorting).next I' event).Booked I.broker.callbacks.length
        (tr ++ (intake codec sorting).answer I' event) := h.next codec sorting event
  exact Machine.invariant_trace _ keep hreset (Machine.meets_true _ _ events)

/-- A run refuses nothing exactly when all that is submitted is valid. -/
theorem refusedInvalid_eq_zero_iff (I : Intake Bytes) (events : List IntakeEvent) :
    refusedInvalid ((intake codec sorting).trace I events) = 0 ↔
      (intake codec sorting).Meets SubmitsValid I events := by
  have hmem (tr : List IntakeAction) : (∀ a ∈ brokerActions tr, a.isInvalid = false) ↔
      ∀ x ∈ tr, ∀ a ∈ brokerActions [x], a.isInvalid = false := by
    induction tr with
    | nil => simp [brokerActions]
    | cons x tr ih =>
      rw [show x :: tr = [x] ++ tr from rfl, brokerActions_append, List.forall_mem_append, ih]
      simp
  have hvalid : (fun I' event => ∀ x ∈ (intake codec sorting).answer I' event,
      ∀ a ∈ brokerActions [x], a.isInvalid = false) = SubmitsValid := by
    funext I' event
    rw [← hmem, (intake_moves codec sorting I' event).valid_iff]
  rw [refusedInvalid, List.countP_eq_zero]
  simp only [Bool.not_eq_true]
  rw [hmem, Machine.forall_mem_trace_iff, hvalid]

/-- Since a reset of the counters, and whenever no callback is in progress: the counters account
for the messages submitted exactly when none of these was invalid. Besides, no callback may have
been in progress at the reset, and the messages have to fit a counter. -/
theorem submissions_balance_iff (I : Intake Bytes) (events : List IntakeEvent)
    (hrest : ((intake codec sorting).final I.resetCounters events).broker.callbacks = []) :
    ((intake codec sorting).final I.resetCounters events).Balanced
        ((intake codec sorting).trace I.resetCounters events) ↔
      Int64.ofNat I.broker.callbacks.length = 0 ∧
        submitted ((intake codec sorting).trace I.resetCounters events) < 2 ^ 63 ∧
        (intake codec sorting).Meets SubmitsValid I.resetCounters events := by
  have hbooked := intake_booked codec sorting I events
  rw [← refusedInvalid_eq_zero_iff]
  generalize (intake codec sorting).final I.resetCounters events = I' at *
  generalize (intake codec sorting).trace I.resetCounters events = tr at *
  have hcalls := hbooked.calls
  rw [hrest, List.length_nil, Nat.add_zero] at hcalls
  have hreceived := toInt_ofNat_add_iff I.broker.callbacks.length
    (accepted (brokerActions tr)).length
  rw [hcalls, ← hbooked.received] at hreceived
  have hinvalid : I'.broker.mMetrics.getInvalidPicksReceivedCount.toInt = 0 := by
    rw [MetricsSingleton.getInvalidPicksReceivedCount, hbooked.invalid]
    rfl
  have hsubmitted := hbooked.submitted
  constructor
  · intro h
    have hnone : refusedInvalid tr = 0 := by
      have hcount := h.invalid
      omega
    have htotal := h.total
    rw [hinvalid, hsubmitted, hnone, Int.add_zero, Nat.add_zero] at htotal
    obtain ⟨hzero, hlt⟩ := hreceived.mp htotal.symm
    exact ⟨hzero, by omega, hnone⟩
  · intro h
    obtain ⟨hzero, hlt, hnone⟩ := h
    refine ⟨?_, by rw [hinvalid, hnone]; rfl⟩
    rw [hinvalid, hsubmitted, hnone, Int.add_zero, Nat.add_zero]
    exact (hreceived.mpr ⟨hzero, by omega⟩).symm

end Runs

/-- A broker with one reader that is open. -/
def oneReader : Intake V1.Pick :=
  (intake Codec.plain (Sorting.stable Int64 V1.Pick)).final (.new {} freshBroker)
    (.service (.publish []) :: List.replicate 4 (.service (.reader 0 .proceed)))

theorem submissions_balance_iff_samplePick :
    let events : List IntakeEvent := [.onReadDone 0 samplePick 0 true, .callbackReturns 0 true]
    let M := intake Codec.plain (Sorting.stable Int64 V1.Pick)
    let I := M.final oneReader.resetCounters events
    let tr := M.trace oneReader.resetCounters events
    I.Balanced tr ↔
      Int64.ofNat oneReader.broker.callbacks.length = 0 ∧ submitted tr < 2 ^ 63 ∧
        M.Meets SubmitsValid oneReader.resetCounters events :=
  submissions_balance_iff Codec.plain (Sorting.stable Int64 V1.Pick) oneReader
    [.onReadDone 0 samplePick 0 true, .callbackReturns 0 true] (by decide)

/-- A message without any field is refused, and no counter shows it. -/
theorem emptyMessage_not_counted :
    let events : List IntakeEvent := [.onReadDone 0 {} 0 true]
    let M := intake Codec.plain (Sorting.stable Int64 V1.Pick)
    let I := M.final oneReader.resetCounters events
    let tr := M.trace oneReader.resetCounters events
    I.broker.callbacks = [] ∧ submitted tr = 1 ∧ refusedInvalid tr = 1 ∧
      I.broker.mMetrics.getPicksReceivedCount = 0 ∧
      I.broker.mMetrics.getInvalidPicksReceivedCount = 0 ∧ ¬ I.Balanced tr := by
  intro events M I tr
  have hrefused : refusedInvalid tr = 1 := by decide
  have hinvalid : I.broker.mMetrics.getInvalidPicksReceivedCount = 0 := by decide
  refine ⟨by decide, by decide, hrefused, by decide, hinvalid, ?_⟩
  intro h
  have hcount := h.invalid
  rw [hinvalid, hrefused] at hcount
  cases hcount

end PickBroker
