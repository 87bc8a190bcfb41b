import PickBroker.Broker.Throughput

namespace PickBroker

open Framework

namespace PickProcessor

/-- How many steps the processor still takes once `mKeepRunning` has been cleared. -/
def toReturn : PickProcessor → ℕ
  | .returned => 0
  | .loop => 1
  | .countDuplicate | .enqueue _ _ => 2
  | .readSubscribeService _ _ => 3
  | .add _ _ => 4
  | .readDatabase _ _ => 5
  | .takePick => 6

theorem toReturn_le (pc : PickProcessor) : pc.toReturn ≤ 6 := by
  cases pc <;> simp [toReturn]

theorem toReturn_eq_zero {pc : PickProcessor} (h : pc.toReturn = 0) : pc = .returned := by
  cases pc <;> first | rfl | cases h

end PickProcessor

namespace DatabaseCleaner

def toReturn : DatabaseCleaner → ℕ
  | .returned | .threw _ => 0
  | .loop => 1
  | .wait => 2
  | .deletePicksBefore _ => 3
  | .readDatabaseAgain _ => 4
  | .isOpen => 5
  | .readDatabase => 6

theorem toReturn_le (pc : DatabaseCleaner) : pc.toReturn ≤ 6 := by
  cases pc <;> simp [toReturn]

end DatabaseCleaner

namespace Stopper

/-- How many statements of `stop` are left. -/
def toReturn : Stopper → ℕ
  | .returned | .threw _ => 0
  | .getDatabaseCleanerFuture => 1
  | .getSubscribeServiceFuture => 2
  | .getPickProcessorFuture => 3
  | .getPublishServiceFuture => 4
  | .clearIsRunning => 5
  | .resetDatabase => 6
  | .closeDatabase => 7
  | .resetSubscribeService => 8
  | .stopSubscribeService => 9
  | .resetPublishService => 10
  | .stopPublishService => 11
  | .requestShutdown => 12
  | .clearKeepRunning => 13

theorem toReturn_le {pc : Stopper} (h : pc ≠ .clearKeepRunning) : pc.toReturn ≤ 12 := by
  cases pc <;> first | exact absurd rfl h | simp [toReturn]

end Stopper

/-- How many steps `stop` and the workers still take together. -/
def Broker.toStop {Bytes : Type*} (B : Broker Bytes) : ℕ :=
  B.stopper.toReturn + B.pickProcessor.toReturn + B.databaseCleaner.toReturn

def Action.isCallAfterReset : Action → Bool
  | .calledAfterReset _ => true
  | _ => false

/-- Each of the three threads takes a step, in whatever order and whatever else happens. -/
structure FairRound (events : List BrokerEvent) : Prop where
  stop : ∃ event ∈ events, ∃ fetched, event = .stop fetched
  processPick : ∃ event ∈ events, ∃ readings, event = .processPick readings
  cleanDatabase : ∃ event ∈ events, ∃ now stmt, event = .cleanDatabase now stmt

section Steps

variable {Bytes : Type*} {B : Broker Bytes}

theorem cleanDatabase_toReturn (hoff : B.mKeepRunning = false) (now : Int64) (stmt : Statement)
    (hsafe : ∀ a ∈ (B.cleanDatabase now stmt).2, a.isCallAfterReset = false) :
    (B.cleanDatabase now stmt).1.databaseCleaner.toReturn ≤ B.databaseCleaner.toReturn - 1 := by
  cases hpc : B.databaseCleaner with
  | loop => simp [Broker.cleanDatabase, hpc, hoff, DatabaseCleaner.toReturn]
  | isOpen =>
    have hthere : B.mDatabase.isReset = false := by
      cases hreset : B.mDatabase.isReset with
      | false => rfl
      | true => simp [Broker.cleanDatabase, hpc, hreset, Action.isCallAfterReset] at hsafe
    simp only [Broker.cleanDatabase, hpc, hthere, Bool.false_eq_true, if_false]
    split <;> simp [DatabaseCleaner.toReturn]
  | deletePicksBefore oldestLoadTime =>
    have hthere : B.mDatabase.isReset = false := by
      cases hreset : B.mDatabase.isReset with
      | false => rfl
      | true => simp [Broker.cleanDatabase, hpc, hreset, Action.isCallAfterReset] at hsafe
    simp only [Broker.cleanDatabase, hpc, hthere, Bool.false_eq_true, if_false]
    split <;> simp [DatabaseCleaner.toReturn]
  | _ => simp [Broker.cleanDatabase, hpc, DatabaseCleaner.toReturn]

/-- `stop` moves neither of the workers, and goes on unless it waits for one of them. -/
theorem stop_toReturn (fetched : Bool) :
    (B.stop fetched).pickProcessor = B.pickProcessor ∧
      (B.stop fetched).databaseCleaner = B.databaseCleaner ∧
      (B.stop fetched).stopper.toReturn ≤ B.stopper.toReturn ∧
      (B.pickProcessor = .returned → B.databaseCleaner.toReturn = 0 →
        (B.stop fetched).stopper.toReturn ≤ B.stopper.toReturn - 1) := by
  cases hpc : B.stopper with
  | getPickProcessorFuture =>
    simp only [Broker.stop, hpc]
    split <;> simp_all [Stopper.toReturn]
  | getDatabaseCleanerFuture =>
    simp only [Broker.stop, hpc]
    split
    · simp [Stopper.toReturn]
    · split <;> simp [Stopper.toReturn]
    · refine ⟨rfl, rfl, by simp [hpc], ?_⟩
      intro _ hended
      cases hcleaner : B.databaseCleaner <;> simp_all [DatabaseCleaner.toReturn]
  | _ => simp [Broker.stop, hpc, Stopper.toReturn]

/-- What a step of the broker leaves of the three threads while it is being stopped. -/
structure Nearer (B : Broker Bytes) (event : BrokerEvent) (B' : Broker Bytes) : Prop where
  stopper : B'.stopper.toReturn ≤ B.stopper.toReturn
  processor : B'.pickProcessor.toReturn ≤ B.pickProcessor.toReturn
  cleaner : B'.databaseCleaner.toReturn ≤ B.databaseCleaner.toReturn
  stop : ∀ fetched, event = .stop fetched → B.pickProcessor = .returned →
    B.databaseCleaner.toReturn = 0 → B'.stopper.toReturn ≤ B.stopper.toReturn - 1
  processPick : ∀ readings, event = .processPick readings →
    B'.pickProcessor.toReturn ≤ B.pickProcessor.toReturn - 1
  cleanDatabase : ∀ now stmt, event = .cleanDatabase now stmt →
    B'.databaseCleaner.toReturn ≤ B.databaseCleaner.toReturn - 1

theorem Nearer.same {event : BrokerEvent} {B' : Broker Bytes} (hclient : event.isClient = true)
    (hsame : B.SameThreads B') : Nearer B event B' := by
  refine ⟨(congrArg Stopper.toReturn hsame.stopper).le,
    (congrArg PickProcessor.toReturn hsame.pickProcessor).le,
    (congrArg DatabaseCleaner.toReturn hsame.databaseCleaner).le, ?_, ?_, ?_⟩
  · intro fetched heq
    rw [heq] at hclient
    cases hclient
  · intro readings heq
    rw [heq] at hclient
    cases hclient
  · intro now stmt heq
    rw [heq] at hclient
    cases hclient

theorem Nearer.toStop_le {event : BrokerEvent} {B' : Broker Bytes} (h : Nearer B event B') :
    B'.toStop ≤ B.toStop := by
  have hstopper := h.stopper
  have hprocessor := h.processor
  have hcleaner := h.cleaner
  rw [Broker.toStop, Broker.toStop]
  omega

theorem Nearer.toStop_lt {event : BrokerEvent} {B' : Broker Bytes} (h : Nearer B event B')
    (hone : (B.stopper.toReturn ≠ 0 ∧ B'.stopper.toReturn ≤ B.stopper.toReturn - 1) ∨
      (B.pickProcessor.toReturn ≠ 0 ∧
        B'.pickProcessor.toReturn ≤ B.pickProcessor.toReturn - 1) ∨
      (B.databaseCleaner.toReturn ≠ 0 ∧
        B'.databaseCleaner.toReturn ≤ B.databaseCleaner.toReturn - 1)) :
    B'.toStop < B.toStop := by
  have hstopper := h.stopper
  have hprocessor := h.processor
  have hcleaner := h.cleaner
  rw [Broker.toStop, Broker.toStop]
  omega

variable [DecidableEq Bytes] {codec : Codec Bytes} {sorting : Sorting Int64 V1.Pick}

/-- A step of the processor that does not call through a reset pointer brings it nearer to its
return. -/
theorem processPick_toReturn (hoff : B.mKeepRunning = false) (readings : ProcessorReadings)
    (hsafe : ∀ a ∈ (B.processPick codec sorting readings).2, a.isCallAfterReset = false) :
    (B.processPick codec sorting readings).1.pickProcessor.toReturn ≤ B.pickProcessor.toReturn - 1 := by
  cases hpc : B.pickProcessor with
  | loop => simp [Broker.processPick, hpc, hoff, PickProcessor.toReturn]
  | takePick =>
    simp only [Broker.processPick, hpc]
    split <;> simp [PickProcessor.toReturn]
  | add receivedTime pick =>
    have hthere : B.mDatabase.isReset = false := by
      cases hreset : B.mDatabase.isReset with
      | false => rfl
      | true => simp [Broker.processPick, hpc, hreset, Action.isCallAfterReset] at hsafe
    simp only [Broker.processPick, hpc, hthere, Bool.false_eq_true, if_false]
    split <;> simp [PickProcessor.toReturn]
  | enqueue receivedTime pick =>
    have hthere : B.mSubscribeService.isReset = false := by
      cases hreset : B.mSubscribeService.isReset with
      | false => rfl
      | true => simp [Broker.processPick, hpc, hreset, Action.isCallAfterReset] at hsafe
    simp only [Broker.processPick, hpc, hthere, Bool.false_eq_true, if_false]
    split <;> simp [PickProcessor.toReturn]
  | _ => simp [Broker.processPick, hpc, PickProcessor.toReturn]

theorem nearer_of_next (hoff : B.mKeepRunning = false) (event : BrokerEvent)
    (hsafe : ∀ a ∈ (broker codec sorting).answer B event, a.isCallAfterReset = false) :
    Nearer B event ((broker codec sorting).next B event) := by
  cases event with
  | processPick readings =>
    obtain ⟨-, hstopper, hcleaner, -, -⟩ := B.processPick_control codec sorting readings
    have hless := processPick_toReturn hoff readings hsafe
    exact ⟨(congrArg Stopper.toReturn hstopper).le, hless.trans (Nat.sub_le _ _),
      (congrArg DatabaseCleaner.toReturn hcleaner).le, by simp, fun _ _ => hless, by simp⟩
  | cleanDatabase now stmt =>
    obtain ⟨-, hstopper, hprocessor, -, -⟩ := B.cleanDatabase_control now stmt
    have hless := cleanDatabase_toReturn hoff now stmt hsafe
    exact ⟨(congrArg Stopper.toReturn hstopper).le,
      (congrArg PickProcessor.toReturn hprocessor).le, hless.trans (Nat.sub_le _ _), by simp,
      by simp, fun _ _ _ => hless⟩
  | stop fetched =>
    obtain ⟨hprocessor, hcleaner, hle, hless⟩ := stop_toReturn (B := B) fetched
    exact ⟨hle, (congrArg PickProcessor.toReturn hprocessor).le,
      (congrArg DatabaseCleaner.toReturn hcleaner).le, fun _ _ => hless, by simp, by simp⟩
  | _ => exact .same rfl (next_client codec sorting B rfl)

/-- A run in which a thread takes a step that still has one to take brings them nearer to their end. -/
theorem toStop_final_lt (enabled : Broker Bytes → Prop) (helpful : BrokerEvent → Prop)
    (lower : ∀ (B B' : Broker Bytes) event, Nearer B event B' → enabled B → helpful event →
      B'.toStop < B.toStop)
    (persist : ∀ (B B' : Broker Bytes) event, Nearer B event B' → enabled B →
      enabled B' ∨ B'.toStop < B.toStop)
    {events : List BrokerEvent} (hoff : B.mKeepRunning = false)
    (hsafe : (broker codec sorting).Meets
      (fun B event => ∀ a ∈ (broker codec sorting).answer B event, a.isCallAfterReset = false)
      B events)
    (henabled : enabled B) (hhelp : ∃ event ∈ events, helpful event) :
    ((broker codec sorting).final B events).toStop < B.toStop := by
  have hkeep : ∀ (B : Broker Bytes) event, B.mKeepRunning = false →
      (∀ a ∈ (broker codec sorting).answer B event, a.isCallAfterReset = false) →
      ((broker codec sorting).next B event).mKeepRunning = false :=
    fun B event hoff _ => next_keepRunning codec sorting B event hoff
  exact Machine.measure_final_lt hkeep
    (fun B event hoff hsafe => (nearer_of_next hoff event hsafe).toStop_le)
    (fun B event hoff hsafe => lower B _ event (nearer_of_next hoff event hsafe))
    (fun B event hoff hsafe => persist B _ event (nearer_of_next hoff event hsafe))
    hoff hsafe henabled hhelp

/-- A round that none of the threads is left out of brings them nearer to their end. -/
theorem fairRound_toStop {events : List BrokerEvent} (hfair : FairRound events)
    (hoff : B.mKeepRunning = false)
    (hsafe : (broker codec sorting).Meets
      (fun B event => ∀ a ∈ (broker codec sorting).answer B event, a.isCallAfterReset = false)
      B events) :
    B.stopper.toReturn = 0 ∨ ((broker codec sorting).final B events).toStop < B.toStop := by
  by_cases hprocessor : B.pickProcessor.toReturn = 0
  · by_cases hcleaner : B.databaseCleaner.toReturn = 0
    · by_cases hstopper : B.stopper.toReturn = 0
      · exact Or.inl hstopper
      -- Both workers have ended, so `stop` waits for none of them.
      · right
        apply toStop_final_lt (fun B => B.pickProcessor.toReturn = 0 ∧
          B.databaseCleaner.toReturn = 0 ∧ B.stopper.toReturn ≠ 0)
          (fun event => ∃ fetched, event = .stop fetched) ?_ ?_ hoff hsafe
          ⟨hprocessor, hcleaner, hstopper⟩ hfair.stop
        · intro B B' event hnearer henabled hhelp
          obtain ⟨hreturned, hended, hleft⟩ := henabled
          obtain ⟨fetched, heq⟩ := hhelp
          exact hnearer.toStop_lt (Or.inl ⟨hleft, hnearer.stop fetched heq
            (PickProcessor.toReturn_eq_zero hreturned) hended⟩)
        · intro B B' event hnearer henabled
          obtain ⟨hreturned, hended, hleft⟩ := henabled
          have hle := hnearer.stopper
          have hprocessorLe := hnearer.processor
          have hcleanerLe := hnearer.cleaner
          rw [Broker.toStop, Broker.toStop]
          omega
    · right
      apply toStop_final_lt (fun B => B.databaseCleaner.toReturn ≠ 0)
        (fun event => ∃ now stmt, event = .cleanDatabase now stmt) ?_ ?_ hoff hsafe hcleaner
        hfair.cleanDatabase
      · intro B B' event hnearer hleft hhelp
        obtain ⟨now, stmt, heq⟩ := hhelp
        exact hnearer.toStop_lt (Or.inr (Or.inr ⟨hleft, hnearer.cleanDatabase now stmt heq⟩))
      · intro B B' event hnearer hleft
        by_cases hstill : B'.databaseCleaner.toReturn = 0
        · exact Or.inr (hnearer.toStop_lt (Or.inr (Or.inr ⟨hleft, by omega⟩)))
        · exact Or.inl hstill
  · right
    apply toStop_final_lt (fun B => B.pickProcessor.toReturn ≠ 0)
      (fun event => ∃ readings, event = .processPick readings) ?_ ?_ hoff hsafe hprocessor
      hfair.processPick
    · intro B B' event hnearer hleft hhelp
      obtain ⟨readings, heq⟩ := hhelp
      exact hnearer.toStop_lt (Or.inr (Or.inl ⟨hleft, hnearer.processPick readings heq⟩))
    · intro B B' event hnearer hleft
      by_cases hstill : B'.pickProcessor.toReturn = 0
      · exact Or.inr (hnearer.toStop_lt (Or.inr (Or.inl ⟨hleft, by omega⟩)))
      · exact Or.inl hstill

end Steps

/-- How far `stop` has come says what it has torn down and whom it has waited for. -/
structure TornDown {Bytes : Type*} (B : Broker Bytes) : Prop where
  cleared : B.stopper ≠ .clearKeepRunning → B.mKeepRunning = false
  service : B.stopper.toReturn ≤ 7 → B.mSubscribeService.isReset = true
  database : B.stopper.toReturn ≤ 5 → B.mDatabase.isReset = true
  processor : B.stopper.toReturn ≤ 2 → B.pickProcessor = .returned
  cleaner : B.stopper.toReturn = 0 →
    (B.stopper = .returned ∨ ∃ e, B.stopper = .threw e ∧ B.databaseCleaner = .threw e) ∧
      B.databaseCleaner.toReturn = 0

section Joining

variable {Bytes : Type*} {B : Broker Bytes}

theorem TornDown.same {B' : Broker Bytes} (h : TornDown B) (hsame : B.SameThreads B') : TornDown B' := by
  obtain ⟨-, hkeep, hstopper, hprocessor, hcleaner, hdatabase, hservice⟩ := hsame
  refine ⟨?_, ?_, ?_, ?_, ?_⟩
  all_goals rw [hstopper]
  · rw [hkeep]
    exact h.cleared
  · rw [hservice]
    exact h.service
  · rw [hdatabase]
    exact h.database
  · rw [hprocessor]
    exact h.processor
  · rw [hcleaner]
    exact h.cleaner

/-- A cleaner that has ended takes no more steps. -/
theorem cleanDatabase_ended (h : B.databaseCleaner.toReturn = 0) (now : Int64) (stmt : Statement) :
    (B.cleanDatabase now stmt).1.databaseCleaner = B.databaseCleaner := by
  cases hpc : B.databaseCleaner <;> simp_all [DatabaseCleaner.toReturn, Broker.cleanDatabase]

theorem TornDown.stop (h : TornDown B) (fetched : Bool) : TornDown (B.stop fetched) := by
  obtain ⟨hcleared, hservice, hdatabase, hprocessor, hcleaner⟩ := h
  cases hpc : B.stopper with
  | getPickProcessorFuture =>
    rw [hpc] at hcleared hservice hdatabase
    simp only [Broker.stop, hpc]
    split
    · rename_i hreturned
      exact ⟨fun _ => hcleared (by simp), fun _ => hservice (by simp [Stopper.toReturn]),
        fun _ => hdatabase (by simp [Stopper.toReturn]), fun _ => hreturned,
        by simp [Stopper.toReturn]⟩
    · exact ⟨fun _ => hcleared (by simp), fun _ => hservice (by simp [Stopper.toReturn]),
        fun _ => hdatabase (by simp [Stopper.toReturn]), by simp [hpc, Stopper.toReturn],
        by simp [hpc, Stopper.toReturn]⟩
  | getDatabaseCleanerFuture =>
    rw [hpc] at hcleared hservice hdatabase hprocessor
    simp only [Broker.stop, hpc]
    have hall : B.mKeepRunning = false ∧ B.mSubscribeService.isReset = true ∧
        B.mDatabase.isReset = true ∧ B.pickProcessor = .returned :=
      ⟨hcleared (by simp), hservice (by simp [Stopper.toReturn]),
        hdatabase (by simp [Stopper.toReturn]), hprocessor (by simp [Stopper.toReturn])⟩
    obtain ⟨hoff, hreset, hclosed, hreturned⟩ := hall
    split
    · rename_i hended
      exact ⟨fun _ => hoff, fun _ => hreset, fun _ => hclosed, fun _ => hreturned,
        fun _ => ⟨Or.inl rfl, by simp [hended, DatabaseCleaner.toReturn]⟩⟩
    · rename_i e hthrew
      refine ⟨fun _ => hoff, fun _ => hreset, fun _ => hclosed, fun _ => hreturned, fun _ => ?_⟩
      refine ⟨?_, by simp [hthrew, DatabaseCleaner.toReturn]⟩
      cases fetched with
      | false => exact Or.inr ⟨e, rfl, hthrew⟩
      | true => exact Or.inl rfl
    · exact ⟨fun _ => hoff, fun _ => hreset, fun _ => hclosed, fun _ => hreturned,
        by simp [hpc, Stopper.toReturn]⟩
  | returned | threw e =>
    simp only [Broker.stop, hpc]
    exact ⟨hcleared, hservice, hdatabase, hprocessor, hcleaner⟩
  | _ =>
    rw [hpc] at hcleared hservice hdatabase hprocessor
    simp only [Broker.stop, hpc]
    refine ⟨?_, ?_, ?_, ?_, ?_⟩ <;> simp_all [Stopper.toReturn]

variable [DecidableEq Bytes] (codec : Codec Bytes) (sorting : Sorting Int64 V1.Pick)

theorem TornDown.next (h : TornDown B) (event : BrokerEvent) :
    TornDown ((broker codec sorting).next B event) := by
  cases event with
  | processPick readings =>
    obtain ⟨hkeep, hstopper, hcleaner, hdatabase, hservice⟩ :=
      B.processPick_control codec sorting readings
    simp only [Machine.next, broker]
    refine ⟨?_, ?_, ?_, ?_, ?_⟩
    all_goals rw [hstopper]
    · rw [hkeep]
      exact h.cleared
    · rw [hservice]
      exact h.service
    · rw [hdatabase]
      exact h.database
    · intro hpast
      simp [Broker.processPick, h.processor hpast]
    · rw [hcleaner]
      exact h.cleaner
  | cleanDatabase now stmt =>
    obtain ⟨hkeep, hstopper, hprocessor, hdatabase, hservice⟩ := B.cleanDatabase_control now stmt
    simp only [Machine.next, broker]
    refine ⟨?_, ?_, ?_, ?_, ?_⟩
    all_goals rw [hstopper]
    · rw [hkeep]
      exact h.cleared
    · rw [hservice]
      exact h.service
    · rw [hdatabase]
      exact h.database
    · rw [hprocessor]
      exact h.processor
    · intro hdone
      rw [cleanDatabase_ended (h.cleaner hdone).2]
      exact h.cleaner hdone
  | stop fetched => exact h.stop fetched
  | _ => exact h.same (next_client codec sorting B rfl)

end Joining

/-- In every interleaving: once `stop` has begun, it comes to its end within twenty-five rounds in
which none of the three threads is left out, unless a worker calls through a pointer that has been
reset; it is assumed that both servers were started and that their threads end when the services are
stopped. Then both workers have ended, both pointers have been reset, and `stop` has returned or
thrown what the database cleaner threw. -/
theorem stop_ends {Bytes : Type*} [DecidableEq Bytes] {codec : Codec Bytes}
    {sorting : Sorting Int64 V1.Pick} {orderBy : Sorting Int64 Bytes} {options : BrokerOptions}
    {database : Database Bytes} {stmt : LoadStatement} {now : Int64} {isSecured : Bool}
    {B₀ : Broker Bytes}
    (hnew : Broker.new codec sorting orderBy options (some database) stmt now isSecured = .ok B₀)
    (before : List BrokerEvent) (rounds : List (List BrokerEvent))
    (hbegun : ((broker codec sorting).final B₀ before).stopper ≠ .clearKeepRunning)
    (hfair : ∀ events ∈ rounds, FairRound events) (hmany : 25 ≤ rounds.length)
    (hsafe : ∀ pointer, .calledAfterReset pointer ∉
      (broker codec sorting).trace B₀ (before ++ rounds.flatten)) :
    let B := (broker codec sorting).final B₀ (before ++ rounds.flatten)
    (B.stopper = .returned ∨ ∃ e, B.stopper = .threw e ∧ B.databaseCleaner = .threw e) ∧
      B.pickProcessor = .returned ∧ B.databaseCleaner.toReturn = 0 ∧
      B.mSubscribeService.isReset = true ∧ B.mDatabase.isReset = true := by
  intro B
  let atStop := (broker codec sorting).final B₀ before
  have hstart : TornDown B₀ := by
    obtain ⟨-, -, -, -, -, -, rfl⟩ := new_ok hnew
    exact ⟨fun hpc => absurd rfl hpc, by simp [Broker.started, Stopper.toReturn],
      by simp [Broker.started, Stopper.toReturn], by simp [Broker.started, Stopper.toReturn],
      by simp [Broker.started, Stopper.toReturn]⟩
  have hjoined : ∀ events, TornDown ((broker codec sorting).final B₀ events) := fun events =>
    (broker codec sorting).invariant_of_step (fun _ event hB => hB.next codec sorting event)
      events hstart
  have hoff : atStop.mKeepRunning = false := (hjoined before).cleared hbegun
  have hcalls : ∀ a ∈ (broker codec sorting).trace atStop rounds.flatten,
      a.isCallAfterReset = false := by
    intro a ha
    cases a with
    | calledAfterReset pointer =>
      refine absurd ?_ (hsafe pointer)
      rw [Machine.trace_append]
      exact List.mem_append_right _ ha
    | _ => rfl
  have hmeets := ((broker codec sorting).forall_mem_trace_iff atStop rounds.flatten).mp hcalls
  have hstay : ∀ (B : Broker Bytes) event, B.mKeepRunning = false →
      (∀ a ∈ (broker codec sorting).answer B event, a.isCallAfterReset = false) →
      B.stopper.toReturn = 0 → ((broker codec sorting).next B event).stopper.toReturn = 0 := by
    intro B event hoff hsafe hdone
    have hle := (nearer_of_next hoff event hsafe).stopper
    omega
  have hround : ∀ (B : Broker Bytes) events, B.mKeepRunning = false →
      (broker codec sorting).Meets
        (fun B event => ∀ a ∈ (broker codec sorting).answer B event, a.isCallAfterReset = false)
        B events → FairRound events →
      B.stopper.toReturn = 0 ∨ ((broker codec sorting).final B events).toStop < B.toStop :=
    fun B events hoff hmeets hfair => fairRound_toStop hfair hoff hmeets
  have henough : atStop.toStop < rounds.length := by
    have hstopper : atStop.stopper.toReturn ≤ 12 := Stopper.toReturn_le hbegun
    have hprocessor := atStop.pickProcessor.toReturn_le
    have hcleaner := atStop.databaseCleaner.toReturn_le
    rw [Broker.toStop]
    omega
  have hend : ((broker codec sorting).final B₀ (before ++ rounds.flatten)).stopper.toReturn =
      0 := by
    rw [Machine.final_append]
    exact Machine.reaches_of_rounds
      (fun B event hoff _ => next_keepRunning codec sorting B event hoff) hstay hround hoff hmeets
      hfair henough
  have hdone := hjoined (before ++ rounds.flatten)
  exact ⟨(hdone.cleaner hend).1, hdone.processor (by omega), (hdone.cleaner hend).2,
    hdone.service (by omega), hdone.database (by omega)⟩

/-- `stop` begins while the processor has a pick in its hands. -/
def stoppedInPass : List BrokerEvent :=
  .addPickCallback samplePick 1 :: List.replicate 3 (.processPick { now := 1 }) ++ [.stop false]

def oneRound : List BrokerEvent := [.processPick { now := 1 }, .cleanDatabase 1 .ok, .stop false]

theorem oneRound_fair : FairRound oneRound where
  stop := ⟨.stop false, by simp [oneRound], false, rfl⟩
  processPick := ⟨.processPick { now := 1 }, by simp [oneRound], { now := 1 }, rfl⟩
  cleanDatabase := ⟨.cleanDatabase 1 .ok, by simp [oneRound], 1, .ok, rfl⟩

theorem stop_ends_stoppedInPass :
    let B := (broker Codec.plain (Sorting.stable Int64 V1.Pick)).final freshBroker
      (stoppedInPass ++ (List.replicate 25 oneRound).flatten)
    (B.stopper = .returned ∨ ∃ e, B.stopper = .threw e ∧ B.databaseCleaner = .threw e) ∧
      B.pickProcessor = .returned ∧ B.databaseCleaner.toReturn = 0 ∧
      B.mSubscribeService.isReset = true ∧ B.mDatabase.isReset = true :=
  stop_ends new_freshBroker stoppedInPass (List.replicate 25 oneRound) (by decide)
    (fun _ h => List.eq_of_mem_replicate h ▸ oneRound_fair) (by decide)
    (fun pointer => by cases pointer <;> decide)

end PickBroker
