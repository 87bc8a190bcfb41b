import PickBroker.Broker.Refinement

namespace PickBroker

open Framework

/-- A pass of the loop that has begun and may still call the subscribe service. -/
def PickProcessor.usesService : PickProcessor → Bool
  | .loop | .countDuplicate | .returned => false
  | .takePick | .readDatabase _ _ | .add _ _ | .readSubscribeService _ _ | .enqueue _ _ => true

/-- A pass of the loop that has begun and may still call the database. -/
def PickProcessor.usesDatabase : PickProcessor → Bool
  | .takePick | .readDatabase _ _ | .add _ _ => true
  | _ => false

def DatabaseCleaner.usesDatabase : DatabaseCleaner → Bool
  | .readDatabase | .isOpen | .readDatabaseAgain _ | .deletePicksBefore _ => true
  | _ => false

/-- `stop` resets a pointer only while no worker is in a pass that may still call through it. -/
def ResetsBetweenPasses {Bytes : Type*} (B : Broker Bytes) : BrokerEvent → Prop
  | .stop _ => (B.stopper = .resetSubscribeService → B.pickProcessor.usesService = false) ∧
      (B.stopper = .resetDatabase →
        B.pickProcessor.usesDatabase = false ∧ B.databaseCleaner.usesDatabase = false)
  | _ => True

instance {Bytes : Type*} (B : Broker Bytes) :
    (event : BrokerEvent) → Decidable (ResetsBetweenPasses B event)
  | .stop _ => inferInstanceAs (Decidable (_ ∧ _))
  | .addPickCallback _ _ | .callbackReturns _ | .processPick _ | .cleanDatabase _ _
  | .streamSince _ _ _ | .reactor _ _ => .isTrue trivial

namespace Broker

variable {Bytes : Type*} (B : Broker Bytes)

section Processor

variable [DecidableEq Bytes] (codec : Codec Bytes) (sorting : Sorting Int64 V1.Pick)
  (readings : ProcessorReadings)

/-- The processor changes nothing of what the other threads do. -/
theorem processPick_control :
    (B.processPick codec sorting readings).1.mKeepRunning = B.mKeepRunning ∧
      (B.processPick codec sorting readings).1.stopper = B.stopper ∧
      (B.processPick codec sorting readings).1.databaseCleaner = B.databaseCleaner ∧
      (B.processPick codec sorting readings).1.mDatabase.isReset = B.mDatabase.isReset ∧
      (B.processPick codec sorting readings).1.mSubscribeService.isReset =
        B.mSubscribeService.isReset := by
  unfold processPick
  repeat' split
  all_goals exact ⟨rfl, rfl, rfl, rfl, rfl⟩

/-- A pass begins only while `mKeepRunning` is set, and ends before the next one. -/
theorem processPick_passes :
    ((B.processPick codec sorting readings).1.pickProcessor.usesService = true →
        B.pickProcessor.usesService = true ∨ B.mKeepRunning = true) ∧
      ((B.processPick codec sorting readings).1.pickProcessor.usesDatabase = true →
        B.pickProcessor.usesDatabase = true ∨ B.mKeepRunning = true) := by
  cases hpc : B.pickProcessor <;> simp only [processPick, hpc]
  case loop => cases B.mKeepRunning <;> simp [PickProcessor.usesService, PickProcessor.usesDatabase]
  all_goals
    repeat' split
    all_goals simp_all [PickProcessor.usesService, PickProcessor.usesDatabase]

/-- The processor calls through the pointers it uses. -/
theorem processPick_calls {pointer : Pointer}
    (h : .calledAfterReset pointer ∈ (B.processPick codec sorting readings).2) :
    (B.mDatabase.isReset = true ∧ B.pickProcessor.usesDatabase = true) ∨
      (B.mSubscribeService.isReset = true ∧ B.pickProcessor.usesService = true) := by
  cases hpc : B.pickProcessor with
  | add receivedTime pick =>
    left
    by_contra hset
    have hreset : B.mDatabase.isReset = false := by simpa [PickProcessor.usesDatabase] using hset
    simp only [processPick, hpc, hreset, Bool.false_eq_true, if_false] at h
    split at h <;> simp at h
  | enqueue receivedTime pick =>
    right
    by_contra hset
    have hreset : B.mSubscribeService.isReset = false := by
      simpa [PickProcessor.usesService] using hset
    simp only [processPick, hpc, hreset, Bool.false_eq_true, if_false] at h
    split at h <;> simp at h
  | takePick =>
    simp only [processPick, hpc] at h
    split at h <;> simp at h
  | _ => simp [processPick, hpc] at h

end Processor

theorem cleanDatabase_control (now : Int64) (stmt : Statement) :
    (B.cleanDatabase now stmt).1.mKeepRunning = B.mKeepRunning ∧
      (B.cleanDatabase now stmt).1.stopper = B.stopper ∧
      (B.cleanDatabase now stmt).1.pickProcessor = B.pickProcessor ∧
      (B.cleanDatabase now stmt).1.mDatabase.isReset = B.mDatabase.isReset ∧
      (B.cleanDatabase now stmt).1.mSubscribeService.isReset = B.mSubscribeService.isReset := by
  unfold cleanDatabase
  repeat' split
  all_goals exact ⟨rfl, rfl, rfl, rfl, rfl⟩

theorem cleanDatabase_passes (now : Int64) (stmt : Statement) :
    (B.cleanDatabase now stmt).1.databaseCleaner.usesDatabase = true →
      B.databaseCleaner.usesDatabase = true ∨ B.mKeepRunning = true := by
  cases hpc : B.databaseCleaner <;> simp only [cleanDatabase, hpc]
  case loop => cases B.mKeepRunning <;> simp [DatabaseCleaner.usesDatabase]
  all_goals
    repeat' split
    all_goals simp_all [DatabaseCleaner.usesDatabase]

theorem cleanDatabase_calls {now : Int64} {stmt : Statement} {pointer : Pointer}
    (h : .calledAfterReset pointer ∈ (B.cleanDatabase now stmt).2) :
    B.mDatabase.isReset = true ∧ B.databaseCleaner.usesDatabase = true := by
  cases hpc : B.databaseCleaner with
  | isOpen =>
    by_contra hset
    have hreset : B.mDatabase.isReset = false := by simpa [DatabaseCleaner.usesDatabase] using hset
    simp [cleanDatabase, hpc, hreset] at h
  | deletePicksBefore oldestLoadTime =>
    by_contra hset
    have hreset : B.mDatabase.isReset = false := by simpa [DatabaseCleaner.usesDatabase] using hset
    simp only [cleanDatabase, hpc, hreset, Bool.false_eq_true, if_false] at h
    split at h
    · split at h <;> simp at h
    · simp at h
  | _ => simp [cleanDatabase, hpc] at h

end Broker

/-- Behind a reset no worker is in a pass, and none begins one. -/
structure Torn {Bytes : Type*} (B : Broker Bytes) : Prop where
  cleared : B.stopper ≠ .clearKeepRunning → B.mKeepRunning = false
  service : B.mSubscribeService.isReset = true → B.mKeepRunning = false ∧
    B.pickProcessor.usesService = false
  database : B.mDatabase.isReset = true → B.mKeepRunning = false ∧
    B.pickProcessor.usesDatabase = false ∧ B.databaseCleaner.usesDatabase = false

section Steps

variable {Bytes : Type*} {B : Broker Bytes}

theorem Torn.processPick [DecidableEq Bytes] (h : Torn B) (codec : Codec Bytes)
    (sorting : Sorting Int64 V1.Pick) (readings : ProcessorReadings) :
    Torn (B.processPick codec sorting readings).1 := by
  obtain ⟨hkeep, hstopper, hcleaner, hdatabase, hservice⟩ :=
    B.processPick_control codec sorting readings
  obtain ⟨husesService, husesDatabase⟩ := B.processPick_passes codec sorting readings
  refine ⟨?_, ?_, ?_⟩
  · rw [hstopper, hkeep]
    exact h.cleared
  · intro hreset
    rw [hservice] at hreset
    obtain ⟨hstopped, hnone⟩ := h.service hreset
    refine ⟨hkeep.trans hstopped, ?_⟩
    by_contra huses
    have hpass := husesService (by simpa using huses)
    simp [hnone, hstopped] at hpass
  · intro hreset
    rw [hdatabase] at hreset
    obtain ⟨hstopped, hnone, hoff⟩ := h.database hreset
    refine ⟨hkeep.trans hstopped, ?_, hcleaner ▸ hoff⟩
    by_contra huses
    have hpass := husesDatabase (by simpa using huses)
    simp [hnone, hstopped] at hpass

theorem Torn.cleanDatabase (h : Torn B) (now : Int64) (stmt : Statement) :
    Torn (B.cleanDatabase now stmt).1 := by
  obtain ⟨hkeep, hstopper, hprocessor, hdatabase, hservice⟩ := B.cleanDatabase_control now stmt
  have huses := B.cleanDatabase_passes now stmt
  refine ⟨?_, ?_, ?_⟩
  · rw [hstopper, hkeep]
    exact h.cleared
  · rw [hservice, hkeep, hprocessor]
    exact h.service
  · intro hreset
    rw [hdatabase] at hreset
    obtain ⟨hstopped, hnone, hoff⟩ := h.database hreset
    refine ⟨hkeep.trans hstopped, hprocessor ▸ hnone, ?_⟩
    by_contra hpass
    have hbegun := huses (by simpa using hpass)
    simp [hoff, hstopped] at hbegun

theorem Torn.stop (h : Torn B) {fetched : Bool} (hok : ResetsBetweenPasses B (.stop fetched)) :
    Torn (B.stop fetched) := by
  obtain ⟨hcleared, hservice, hdatabase⟩ := h
  obtain ⟨hresetService, hresetDatabase⟩ := hok
  cases hpc : B.stopper with
  | clearKeepRunning =>
    simp only [Broker.stop, hpc]
    exact ⟨fun _ => rfl, fun hreset => ⟨rfl, (hservice hreset).2⟩,
      fun hreset => ⟨rfl, (hdatabase hreset).2⟩⟩
  | resetSubscribeService =>
    have hkeep := hcleared (by simp [hpc])
    simp only [Broker.stop, hpc]
    exact ⟨fun _ => hkeep, fun _ => ⟨hkeep, hresetService hpc⟩, hdatabase⟩
  | resetDatabase =>
    have hkeep := hcleared (by simp [hpc])
    simp only [Broker.stop, hpc]
    exact ⟨fun _ => hkeep, hservice, fun _ => ⟨hkeep, hresetDatabase hpc⟩⟩
  | _ =>
    have hkeep := hcleared (by simp [hpc])
    simp only [Broker.stop, hpc]
    repeat' split
    all_goals exact ⟨fun _ => hkeep, hservice, hdatabase⟩

/-- What leaves the threads alone. -/
theorem Torn.same {B' : Broker Bytes} (h : Torn B) (hsame : B.SameThreads B') : Torn B' := by
  refine ⟨?_, ?_, ?_⟩
  · rw [hsame.stopper, hsame.mKeepRunning]
    exact h.cleared
  · rw [hsame.mSubscribeService, hsame.mKeepRunning, hsame.pickProcessor]
    exact h.service
  · rw [hsame.mDatabase, hsame.mKeepRunning, hsame.pickProcessor, hsame.databaseCleaner]
    exact h.database

variable [DecidableEq Bytes] (codec : Codec Bytes) (sorting : Sorting Int64 V1.Pick)

theorem Torn.next (h : Torn B) (event : BrokerEvent) (hok : ResetsBetweenPasses B event) :
    Torn ((broker codec sorting).next B event) := by
  cases event with
  | processPick readings => exact h.processPick codec sorting readings
  | cleanDatabase now stmt => exact h.cleanDatabase now stmt
  | stop fetched => exact h.stop hok
  | _ => exact h.same (next_client codec sorting B rfl)

/-- No step of a worker calls through a pointer that has been reset. -/
theorem Torn.answer (h : Torn B) (event : BrokerEvent) (pointer : Pointer) :
    .calledAfterReset pointer ∉ (broker codec sorting).answer B event := by
  intro hcall
  cases event with
  | processPick readings =>
    rcases B.processPick_calls codec sorting readings hcall with ⟨hreset, huses⟩ | ⟨hreset, huses⟩
    · simp [(h.database hreset).2.1] at huses
    · simp [(h.service hreset).2] at huses
  | cleanDatabase now stmt =>
    obtain ⟨hreset, huses⟩ := B.cleanDatabase_calls hcall
    simp [(h.database hreset).2.2] at huses
  | stop fetched => cases hcall
  | _ => cases answer_client codec sorting B rfl _ hcall

end Steps

/-- In every interleaving in which `stop` resets each pointer while no worker is in a pass that
may still call through it, no worker ever calls through a pointer that has been reset. -/
theorem uses_nothing_torn_down {Bytes : Type*} [DecidableEq Bytes] (codec : Codec Bytes)
    (sorting : Sorting Int64 V1.Pick) (options : BrokerOptions) (database : Database Bytes)
    (subscribeService : SubscribeService V1.Pick) (events : List BrokerEvent)
    (hresets : (broker codec sorting).Meets ResetsBetweenPasses
      (.started options database subscribeService) events) (pointer : Pointer) :
    .calledAfterReset pointer ∉ (broker codec sorting).trace
      (.started options database subscribeService) events := by
  let Inv (B : Broker Bytes) (tr : List Action) : Prop :=
    Torn B ∧ .calledAfterReset pointer ∉ tr
  have hkeep : ∀ B event tr, Inv B tr → ResetsBetweenPasses B event →
      Inv ((broker codec sorting).next B event) (tr ++ (broker codec sorting).answer B event) := by
    rintro B event tr ⟨htorn, hnone⟩ hok
    refine ⟨htorn.next codec sorting event hok, ?_⟩
    rw [List.mem_append, not_or]
    exact ⟨hnone, htorn.answer codec sorting event pointer⟩
  have hstart : Inv (.started options database subscribeService) [] := by
    refine ⟨⟨?_, ?_, ?_⟩, List.not_mem_nil⟩
    · intro hpc
      exact absurd rfl hpc
    · intro hreset
      cases hreset
    · intro hreset
      cases hreset
  exact (Machine.invariant_trace (broker codec sorting) hkeep hstart hresets).2

section Unmet

variable {Bytes : Type*} [DecidableEq Bytes] (codec : Codec Bytes)
  (sorting : Sorting Int64 V1.Pick) {B : Broker Bytes}

/-- A pass that the reset has come between goes on to the call. -/
theorem cleaner_pass_calls (hreset : B.mDatabase.isReset = true)
    (huses : B.databaseCleaner.usesDatabase = true) (now : Int64) (stmt : Statement) :
    .calledAfterReset .mDatabase ∈
      (broker codec sorting).trace B (List.replicate 2 (.cleanDatabase now stmt)) := by
  cases hpc : B.databaseCleaner <;>
    simp_all [DatabaseCleaner.usesDatabase, List.replicate, Machine.answer, Machine.next, broker,
      Broker.cleanDatabase]

theorem processor_pass_calls {receivedTime : Int64} {pick : V1.Pick}
    (readings : ProcessorReadings)
    (h : (B.mDatabase.isReset = true ∧ (B.pickProcessor = .readDatabase receivedTime pick ∨
        B.pickProcessor = .add receivedTime pick)) ∨
      (B.mSubscribeService.isReset = true ∧
        (B.pickProcessor = .readSubscribeService receivedTime pick ∨
          B.pickProcessor = .enqueue receivedTime pick))) :
    ∃ pointer, .calledAfterReset pointer ∈
      (broker codec sorting).trace B (List.replicate 2 (.processPick readings)) := by
  rcases h with ⟨hreset, hpc | hpc⟩ | ⟨hreset, hpc | hpc⟩
  · exact ⟨.mDatabase, by simp [List.replicate, Machine.answer, Machine.next, broker,
      Broker.processPick, hpc, hreset]⟩
  · exact ⟨.mDatabase, by simp [List.replicate, Machine.answer, broker,
      Broker.processPick, hpc, hreset]⟩
  · exact ⟨.mSubscribeService, by simp [List.replicate, Machine.answer, Machine.next, broker,
      Broker.processPick, hpc, hreset]⟩
  · exact ⟨.mSubscribeService, by simp [List.replicate, Machine.answer, broker,
      Broker.processPick, hpc, hreset]⟩

end Unmet

/-- The processor is paused when it has added a pick to the database. -/
def pausedBeforeEnqueue : List BrokerEvent :=
  .addPickCallback samplePick 1 :: List.replicate 4 (.processPick { now := 1 }) ++
    List.replicate 6 (.stop false) ++ List.replicate 2 (.processPick { now := 1 })

/-- The processor has come back to its loop, and the cleaner waits. -/
def pausedBetweenPasses : List BrokerEvent :=
  .addPickCallback samplePick 1 :: processed 1 ++ cleaned 1 ++
    List.replicate 9 (.stop false) ++ [.processPick {}, .cleanDatabase 1 .ok, .cleanDatabase 1 .ok]

theorem uses_nothing_torn_down_pausedBetweenPasses :
    .calledAfterReset .mSubscribeService ∉
      (broker Codec.plain (Sorting.stable Int64 V1.Pick)).trace freshBroker pausedBetweenPasses :=
  uses_nothing_torn_down _ _ _ _ _ pausedBetweenPasses (by decide) _

theorem pausedBeforeEnqueue_calls :
    .calledAfterReset .mSubscribeService ∈
      (broker Codec.plain (Sorting.stable Int64 V1.Pick)).trace freshBroker
        pausedBeforeEnqueue := by
  decide

end PickBroker
