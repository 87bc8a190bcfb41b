import PickBroker.Broker.Queueing
import PickBroker.Broker.Shutdown
import PickBroker.Framework.Progress

namespace PickBroker

open Framework

def BrokerEvent.ofProcessor : BrokerEvent → Bool
  | .processPick _ => true
  | _ => false

namespace PickProcessor

/-- In how many of its steps the processor takes the next pick from a queue that holds some. -/
def dueIn : PickProcessor → ℕ
  | .returned => 0
  | .takePick => 1
  | .loop => 2
  | .countDuplicate | .enqueue _ _ => 3
  | .readSubscribeService _ _ => 4
  | .add _ _ => 5
  | .readDatabase _ _ => 6

/-- In how many of its steps the processor has nothing in its hands. -/
def emptyIn : PickProcessor → ℕ
  | .loop | .takePick | .countDuplicate | .returned => 0
  | .enqueue _ _ => 1
  | .readSubscribeService _ _ => 2
  | .add _ _ => 3
  | .readDatabase _ _ => 4

theorem dueIn_le (pc : PickProcessor) : pc.dueIn ≤ 6 := by
  cases pc <;> simp [dueIn]

theorem dueIn_pos {pc : PickProcessor} (h : pc ≠ .returned) : 1 ≤ pc.dueIn := by
  cases pc <;> first | exact absurd rfl h | simp [dueIn]

theorem emptyIn_le (pc : PickProcessor) : pc.emptyIn ≤ 4 := by
  cases pc <;> simp [emptyIn]

theorem picks_eq_nil_of_emptyIn {pc : PickProcessor} (h : pc.emptyIn = 0) : pc.hand.picks = [] := by
  cases pc <;> first | rfl | cases h

end PickProcessor

/-- As long as `mKeepRunning` is set nobody has begun to stop the broker, and the processor is in its
loop. -/
structure Unstopped {Bytes : Type*} (B : Broker Bytes) : Prop where
  stopper : B.mKeepRunning = true → B.stopper = .clearKeepRunning
  database : B.mKeepRunning = true → B.mDatabase.isReset = false
  service : B.mKeepRunning = true → B.mSubscribeService.isReset = false
  looping : B.mKeepRunning = true → B.pickProcessor ≠ .returned

theorem Unstopped.same {Bytes : Type*} {B B' : Broker Bytes} (h : Unstopped B)
    (hsame : B.SameThreads B') : Unstopped B' := by
  obtain ⟨-, hkeep, hstopper, hprocessor, -, hdatabase, hservice⟩ := hsame
  refine ⟨?_, ?_, ?_, ?_⟩
  all_goals rw [hkeep]
  · rw [hstopper]
    exact h.stopper
  · rw [hdatabase]
    exact h.database
  · rw [hservice]
    exact h.service
  · rw [hprocessor]
    exact h.looping

section Steps

variable {Bytes : Type*} [DecidableEq Bytes] (codec : Codec Bytes)
  (sorting : Sorting Int64 V1.Pick) {B : Broker Bytes}

/-- Nothing sets `mKeepRunning` again. -/
theorem keepRunning_of_next (B : Broker Bytes) (event : BrokerEvent)
    (h : ((broker codec sorting).next B event).mKeepRunning = true) : B.mKeepRunning = true := by
  cases event with
  | processPick readings =>
    rw [← h]
    exact (B.processPick_control codec sorting readings).1.symm
  | cleanDatabase now stmt =>
    rw [← h]
    exact (B.cleanDatabase_control now stmt).1.symm
  | stop fetched =>
    by_contra hoff
    simp only [Machine.next, broker, Broker.stop] at h
    repeat' split at h
    all_goals simp_all
  | _ =>
    rw [← h]
    exact (next_client codec sorting B rfl).mKeepRunning.symm

theorem next_keepRunning (B : Broker Bytes) (event : BrokerEvent) (h : B.mKeepRunning = false) :
    ((broker codec sorting).next B event).mKeepRunning = false := by
  by_contra hon
  have hback := keepRunning_of_next codec sorting B event (by simpa using hon)
  rw [h] at hback
  cases hback

theorem processPick_returns (readings : ProcessorReadings)
    (h : (B.processPick codec sorting readings).1.pickProcessor = .returned) :
    B.pickProcessor = .returned ∨ B.mKeepRunning = false := by
  cases hpc : B.pickProcessor with
  | loop =>
    simp only [Broker.processPick, hpc] at h
    cases hkeep : B.mKeepRunning with
    | true => simp [hkeep] at h
    | false => exact Or.inr rfl
  | returned => exact Or.inl rfl
  | _ =>
    simp only [Broker.processPick, hpc] at h
    repeat' split at h
    all_goals simp_all

theorem Unstopped.next (h : Unstopped B) (event : BrokerEvent) :
    Unstopped ((broker codec sorting).next B event) := by
  have hback := keepRunning_of_next codec sorting B event
  cases event with
  | processPick readings =>
    obtain ⟨-, hstopper, -, hdatabase, hservice⟩ := B.processPick_control codec sorting readings
    refine ⟨?_, ?_, ?_, ?_⟩
    · exact fun hkeep => hstopper.trans (h.stopper (hback hkeep))
    · exact fun hkeep => hdatabase.trans (h.database (hback hkeep))
    · exact fun hkeep => hservice.trans (h.service (hback hkeep))
    · intro hkeep hreturned
      rcases processPick_returns codec sorting readings hreturned with hpc | hoff
      · exact h.looping (hback hkeep) hpc
      · rw [hback hkeep] at hoff
        cases hoff
  | cleanDatabase now stmt =>
    obtain ⟨-, hstopper, hprocessor, hdatabase, hservice⟩ := B.cleanDatabase_control now stmt
    exact ⟨fun hkeep => hstopper.trans (h.stopper (hback hkeep)),
      fun hkeep => hdatabase.trans (h.database (hback hkeep)),
      fun hkeep => hservice.trans (h.service (hback hkeep)),
      fun hkeep => hprocessor ▸ h.looping (hback hkeep)⟩
  | stop fetched =>
    -- The first statement of `stop` clears the flag.
    have hoff : ((broker codec sorting).next B (.stop fetched)).mKeepRunning = true → False := by
      intro hkeep
      have hpc := h.stopper (hback hkeep)
      simp [Machine.next, broker, Broker.stop, hpc] at hkeep
    exact ⟨fun hkeep => (hoff hkeep).elim, fun hkeep => (hoff hkeep).elim,
      fun hkeep => (hoff hkeep).elim, fun hkeep => (hoff hkeep).elim⟩
  | _ => exact h.same (next_client codec sorting B rfl)

/-- A step of the processor brings it nearer to the next pick, or takes it. -/
theorem processPick_dueIn (h : Unstopped B) (hkeep : B.mKeepRunning = true)
    (hqueue : B.mInputQueue ≠ []) (readings : ProcessorReadings) :
    1 + (B.processPick codec sorting readings).1.pickProcessor.dueIn ≤
      B.pickProcessor.dueIn + 6 * (took (B.processPick codec sorting readings).2).length := by
  have hdatabase := h.database hkeep
  have hservice := h.service hkeep
  cases hpc : B.pickProcessor with
  | loop => simp [Broker.processPick, hpc, hkeep, PickProcessor.dueIn]
  | takePick =>
    cases hq : B.mInputQueue with
    | nil => exact absurd hq hqueue
    | cons pick queue => simp [Broker.processPick, hpc, hq, PickProcessor.dueIn, took]
  | add receivedTime pick =>
    simp only [Broker.processPick, hpc, hdatabase, Bool.false_eq_true, if_false]
    split <;> simp only [PickProcessor.dueIn] <;> omega
  | enqueue receivedTime pick =>
    simp only [Broker.processPick, hpc, hservice, Bool.false_eq_true, if_false]
    split <;> simp only [PickProcessor.dueIn] <;> omega
  | returned => exact absurd hpc (h.looping hkeep)
  | _ => simp [Broker.processPick, hpc, PickProcessor.dueIn]

/-- A step of the processor brings it nearer to having nothing in its hands. -/
theorem processPick_emptyIn (h : Unstopped B) (hkeep : B.mKeepRunning = true)
    (hbusy : B.pickProcessor.emptyIn ≠ 0) (readings : ProcessorReadings) :
    (B.processPick codec sorting readings).1.pickProcessor.emptyIn < B.pickProcessor.emptyIn := by
  have hdatabase := h.database hkeep
  have hservice := h.service hkeep
  cases hpc : B.pickProcessor with
  | loop | takePick | countDuplicate | returned => simp [hpc, PickProcessor.emptyIn] at hbusy
  | add receivedTime pick =>
    simp only [Broker.processPick, hpc, hdatabase, Bool.false_eq_true, if_false]
    split <;> simp [PickProcessor.emptyIn]
  | enqueue receivedTime pick =>
    simp only [Broker.processPick, hpc, hservice, Bool.false_eq_true, if_false]
    split <;> simp [PickProcessor.emptyIn]
  | _ => simp [Broker.processPick, hpc, PickProcessor.emptyIn]

/-- Only the processor moves itself. -/
theorem next_pickProcessor {event : BrokerEvent} (h : event.ofProcessor = false) :
    ((broker codec sorting).next B event).pickProcessor = B.pickProcessor := by
  cases event with
  | processPick readings => cases h
  | cleanDatabase now stmt => exact (B.cleanDatabase_control now stmt).2.2.1
  | stop fetched =>
    simp only [Machine.next, broker, Broker.stop]
    repeat' split
    all_goals rfl
  | _ => exact (next_client codec sorting B rfl).pickProcessor

end Steps

/-- What became of picks that have left the queue and the processor's hands. -/
def settled (tr : List Action) : List V1.Pick :=
  overflowed tr ++ duplicates tr ++ rejected tr ++ handedOver tr

/-- The order in which the picks go from one place to the next, between two moments of a run. -/
structure Moved {Bytes : Type*} (P : Pipeline Bytes) (P' : Pipeline Bytes) (tr : List Action) :
    Prop where
  queue : P.queue ++ accepted tr = dequeued tr ++ P'.queue
  presented : P.hand.unpresented ++ took tr = presented tr ++ P'.hand.unpresented
  handedOver : P.hand.unenqueued ++ (inserted tr).map Prod.snd =
    handedOver tr ++ P'.hand.unenqueued

theorem Moved.step {Bytes : Type*} [DecidableEq Bytes] {codec : Codec Bytes} {capacity : ℕ}
    {P₀ P P' : Pipeline Bytes} {actions tr : List Action} (h : Moved P₀ P tr)
    (hstep : Pipeline.Step codec capacity P actions P') : Moved P₀ P' (tr ++ actions) where
  queue := by
    simp only [lists_append, ← List.append_assoc, h.queue]
    rw [List.append_assoc, hstep.queue, List.append_assoc]
  presented := by
    simp only [lists_append, ← List.append_assoc, h.presented]
    rw [List.append_assoc, hstep.presented, List.append_assoc]
  handedOver := by
    simp only [lists_append, List.map_append, ← List.append_assoc, h.handedOver]
    rw [List.append_assoc, hstep.handedOver, List.append_assoc]

/-- Where as many picks have left the queue as were in it, and the processor's hands are empty, all
that was in the queue and in its hands has been settled. -/
theorem Moved.settled {Bytes : Type*} {P P' : Pipeline Bytes} {tr : List Action}
    (h : Moved P P' tr) (hleft : P.queue.length ≤ (dequeued tr).length)
    (hempty : P'.hand.picks = []) : (P.hand.picks ++ P.queue).Subperm (settled tr) := by
  have hunpresented : P'.hand.unpresented = [] := by
    cases hh : P'.hand <;> simp_all [Hand.picks, Hand.unpresented]
  have hunenqueued : P'.hand.unenqueued = [] := by
    cases hh : P'.hand <;> simp_all [Hand.picks, Hand.unenqueued]
  have hhand : P.hand.picks = P.hand.unpresented ++ P.hand.unenqueued := by
    cases P.hand <;> rfl
  have hfront : P.queue <+: dequeued tr := by
    have hbegins : P.queue <+: dequeued tr ++ P'.queue := ⟨accepted tr, h.queue⟩
    exact List.prefix_of_prefix_length_le hbegins (List.prefix_append _ _) hleft
  apply List.subperm_ext_iff.mpr
  intro pick _
  have hqueue := hfront.sublist.count_le pick
  have hdequeued := (dequeued_perm tr).count_eq pick
  have hall := (presented_perm tr).count_eq pick
  have hpresented := congrArg (List.count pick) h.presented
  have hhandedOver := congrArg (List.count pick) h.handedOver
  rw [hunpresented, List.append_nil] at hpresented
  rw [hunenqueued, List.append_nil] at hhandedOver
  rw [PickBroker.settled, hhand]
  simp only [List.count_append] at hqueue hdequeued hall hpresented hhandedOver ⊢
  omega

section Runs

variable {Bytes : Type*} [DecidableEq Bytes] (codec : Codec Bytes)
  (sorting : Sorting Int64 V1.Pick) (B : Broker Bytes)

theorem moved_run (events : List BrokerEvent) :
    Moved B.pipeline ((broker codec sorting).final B events).pipeline
      ((broker codec sorting).trace B events) := by
  have hstart : Moved B.pipeline B.pipeline [] :=
    ⟨by simp [accepted, dequeued], by simp [took, presented], by simp [inserted, handedOver]⟩
  apply pipeline_invariant_of_step codec sorting _ events hstart
  intro P actions P' tr hP hstep
  exact hP.step hstep

theorem settled_append (tr actions : List Action) :
    (settled tr).Subperm (settled (tr ++ actions)) := by
  apply List.subperm_ext_iff.mpr
  intro pick _
  simp only [settled, lists_append, List.count_append]
  omega

variable {B}

theorem Unstopped.run (h : Unstopped B) (events : List BrokerEvent) :
    Unstopped ((broker codec sorting).final B events) :=
  (broker codec sorting).invariant_of_step (fun _ event hB => hB.next codec sorting event) events h

/-- Six steps of the processor for each pick in the queue take it out. -/
theorem queue_leaves (h : Unstopped B) {events : List BrokerEvent}
    (hrunning : ((broker codec sorting).final B events).mKeepRunning = true)
    (hsteps : 6 * B.mInputQueue.length ≤ events.countP BrokerEvent.ofProcessor) :
    B.mInputQueue.length ≤ (dequeued ((broker codec sorting).trace B events)).length := by
  by_contra hfew
  -- Until then the queue holds a pick, so each of the processor's steps is paid for.
  have hqueue : (broker codec sorting).Meets (fun B _ => B.mInputQueue ≠ []) B events := by
    by_contra hbreak
    obtain ⟨before, event, rest, rfl, -, hempty⟩ :=
      (broker codec sorting).exists_first_break hbreak
    have hmoved := (moved_run codec sorting B before).queue
    rw [Broker.pipeline_queue, Broker.pipeline_queue, not_not.mp hempty, List.append_nil] at hmoved
    have hlength := congrArg List.length hmoved
    rw [Machine.trace_append] at hfew
    simp only [lists_append, List.length_append] at hlength hfew
    omega
  have hkept := Machine.meets_of_final (P := fun B : Broker Bytes => B.mKeepRunning = true)
    (keepRunning_of_next codec sorting) hrunning
  have hmeets := ((broker codec sorting).meets_and _ _ _ _).mpr ⟨hkept, hqueue⟩
  have hpays : ∀ (B : Broker Bytes) event, Unstopped B →
      B.mKeepRunning = true ∧ B.mInputQueue ≠ [] →
      (if event.ofProcessor = true then 1 else 0) +
          ((broker codec sorting).next B event).pickProcessor.dueIn ≤
        B.pickProcessor.dueIn + 6 * (took ((broker codec sorting).answer B event)).length := by
    intro B event hB hok
    cases event with
    | processPick readings => exact processPick_dueIn codec sorting hB hok.1 hok.2 readings
    | _ =>
      rw [next_pickProcessor codec sorting rfl]
      exact le_trans (by simp [BrokerEvent.ofProcessor]) (Nat.le_add_right _ _)
  have hadds : ∀ a b, 6 * (took (a ++ b)).length = 6 * (took a).length + 6 * (took b).length := by
    intro a b
    simp only [lists_append, List.length_append, Nat.mul_add]
  have hpaid := (broker codec sorting).steps_add_potential_le
    (fun _ event => event.ofProcessor = true) (fun B => B.pickProcessor.dueIn)
    (fun tr => 6 * (took tr).length) rfl hadds (fun B event hB _ => hB.next codec sorting event)
    hpays h hmeets
  rw [Machine.steps_eq_countP] at hpaid
  have hstart := B.pickProcessor.dueIn_le
  have hend := PickProcessor.dueIn_pos ((h.run codec sorting events).looping hrunning)
  have htook := (took_sublist ((broker codec sorting).trace B events)).length_le
  omega

/-- Within four steps of the processor it has nothing in its hands. -/
theorem hands_empty (h : Unstopped B) {events : List BrokerEvent}
    (hrunning : ((broker codec sorting).final B events).mKeepRunning = true)
    (hsteps : B.pickProcessor.emptyIn ≤ events.countP BrokerEvent.ofProcessor) :
    ∃ before after, events = before ++ after ∧
      ((broker codec sorting).final B before).pickProcessor.emptyIn = 0 := by
  induction events generalizing B with
  | nil => exact ⟨[], [], rfl, Nat.le_zero.mp hsteps⟩
  | cons event events ih =>
    by_cases hempty : B.pickProcessor.emptyIn = 0
    · exact ⟨[], event :: events, rfl, hempty⟩
    · have hkeep : B.mKeepRunning = true :=
        Machine.holds_of_final (P := fun B : Broker Bytes => B.mKeepRunning = true)
          (keepRunning_of_next codec sorting) hrunning
      have hless : ((broker codec sorting).next B event).pickProcessor.emptyIn ≤
          events.countP BrokerEvent.ofProcessor := by
        cases event with
        | processPick readings =>
          have hlt := processPick_emptyIn codec sorting h hkeep hempty readings
          rw [List.countP_cons_of_pos rfl] at hsteps
          exact Nat.le_of_lt_succ (hlt.trans_le hsteps)
        | _ =>
          rw [next_pickProcessor codec sorting rfl]
          rwa [List.countP_cons_of_neg (by simp [BrokerEvent.ofProcessor])] at hsteps
      obtain ⟨before, after, rfl, hdone⟩ := ih (h.next codec sorting event) hrunning hless
      exact ⟨event :: before, after, rfl, hdone⟩

end Runs

/-- A list with that many elements of a kind has a front with as many as asked for. -/
theorem exists_front_countP {α : Type*} (p : α → Bool) {m k : ℕ} {l : List α}
    (h : m + k ≤ l.countP p) :
    ∃ front back, l = front ++ back ∧ front.countP p = m ∧ k ≤ back.countP p := by
  induction l generalizing m with
  | nil =>
    rw [List.countP_nil] at h
    exact ⟨[], [], rfl, by simp; omega, by simp; omega⟩
  | cons a l ih =>
    cases m with
    | zero => exact ⟨[], a :: l, rfl, rfl, by omega⟩
    | succ m =>
      by_cases ha : p a = true
      · rw [List.countP_cons_of_pos ha] at h
        obtain ⟨front, back, rfl, hfront, hback⟩ := ih (m := m) (by omega)
        exact ⟨a :: front, back, rfl, by rw [List.countP_cons_of_pos ha, hfront], hback⟩
      · rw [List.countP_cons_of_neg ha] at h
        obtain ⟨front, back, rfl, hfront, hback⟩ := ih h
        exact ⟨a :: front, back, rfl, by rw [List.countP_cons_of_neg ha, hfront], hback⟩

/-- In every interleaving: as long as the broker is not being stopped, six steps of the processor for
each pick in the queue, and six more, settle all picks that were in the queue and in the
processor's hands. -/
theorem queued_picks_settle {Bytes : Type*} [DecidableEq Bytes] {codec : Codec Bytes}
    {sorting : Sorting Int64 V1.Pick} {orderBy : Sorting Int64 Bytes} {options : BrokerOptions}
    {database : Database Bytes} {stmt : LoadStatement} {now : Int64} {isSecured : Bool}
    {B₀ : Broker Bytes}
    (hnew : Broker.new codec sorting orderBy options (some database) stmt now isSecured = .ok B₀)
    (before after : List BrokerEvent)
    (hrunning : ((broker codec sorting).final B₀ (before ++ after)).mKeepRunning = true)
    (hsteps : 6 * (((broker codec sorting).final B₀ before).mInputQueue.length + 1) ≤
      after.countP BrokerEvent.ofProcessor) :
    let B := (broker codec sorting).final B₀ before
    (B.pickProcessor.hand.picks ++ B.mInputQueue).Subperm
      (settled ((broker codec sorting).trace B after)) := by
  intro B
  have hstart : Unstopped B₀ := by
    obtain ⟨-, -, -, -, -, -, rfl⟩ := new_ok hnew
    exact ⟨fun _ => rfl, fun _ => rfl, fun _ => rfl, fun _ => by simp [Broker.started]⟩
  have hB : Unstopped B := hstart.run codec sorting before
  rw [Machine.final_append] at hrunning
  -- The picks leave the queue in the front of the run, and the hands are empty soon after.
  obtain ⟨front, back, rfl, hfront, hback⟩ :=
    exists_front_countP BrokerEvent.ofProcessor (m := 6 * B.mInputQueue.length) (k := 6) hsteps
  rw [Machine.final_append] at hrunning
  have hfrontRunning := Machine.holds_of_final (P := fun B : Broker Bytes => B.mKeepRunning = true)
    (keepRunning_of_next codec sorting) hrunning
  have hleft := queue_leaves codec sorting hB hfrontRunning hfront.ge
  have hfrontB := hB.run codec sorting front
  have hsoon := PickProcessor.emptyIn_le ((broker codec sorting).final B front).pickProcessor
  obtain ⟨soon, rest, rfl, hempty⟩ :=
    hands_empty codec sorting hfrontB hrunning (by omega)
  have hsettled := (moved_run codec sorting B (front ++ soon)).settled (by
    rw [Machine.trace_append]
    simp only [lists_append, List.length_append]
    exact le_trans hleft (Nat.le_add_right _ _)) (by
    rw [Machine.final_append]
    exact PickProcessor.picks_eq_nil_of_emptyIn hempty)
  rw [← List.append_assoc, Machine.trace_append]
  exact hsettled.trans (settled_append _ _)

theorem queued_picks_settle_onePick :
    let B := (broker Codec.plain (Sorting.stable Int64 V1.Pick)).final freshBroker
      [.addPickCallback samplePick 1]
    (B.pickProcessor.hand.picks ++ B.mInputQueue).Subperm
      (settled ((broker Codec.plain (Sorting.stable Int64 V1.Pick)).trace B
        (processed 1 ++ processed 2))) :=
  queued_picks_settle new_freshBroker [.addPickCallback samplePick 1] (processed 1 ++ processed 2)
    rfl (by decide)

end PickBroker
