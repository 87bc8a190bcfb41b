import PickBroker.Broker.Deduplication
import PickBroker.Broker.Shutdown

namespace PickBroker

open Framework

/-- The database takes the statement: it is there, it is open, and nothing of it fails. -/
def Broker.Takes {Bytes : Type*} (codec : Codec Bytes) (B : Broker Bytes) (pick : V1.Pick)
    (stmt : Statement) : Prop :=
  B.mDatabase.isReset = false ∧ B.mDatabase.object.mIsOpen = true ∧ stmt.completes = true ∧
    (codec.serialize pick).isSome = true

instance {Bytes : Type*} (codec : Codec Bytes) (B : Broker Bytes) (pick : V1.Pick)
    (stmt : Statement) : Decidable (B.Takes codec pick stmt) :=
  inferInstanceAs (Decidable (_ ∧ _))

/-- The processor leaves its loop when the queue is empty, nothing is queued behind it, and the
database takes what it is shown. -/
def Drains {Bytes : Type*} (codec : Codec Bytes) (B : Broker Bytes) : BrokerEvent → Prop
  | .processPick readings =>
    match B.pickProcessor with
    | .loop => B.mKeepRunning = false → B.mInputQueue = []
    | .add _ pick => B.Takes codec pick readings.stmt
    | _ => True
  | .addPickCallback pick now =>
    B.pickProcessor = .returned → (checkAndFixPick pick now).isOk = false
  | _ => True

instance {Bytes : Type*} (codec : Codec Bytes) (B : Broker Bytes) (event : BrokerEvent) :
    Decidable (Drains codec B event) := by
  cases event with
  | processPick readings =>
    unfold Drains
    generalize B.pickProcessor = processor
    cases processor <;> infer_instance
  | addPickCallback pick now => exact inferInstanceAs (Decidable (_ → _))
  | _ => exact .isTrue trivial

namespace Database

variable {Bytes : Type*} [DecidableEq Bytes] {codec : Codec Bytes} {db : Database Bytes}
  {receivedTime : Int64} {pick : V1.Pick} {stmt : Statement}

/-- A complete pick gets into the table, or is there, when the statement goes through. -/
theorem add_completes (hpick : Normalized pick) (hopen : db.mIsOpen = true)
    (hstmt : stmt.completes = true) (hproto : (codec.serialize pick).isSome = true) :
    (db.add codec receivedTime pick stmt).1 = .ok () ∨
      ∃ what, (db.add codec receivedTime pick stmt).1 = .error (.DuplicatePickException what) := by
  obtain ⟨⟨n, s, c, l, hidentifier⟩, ⟨time, htime⟩, ⟨name, version, tag, halgorithm⟩⟩ := hpick
  obtain ⟨proto, hproto⟩ := Option.isSome_iff_exists.mp hproto
  have hready : Ready codec db pick stmt proto :=
    ⟨by rw [hidentifier]; rfl, by rw [htime]; rfl, by rw [halgorithm]; rfl, hopen, hproto, hstmt⟩
  rw [add_ready hready]
  split
  · exact .inr ⟨_, rfl⟩
  · exact .inl rfl

theorem add_fails (h : ¬ (db.mIsOpen = true ∧ stmt.completes = true ∧
    (codec.serialize pick).isSome = true)) :
    ∃ e, (∀ what, e ≠ .DuplicatePickException what) ∧
      db.add codec receivedTime pick stmt = (.error e, db) := by
  apply add_not_ready
  intro proto hready
  exact h ⟨hready.isOpen, hready.completes, by rw [hready.serialize]; rfl⟩

end Database

theorem BrokerEvent.processPick_or_not (event : BrokerEvent) :
    (∃ readings, event = .processPick readings) ∨ ∀ readings, event ≠ .processPick readings := by
  cases event with
  | processPick readings => exact .inl ⟨readings, rfl⟩
  | _ =>
    right
    intro readings heq
    cases heq

namespace Broker

variable {Bytes : Type*} [DecidableEq Bytes] (codec : Codec Bytes)
  (sorting : Sorting Int64 V1.Pick) (B : Broker Bytes)

/-- Only the processor moves the processor. -/
theorem next_pickProcessor {event : BrokerEvent}
    (h : ∀ readings, event ≠ .processPick readings) :
    ((broker codec sorting).next B event).pickProcessor = B.pickProcessor := by
  cases event with
  | processPick readings => exact absurd rfl (h readings)
  | cleanDatabase now stmt => exact (B.cleanDatabase_control now stmt).2.2.1
  | stop fetched =>
    simp only [Machine.next, broker, stop]
    repeat' split
    all_goals rfl
  | _ => exact (next_client codec sorting B rfl).pickProcessor

/-- A pointer that has been reset stays so. -/
theorem next_isReset (event : BrokerEvent) (h : B.mDatabase.isReset = true) :
    ((broker codec sorting).next B event).mDatabase.isReset = true := by
  cases event with
  | processPick readings => exact (B.processPick_control codec sorting readings).2.2.2.1.trans h
  | cleanDatabase now stmt => exact (B.cleanDatabase_control now stmt).2.2.2.1.trans h
  | stop fetched =>
    simp only [Machine.next, broker, stop]
    repeat' split
    all_goals first | exact h | rfl
  | _ =>
    rw [(next_client codec sorting B rfl).mDatabase]
    exact h

/-- A pick that passes is queued at the back. -/
theorem next_addPickCallback {pick fixed : V1.Pick} {now : Int64}
    (h : checkAndFixPick pick now = .ok fixed) :
    ∃ kept, ((broker codec sorting).next B (.addPickCallback pick now)).mInputQueue =
      kept ++ [fixed] := by
  refine ⟨(makeRoom B.mMaximumInputQueueSize B.mInputQueue).2, ?_⟩
  simp only [Machine.next, broker, addPickCallback, h]

/-- Behind the processor's back the queue changes only where a pick is accepted. -/
theorem next_mInputQueue {event : BrokerEvent} (h : ∀ readings, event ≠ .processPick readings) :
    ((broker codec sorting).next B event).mInputQueue = B.mInputQueue ∨
      ∃ pick now fixed, event = .addPickCallback pick now ∧
        checkAndFixPick pick now = .ok fixed := by
  cases event with
  | processPick readings => exact absurd rfl (h readings)
  | addPickCallback pick now =>
    cases hfix : checkAndFixPick pick now with
    | error failure =>
      left
      cases failure <;> simp [Machine.next, broker, addPickCallback, hfix]
    | ok fixed =>
      exact .inr ⟨pick, now, fixed, rfl, hfix⟩
  | callbackReturns i =>
    left
    simp only [Machine.next, broker, callbackReturns]
    split <;> rfl
  | cleanDatabase now stmt =>
    left
    simp only [Machine.next, broker, cleanDatabase]
    repeat' split
    all_goals rfl
  | stop fetched =>
    left
    simp only [Machine.next, broker, stop]
    repeat' split
    all_goals rfl
  | streamSince contextAddress request client_metadata =>
    left
    simp only [Machine.next, broker, serve]
    split <;> rfl
  | reactor i event =>
    left
    simp only [Machine.next, broker, serve]
    split <;> rfl

/-- Only the processor can fail with a pick. -/
theorem rejected_answer {event : BrokerEvent} (h : ∀ readings, event ≠ .processPick readings) :
    rejected ((broker codec sorting).answer B event) = [] := by
  cases event with
  | processPick readings => exact absurd rfl (h readings)
  | cleanDatabase now stmt =>
    simp only [Machine.answer, broker, cleanDatabase]
    repeat' split
    all_goals rfl
  | stop fetched => rfl
  | _ =>
    refine filterMap_none ?_ (answer_client codec sorting B rfl)
    intro a ha
    cases a <;> first | rfl | cases ha

/-- The processor leaves its loop only where it finds `mKeepRunning` cleared. -/
theorem processPick_returned {readings : ProcessorReadings}
    (h : (B.processPick codec sorting readings).1.pickProcessor = .returned) :
    (B.pickProcessor = .returned ∨ B.pickProcessor = .loop ∧ B.mKeepRunning = false) ∧
      (B.processPick codec sorting readings).1.mInputQueue = B.mInputQueue := by
  cases hpc : B.pickProcessor with
  | loop =>
    cases hkeep : B.mKeepRunning with
    | false => exact ⟨.inr ⟨rfl, rfl⟩, by simp [processPick, hpc]⟩
    | true => simp [processPick, hpc, hkeep] at h
  | returned => exact ⟨.inl rfl, by simp [processPick, hpc]⟩
  | add receivedTime pick =>
    simp only [processPick, hpc] at h
    split at h
    · simp [hpc] at h
    · split at h <;> simp at h
  | enqueue receivedTime pick =>
    simp only [processPick, hpc] at h
    split at h
    · simp [hpc] at h
    · split at h <;> simp at h
  | takePick =>
    simp only [processPick, hpc] at h
    split at h <;> simp at h
  | _ => simp [processPick, hpc] at h

/-- A pick the database takes is not rejected. -/
theorem processPick_rejects {readings : ProcessorReadings}
    (hnormalized : ∀ pick ∈ B.pickProcessor.hand.unpresented, Normalized pick)
    (h : Drains codec B (.processPick readings)) :
    rejected (B.processPick codec sorting readings).2 = [] := by
  cases hpc : B.pickProcessor with
  | add receivedTime pick =>
    simp only [Drains, hpc] at h
    obtain ⟨hreset, hopen, hstmt, hproto⟩ := h
    have hpick := hnormalized pick (by simp [hpc, PickProcessor.hand, Hand.unpresented])
    have hadd : (B.mDatabase.object.add codec receivedTime pick readings.stmt).1 = .ok () ∨
        ∃ what, (B.mDatabase.object.add codec receivedTime pick readings.stmt).1 =
          .error (.DuplicatePickException what) :=
      Database.add_completes hpick hopen hstmt hproto
    simp only [processPick, hpc, hreset, Bool.false_eq_true, if_false]
    rcases hadd with hok | ⟨what, hduplicate⟩
    · simp only [hok]
      rfl
    · simp only [hduplicate]
      rfl
  | takePick =>
    simp only [processPick, hpc]
    split <;> rfl
  | enqueue receivedTime pick =>
    simp only [processPick, hpc]
    repeat' split
    all_goals rfl
  | _ =>
    simp only [processPick, hpc]
    rfl

/-- A pick the database does not take is rejected. -/
theorem processPick_rejected {readings : ProcessorReadings} {receivedTime : Int64} {pick : V1.Pick}
    (hpc : B.pickProcessor = .add receivedTime pick) (hset : B.mDatabase.isReset = false)
    (h : ¬ B.Takes codec pick readings.stmt) :
    rejected (B.processPick codec sorting readings).2 = [pick] := by
  have hbroken : ¬ (B.mDatabase.object.mIsOpen = true ∧ readings.stmt.completes = true ∧
      (codec.serialize pick).isSome = true) := fun hall => h ⟨hset, hall⟩
  obtain ⟨e, he, hadd⟩ : ∃ e, (∀ what, e ≠ .DuplicatePickException what) ∧
      B.mDatabase.object.add codec receivedTime pick readings.stmt =
        (.error e, B.mDatabase.object) := Database.add_fails hbroken
  simp only [processPick, hpc, hset, hadd, Bool.false_eq_true, if_false]
  cases e with
  | DuplicatePickException what => exact absurd rfl (he what)
  | _ => rfl

end Broker

/-- Where `stop` has got the processor's future, the processor has returned. -/
def Joined {Bytes : Type*} (B : Broker Bytes) : Prop :=
  B.stopper = .getSubscribeServiceFuture ∨ B.stopper = .getDatabaseCleanerFuture ∨
    B.stopper = .returned → B.pickProcessor = .returned

section Joined

variable {Bytes : Type*} {B : Broker Bytes}

theorem Joined.stop (h : Joined B) (fetched : Bool) : Joined (B.stop fetched) := by
  have hprocessor : (B.stop fetched).pickProcessor = B.pickProcessor := by
    unfold Broker.stop
    repeat' split
    all_goals rfl
  cases hpc : B.stopper with
  | getPickProcessorFuture =>
    simp only [Broker.stop, hpc]
    split
    · rename_i hreturned
      exact fun _ => hreturned
    · exact h
  | getSubscribeServiceFuture | getDatabaseCleanerFuture | returned =>
    intro _
    exact hprocessor.trans (h (by simp [hpc]))
  | _ =>
    intro hlate
    simp [Broker.stop, hpc] at hlate

theorem Joined.same {B' : Broker Bytes} (h : Joined B) (hsame : B.SameThreads B') : Joined B' := by
  intro hlate
  rw [hsame.stopper] at hlate
  exact hsame.pickProcessor.trans (h hlate)

variable [DecidableEq Bytes] (codec : Codec Bytes) (sorting : Sorting Int64 V1.Pick)

theorem Joined.processPick (h : Joined B) (readings : ProcessorReadings) :
    Joined (B.processPick codec sorting readings).1 := by
  intro hlate
  rw [(B.processPick_control codec sorting readings).2.1] at hlate
  have hpc := h hlate
  simp [Broker.processPick, hpc]

theorem Joined.next (h : Joined B) (event : BrokerEvent) :
    Joined ((broker codec sorting).next B event) := by
  cases event with
  | processPick readings => exact h.processPick codec sorting readings
  | cleanDatabase now stmt =>
    obtain ⟨-, hstopper, hprocessor, -⟩ := B.cleanDatabase_control now stmt
    intro hlate
    exact hprocessor.trans (h (hstopper ▸ hlate))
  | stop fetched => exact h.stop fetched
  | _ => exact h.same (next_client codec sorting B rfl)

end Joined

/-- What is on its way to the database came from the publishers. -/
theorem Pipeline.Step.underway {Bytes : Type*} [DecidableEq Bytes] {codec : Codec Bytes}
    {capacity : ℕ} {P P' : Pipeline Bytes} {actions : List Action}
    (h : Step codec capacity P actions P') {pick : V1.Pick}
    (hpick : pick ∈ P'.queue ++ P'.hand.unpresented) :
    pick ∈ P.queue ++ P.hand.unpresented ∨ pick ∈ accepted actions := by
  have hqueued : ∀ q ∈ dequeued actions ++ P'.queue, q ∈ P.queue ∨ q ∈ accepted actions := by
    intro q hq
    rw [← h.queue] at hq
    exact List.mem_append.mp hq
  rw [List.mem_append]
  rcases List.mem_append.mp hpick with hqueue | hhand
  · have hfrom := hqueued pick (List.mem_append_right _ hqueue)
    tauto
  · have hshown : pick ∈ P.hand.unpresented ++ took actions := by
      rw [h.presented]
      exact List.mem_append_right _ hhand
    rcases List.mem_append.mp hshown with hold | htook
    · exact .inl (.inr hold)
    · have hleft : pick ∈ dequeued actions := (took_sublist actions).subset htook
      have hfrom := hqueued pick (List.mem_append_left _ hleft)
      tauto

/-- So far no pick has been lost. -/
structure Draining {Bytes : Type*} (B : Broker Bytes) (tr : List Action) : Prop where
  complete : ∀ pick ∈ B.mInputQueue ++ B.pickProcessor.hand.unpresented, Normalized pick
  rejected : rejected tr = []
  emptied : B.pickProcessor = .returned → B.mInputQueue = []

/-- A pick is lost, or the processor is stuck with it. -/
def Lost {Bytes : Type*} (B : Broker Bytes) (tr : List Action) : Prop :=
  (B.pickProcessor = .returned ∧ B.mInputQueue ≠ []) ∨ rejected tr ≠ [] ∨
    ∃ receivedTime pick, B.pickProcessor = .add receivedTime pick ∧ B.mDatabase.isReset = true

section Steps

variable {Bytes : Type*} [DecidableEq Bytes] (codec : Codec Bytes)
  (sorting : Sorting Int64 V1.Pick) {B : Broker Bytes} {tr : List Action}

theorem Draining.emptied_next (h : Draining B tr) {event : BrokerEvent}
    (hok : Drains codec B event)
    (hreturned : ((broker codec sorting).next B event).pickProcessor = .returned) :
    ((broker codec sorting).next B event).mInputQueue = [] := by
  rcases event.processPick_or_not with ⟨readings, rfl⟩ | hother
  · obtain ⟨hleft, hqueue⟩ := B.processPick_returned codec sorting hreturned
    refine hqueue.trans ?_
    rcases hleft with hbefore | ⟨hloop, hcleared⟩
    · exact h.emptied hbefore
    · simp only [Drains, hloop] at hok
      exact hok hcleared
  · rw [B.next_pickProcessor codec sorting hother] at hreturned
    rcases B.next_mInputQueue codec sorting hother with hsame | ⟨pick, now, fixed, rfl, hfix⟩
    · exact hsame.trans (h.emptied hreturned)
    · have hrefused := hok hreturned
      rw [hfix] at hrefused
      cases hrefused

theorem Draining.next (h : Draining B tr) (event : BrokerEvent) (hok : Drains codec B event) :
    Draining ((broker codec sorting).next B event)
      (tr ++ (broker codec sorting).answer B event) where
  complete pick hpick := by
    rcases (broker_step codec sorting B event).underway hpick with hbefore | hnew
    · exact h.complete pick hbefore
    · rw [accepted_answer] at hnew
      exact submissions_normalized hnew
  rejected := by
    have hnone : PickBroker.rejected ((broker codec sorting).answer B event) = [] := by
      rcases event.processPick_or_not with ⟨readings, rfl⟩ | hother
      · refine B.processPick_rejects codec sorting ?_ hok
        intro pick hpick
        exact h.complete pick (List.mem_append_right _ hpick)
      · exact B.rejected_answer codec sorting hother
    simp only [lists_append, h.rejected, hnone, List.append_nil]
  emptied hreturned := h.emptied_next codec sorting hok hreturned

theorem Lost.of_break {event : BrokerEvent} (h : ¬ Drains codec B event) :
    Lost ((broker codec sorting).next B event) (tr ++ (broker codec sorting).answer B event) := by
  cases event with
  | processPick readings =>
    cases hpc : B.pickProcessor with
    | loop =>
      simp only [Drains, hpc, Classical.not_imp] at h
      left
      simpa [Machine.next, broker, Broker.processPick, hpc, h.1] using h.2
    | add receivedTime pick =>
      simp only [Drains, hpc] at h
      cases hreset : B.mDatabase.isReset with
      | true =>
        right; right
        refine ⟨receivedTime, pick, ?_, B.next_isReset codec sorting _ hreset⟩
        simp [Machine.next, broker, Broker.processPick, hpc, hreset]
      | false =>
        right; left
        have hlost := B.processPick_rejected codec sorting hpc hreset h
        simp [lists_append, Machine.answer, broker, hlost]
    | _ => exact absurd (by simp [Drains, hpc]) h
  | addPickCallback pick now =>
    simp only [Drains, Classical.not_imp, Bool.not_eq_false] at h
    obtain ⟨hreturned, hpassed⟩ := h
    left
    refine ⟨(B.next_pickProcessor codec sorting (by simp)).trans hreturned, ?_⟩
    cases hfix : checkAndFixPick pick now with
    | error e => simp [hfix, Except.isOk, Except.toBool] at hpassed
    | ok fixed =>
      obtain ⟨kept, hqueue⟩ := B.next_addPickCallback codec sorting hfix
      simp [hqueue]
  | _ => exact absurd trivial h

/-- What is lost stays lost. -/
theorem Lost.next (h : Lost B tr) (event : BrokerEvent) :
    Lost ((broker codec sorting).next B event) (tr ++ (broker codec sorting).answer B event) := by
  rcases h with ⟨hreturned, hqueue⟩ | hrejected | ⟨receivedTime, pick, hpc, hreset⟩
  · left
    rcases event.processPick_or_not with ⟨readings, rfl⟩ | hother
    · simpa [Machine.next, broker, Broker.processPick, hreturned] using hqueue
    · refine ⟨(B.next_pickProcessor codec sorting hother).trans hreturned, ?_⟩
      rcases B.next_mInputQueue codec sorting hother with hsame | ⟨_, now, fixed, rfl, hfix⟩
      · rwa [hsame]
      · obtain ⟨kept, hnew⟩ := B.next_addPickCallback codec sorting hfix
        simp [hnew]
  · right; left
    simp [lists_append, hrejected]
  · right; right
    refine ⟨receivedTime, pick, ?_, B.next_isReset codec sorting event hreset⟩
    rcases event.processPick_or_not with ⟨readings, rfl⟩ | hother
    · simp [Machine.next, broker, Broker.processPick, hpc, hreset]
    · exact (B.next_pickProcessor codec sorting hother).trans hpc

theorem lost_run (h : Lost B tr) (events : List BrokerEvent) :
    Lost ((broker codec sorting).final B events) (tr ++ (broker codec sorting).trace B events) := by
  induction events generalizing B tr with
  | nil =>
    rw [Machine.trace_nil, List.append_nil]
    exact h
  | cons event events ih =>
    have hrest := ih (h.next codec sorting event)
    rwa [List.append_assoc] at hrest

end Steps

/-- Every pick that was queued has been dropped as overflow, inserted or recognised as a
duplicate. -/
def AllPresented (tr : List Action) : Prop :=
  (accepted tr).Perm (overflowed tr ++ ((inserted tr).map Prod.snd ++ duplicates tr))

instance (tr : List Action) : Decidable (AllPresented tr) :=
  inferInstanceAs (Decidable (List.Perm _ _))

/-- Once the processor is empty-handed, the other picks are those it failed with and those still
queued. -/
theorem allPresented_iff {Bytes : Type*} {capacity : ℕ} {P : Pipeline Bytes} {tr : List Action}
    (h : Booked capacity P tr) (hhand : P.hand.unpresented = []) :
    AllPresented tr ↔ rejected tr = [] ∧ P.queue = [] := by
  have hpresented := h.presented
  rw [hhand, List.append_nil] at hpresented
  have hplaces : (accepted tr).Perm (overflowed tr ++
      ((inserted tr).map Prod.snd ++ duplicates tr) ++ (rejected tr ++ P.queue)) := by
    have htook := (hpresented ▸ presented_perm tr : (took tr).Perm _)
    have hdequeued := (dequeued_perm tr).trans (htook.append_left _)
    rw [h.queue]
    simpa only [List.append_assoc] using hdequeued.append_right P.queue
  constructor
  · intro hall
    have hlength := (hplaces.symm.trans hall).length_eq
    have hnone : rejected tr ++ P.queue = [] := by
      apply List.eq_nil_of_length_eq_zero
      rw [List.length_append] at hlength
      omega
    exact List.append_eq_nil_iff.mp hnone
  · intro hparts
    obtain ⟨hrejected, hqueue⟩ := hparts
    rw [hrejected, hqueue, List.append_nil, List.append_nil] at hplaces
    exact hplaces

/-- What has been inserted or recognised is in the table until a deletion. -/
theorem Pipeline.Step.shown {Bytes : Type*} [DecidableEq Bytes] {codec : Codec Bytes}
    {capacity : ℕ} {P P' : Pipeline Bytes} {actions : List Action}
    (h : Step codec capacity P actions P') {pick : V1.Pick}
    (hpick : pick ∈ (inserted actions).map Prod.snd ++ PickBroker.duplicates actions) :
    ∃ proto, codec.serialize pick = some proto ∧ proto ∈ P'.table.values := by
  cases h with
  | idle hquiet => simp [quiet_lists hquiet] at hpick
  | accept hqueue room pick => simp [inserted, PickBroker.duplicates, List.filterMap_map] at hpick
  | insert hand hproto hnew =>
    obtain rfl := by simpa [inserted, PickBroker.duplicates] using hpick
    refine ⟨_, hproto, ?_⟩
    rw [UniqueTable.values, UniqueTable.rows_insertOrIgnore hnew]
    simp
  | duplicate hand hproto hold =>
    obtain rfl := by simpa [inserted, PickBroker.duplicates] using hpick
    exact ⟨_, hproto, hold⟩
  | _ => simp [inserted, PickBroker.duplicates] at hpick

theorem shown_run {Bytes : Type*} [DecidableEq Bytes] (codec : Codec Bytes)
    (sorting : Sorting Int64 V1.Pick) (start : Broker Bytes) (events : List BrokerEvent) :
    let tr := (broker codec sorting).trace start events
    deletions tr = [] → ∀ pick ∈ (inserted tr).map Prod.snd ++ duplicates tr,
      ∃ proto, codec.serialize pick = some proto ∧
        proto ∈ ((broker codec sorting).final start events).mDatabase.object.picks.values := by
  let Inv (P : Pipeline Bytes) (tr : List Action) : Prop :=
    deletions tr = [] → ∀ pick ∈ (inserted tr).map Prod.snd ++ duplicates tr,
      ∃ proto, codec.serialize pick = some proto ∧ proto ∈ P.table.values
  have hkeep : ∀ P actions P' tr, Inv P tr →
      Pipeline.Step codec start.mMaximumInputQueueSize P actions P' → Inv P' (tr ++ actions) := by
    intro P actions P' tr hP hstep hnone pick hpick
    have hdeletions : deletions (tr ++ actions) = deletions tr ++ deletions actions := by
      simp only [lists_append]
    rw [hdeletions, List.append_eq_nil_iff] at hnone
    simp only [lists_append, List.map_append, List.mem_append] at hpick
    have hcases : pick ∈ (inserted tr).map Prod.snd ++ duplicates tr ∨
        pick ∈ (inserted actions).map Prod.snd ++ duplicates actions := by
      rw [List.mem_append, List.mem_append]
      tauto
    rcases hcases with hbefore | hnew
    · obtain ⟨proto, hproto, hvalue⟩ := hP hnone.1 pick hbefore
      obtain ⟨receivedTime, hrow⟩ := UniqueTable.mem_values.mp hvalue
      refine ⟨proto, hproto, UniqueTable.mem_values.mpr ⟨receivedTime, hstep.row hrow ?_⟩⟩
      intro time htime
      rw [← mem_deletions, hnone.2] at htime
      cases htime
    · exact hstep.shown hnew
  exact pipeline_invariant_of_step codec sorting hkeep events (by simp [Inv, inserted, duplicates])

theorem joined_run {Bytes : Type*} [DecidableEq Bytes] (codec : Codec Bytes)
    (sorting : Sorting Int64 V1.Pick) (options : BrokerOptions) (database : Database Bytes)
    (subscribeService : SubscribeService V1.Pick) (events : List BrokerEvent) :
    Joined ((broker codec sorting).final (.started options database subscribeService) events) := by
  have hstart : Joined (Broker.started options database subscribeService) := by
    rintro (h | h | h) <;> cases h
  exact Machine.invariant_of_step _ (fun _ event h => h.next codec sorting event) events hstart

/-- A run that has ended in the return of `stop` has lost no pick exactly when it drains. -/
theorem drained_iff {Bytes : Type*} [DecidableEq Bytes] (codec : Codec Bytes)
    (sorting : Sorting Int64 V1.Pick) (options : BrokerOptions) (database : Database Bytes)
    (subscribeService : SubscribeService V1.Pick) (events : List BrokerEvent) :
    let start := Broker.started options database subscribeService
    let B := (broker codec sorting).final start events
    B.pickProcessor = .returned →
      (rejected ((broker codec sorting).trace start events) = [] ∧ B.mInputQueue = [] ↔
        (broker codec sorting).Meets (Drains codec) start events) := by
  intro start B hreturned
  constructor
  · intro hparts
    obtain ⟨hrejected, hqueue⟩ := hparts
    by_contra hmeets
    obtain ⟨before, event, after, rfl, _, hbreak⟩ := Machine.exists_first_break _ hmeets
    have hfirst : Lost _ ((broker codec sorting).trace start before ++ _) :=
      Lost.of_break codec sorting hbreak
    have hlost := lost_run codec sorting hfirst after
    rw [List.append_assoc, ← Machine.trace_cons, ← Machine.trace_append, ← Machine.final_cons,
      ← Machine.final_append] at hlost
    rcases hlost with ⟨_, hkept⟩ | hfailed | ⟨receivedTime, pick, hstuck, _⟩
    · exact hkept hqueue
    · exact hfailed hrejected
    · rw [hreturned] at hstuck
      cases hstuck
  · intro hmeets
    have hstart : Draining start [] := ⟨by simp [start, Broker.started, PickProcessor.hand,
      Hand.unpresented], rfl, fun _ => rfl⟩
    have hdraining := Machine.invariant_trace (broker codec sorting)
      (fun _ event _ h hok => h.next codec sorting event hok) hstart hmeets
    exact ⟨hdraining.rejected, hdraining.emptied hreturned⟩

/-- When `stop` has returned, all accepted picks have been dropped as overflow, inserted or
recognised as duplicates exactly when the run drains; the picks of the calls that have returned are
among them, and every pick that was inserted or recognised is in the table of the file if nothing
has been deleted. -/
theorem no_pick_abandoned {Bytes : Type*} [DecidableEq Bytes] (codec : Codec Bytes)
    (sorting : Sorting Int64 V1.Pick) (options : BrokerOptions) (database : Database Bytes)
    (subscribeService : SubscribeService V1.Pick) (events : List BrokerEvent) :
    let start := Broker.started options database subscribeService
    let B := (broker codec sorting).final start events
    let tr := (broker codec sorting).trace start events
    B.stopper = .returned →
      (AllPresented tr ↔ (broker codec sorting).Meets (Drains codec) start events) ∧
        (returned tr).Subperm (accepted tr) ∧
        (deletions tr = [] → ∀ pick ∈ (inserted tr).map Prod.snd ++ duplicates tr,
          ∃ proto, codec.serialize pick = some proto ∧
            proto ∈ B.mDatabase.object.reopened.picks.values) := by
  intro start B tr hstopped
  have hbooked : Booked options.mQueueCapacity.toInt.toNat B.pipeline tr :=
    booked_run codec sorting options database subscribeService events
  have hreturned : B.pickProcessor = .returned :=
    joined_run codec sorting options database subscribeService events (.inr (.inr hstopped))
  have hhand : B.pipeline.hand.unpresented = [] := by
    rw [Broker.pipeline_hand, hreturned]
    rfl
  refine ⟨?_, ?_, ?_⟩
  · rw [allPresented_iff hbooked hhand]
    exact drained_iff codec sorting options database subscribeService events hreturned
  · exact (List.sublist_append_left _ _).subperm.trans hbooked.calls.symm.subperm
  · exact shown_run codec sorting start events

/-- The publisher's pick is queued just before `stop` is called. -/
def stoppedAtOnce : List BrokerEvent :=
  [.addPickCallback samplePick 1, .callbackReturns 0, .stop false, .processPick {},
    .cleanDatabase 1 .ok] ++ List.replicate 12 (.stop false)

/-- The same, with time for one pass of the processor. -/
def stoppedLater : List BrokerEvent :=
  [.addPickCallback samplePick 1, .callbackReturns 0] ++ processed 1 ++
    [.stop false, .processPick {}, .cleanDatabase 1 .ok] ++ List.replicate 12 (.stop false)

theorem no_pick_abandoned_stoppedLater :
    AllPresented ((broker Codec.plain (Sorting.stable Int64 V1.Pick)).trace freshBroker
      stoppedLater) :=
  (no_pick_abandoned Codec.plain (Sorting.stable Int64 V1.Pick) bothServices {}
    (.started (Sorting.stable Int64 V1.Pick) (.backfilled {} [] 0) {} false) stoppedLater
    (by decide)).1.mpr (by decide)

/-- `stop` returns, and the pick its publisher was told is accepted is nowhere. -/
theorem stoppedAtOnce_abandons :
    let B := (broker Codec.plain (Sorting.stable Int64 V1.Pick)).final freshBroker stoppedAtOnce
    let tr := (broker Codec.plain (Sorting.stable Int64 V1.Pick)).trace freshBroker stoppedAtOnce
    B.stopper = .returned ∧ returned tr = [samplePick] ∧ overflowed tr = [] ∧ presented tr = [] ∧
      ¬ AllPresented tr ∧ B.mDatabase.object.reopened.picks.values = [] := by
  decide

end PickBroker
