import PickBroker.Framework.Precedence
import PickBroker.Broker.Deduplication
import PickBroker.Broker.Following

namespace PickBroker

open Framework

/-- The entry stands for an accepted pick that was in the database before. -/
structure Durable (tr : List Action) (e : Int64 × V1.Pick) : Prop where
  accepted : e.2 ∈ accepted tr
  inserted : .inserted e.1 e.2 ∈ tr

theorem Durable.append {tr : List Action} {e : Int64 × V1.Pick} (h : Durable tr e)
    (actions : List Action) : Durable (tr ++ actions) e := by
  refine ⟨?_, List.mem_append_left _ h.inserted⟩
  rw [(lists_append tr actions).1]
  exact List.mem_append_left _ h.accepted

/-- Where the picks on their way through the broker come from. -/
structure Sourced {Bytes : Type*} (loadedPicks : List (Int64 × V1.Pick)) (P : Pipeline Bytes)
    (tr : List Action) : Prop where
  queue : ∀ pick ∈ P.queue, pick ∈ accepted tr
  taken : ∀ t pick, P.hand = .taken t pick → pick ∈ accepted tr
  held : ∀ t pick, P.hand = .inserted t pick → Durable tr (t, pick)
  store : ∀ e ∈ P.store, e ∈ loadedPicks ∨ Durable tr e

theorem Sourced.step {Bytes : Type*} [DecidableEq Bytes] {codec : Codec Bytes} {capacity : ℕ}
    {loadedPicks : List (Int64 × V1.Pick)} {P P' : Pipeline Bytes} {actions tr : List Action}
    (h : Sourced loadedPicks P tr) (hstep : Pipeline.Step codec capacity P actions P') :
    Sourced loadedPicks P' (tr ++ actions) := by
  have hold : ∀ pick ∈ accepted tr, pick ∈ accepted (tr ++ actions) := by
    intro pick hpick
    rw [(lists_append tr actions).1]
    exact List.mem_append_left _ hpick
  have hstore : ∀ e ∈ P.store, e ∈ loadedPicks ∨ Durable (tr ++ actions) e :=
    fun e he => (h.store e he).imp_right fun hd => hd.append actions
  have htaken : ∀ t pick, P.hand = .taken t pick → pick ∈ accepted (tr ++ actions) :=
    fun t pick hand => hold pick (h.taken t pick hand)
  have hheld : ∀ t pick, P.hand = .inserted t pick → Durable (tr ++ actions) (t, pick) :=
    fun t pick hand => (h.held t pick hand).append actions
  have hqueue : ∀ pick ∈ P.queue, pick ∈ accepted (tr ++ actions) :=
    fun pick hpick => hold pick (h.queue pick hpick)
  cases hstep with
  | idle _ | ret _ | delete _ => exact ⟨hqueue, htaken, hheld, hstore⟩
  | accept hsplit room pick =>
    refine ⟨?_, htaken, hheld, hstore⟩
    intro p hp
    rcases List.mem_append.mp hp with hp | hp
    · exact hqueue p (by rw [hsplit]; exact List.mem_append_right _ hp)
    · rw [List.mem_singleton.mp hp]
      simp [accepted]
  | take hand hsplit receivedTime =>
    refine ⟨?_, ?_, by simp, hstore⟩
    · intro p hp
      exact hqueue p (by rw [hsplit]; exact List.mem_cons_of_mem _ hp)
    · intro t p heq
      cases heq
      exact hqueue _ (by rw [hsplit]; exact List.mem_cons_self)
  | insert hand hproto new =>
    refine ⟨hqueue, by simp, ?_, hstore⟩
    intro t p heq
    cases heq
    exact ⟨htaken _ _ hand, by simp⟩
  | duplicate hand _ _ | count hand | fail hand _ =>
    exact ⟨hqueue, by simp, by simp, hstore⟩
  | enqueue hand clean hperm =>
    refine ⟨hqueue, by simp, by simp, ?_⟩
    intro e he
    rcases List.mem_append.mp (hperm.mem_iff.mp he) with he | he
    · exact hstore e (clean.sublist.subset he)
    · rw [List.mem_singleton.mp he]
      exact Or.inr (hheld _ _ hand)
  | throw hand clean e =>
    exact ⟨hqueue, by simp, by simp, fun e he => hstore e (clean.sublist.subset he)⟩

/-- What a writer has in its queue after a step it had before or has read from the store, and what
it begins to write was in its queue. -/
theorem writer_step_queue {Pick : Type*} (shared : Shared Pick) (w : AsynchronousWriter Pick)
    (event : WriterEvent) :
    (∀ pick ∈ (w.step shared event).2.1.mPicksQueue, pick ∈ w.mPicksQueue ∨
      ∃ e ∈ shared.mPickStore.mDeque, e.2 = pick) ∧
    ∀ pick, .startWrite pick ∈ (w.step shared event).2.2 → pick ∈ w.mPicksQueue := by
  cases event with
  | proceed readings =>
    cases hpc : w.pc with
    | trySubscribe =>
      simp only [AsynchronousWriter.step, AsynchronousWriter.proceed, hpc]
      split <;> exact ⟨fun pick hp => Or.inl hp, by simp⟩
    | checkLimit | authenticate =>
      simp only [AsynchronousWriter.step, AsynchronousWriter.proceed, hpc]
      refine ⟨fun pick hp => Or.inl hp, ?_⟩
      intro pick hp
      split at hp <;> simp at hp
    | fetchAdd | idle | deleted =>
      simp only [AsynchronousWriter.step, AsynchronousWriter.proceed, hpc]
      exact ⟨fun pick hp => Or.inl hp, by simp⟩
    | nextWrite =>
      simp only [AsynchronousWriter.step, AsynchronousWriter.proceed, hpc,
        AsynchronousWriter.nextWrite]
      split
      · split
        · rename_i first rest hqueue
          split
          · exact ⟨fun pick hp => Or.inl hp, by simp⟩
          · refine ⟨fun pick hp => Or.inl hp, ?_⟩
            intro pick hp
            simp only [List.mem_singleton, WriterAction.startWrite.injEq] at hp
            rw [hp, hqueue]
            exact List.mem_cons_self
        · rw [PickStore.getPicks_eq _ _ (by decide)]
          refine ⟨?_, by simp⟩
          intro pick hp
          obtain ⟨e, he, heq⟩ := List.mem_map.mp hp
          exact Or.inr ⟨e, PickStore.mem_of_mem_batch _ he, heq⟩
      · exact ⟨fun pick hp => Or.inl hp, by simp⟩
  | onWriteDone ok keepRunning cancelled =>
    simp only [AsynchronousWriter.step, AsynchronousWriter.onWriteDone]
    split
    · exact ⟨fun pick hp => Or.inl hp, by simp⟩
    · split
      · exact ⟨fun pick hp => Or.inl hp, by simp⟩
      · exact ⟨fun pick hp => Or.inl (List.mem_of_mem_tail hp), by simp⟩
  | onCancel | onDone =>
    simp only [AsynchronousWriter.step, AsynchronousWriter.onCancel, AsynchronousWriter.onDone,
      AsynchronousWriter.disconnect]
    split <;> exact ⟨fun pick hp => Or.inl hp, by simp⟩

/-- The pick has been loaded, or was accepted and in the database. -/
def Known (loadedPicks : List (Int64 × V1.Pick)) (tr : List Action) (pick : V1.Pick) : Prop :=
  ∃ t, (t, pick) ∈ loadedPicks ∨ Durable tr (t, pick)

theorem Known.append {loadedPicks : List (Int64 × V1.Pick)} {tr : List Action} {pick : V1.Pick}
    (h : Known loadedPicks tr pick) (actions : List Action) :
    Known loadedPicks (tr ++ actions) pick := by
  obtain ⟨t, ht⟩ := h
  exact ⟨t, ht.imp_right fun hd => hd.append actions⟩

/-- Whatever is written was known before. -/
def WritesKnown (loadedPicks : List (Int64 × V1.Pick)) : List Action → Prop :=
  Preceded fun before a => ∀ i pick, a = .writer i (.startWrite pick) →
    Known loadedPicks before pick

/-- What is on its way to the subscribers is known. -/
structure Supplied {Bytes : Type*} (loadedPicks : List (Int64 × V1.Pick)) (B : Broker Bytes)
    (tr : List Action) : Prop where
  sourced : Sourced loadedPicks B.pipeline tr
  queues : ∀ R ∈ B.mSubscribeService.object.reactors, ∀ pick ∈ R.writer.mPicksQueue,
    Known loadedPicks tr pick

theorem supplied_new {Bytes : Type*} {codec : Codec Bytes} {sorting : Sorting Int64 V1.Pick}
    {orderBy : Sorting Int64 Bytes} {options : BrokerOptions} {B : Broker Bytes}
    {loadedPicks : List (Int64 × V1.Pick)} {database : Database Bytes} {stmt : LoadStatement}
    {now : Int64} {isSecured : Bool}
    (hnew : Broker.new codec sorting orderBy options (some database) stmt now isSecured = .ok B)
    (hload : database.load codec orderBy stmt = .ok loadedPicks) : Supplied loadedPicks B [] := by
  obtain ⟨serviceOptions, loaded, -, -, -, hloaded, rfl⟩ := new_ok hnew
  rw [hload] at hloaded
  cases hloaded
  refine ⟨⟨?_, ?_, ?_, ?_⟩, ?_⟩
  · intro pick hpick
    cases hpick
  · intro t pick hand
    cases hand
  · intro t pick hand
    cases hand
  · intro e he
    exact Or.inl ((sorting.perm _).mem_iff.mp ((PickStore.cleanDeque_sublist _ _).subset he))
  · intro R hR
    cases hR

section Supplies

variable {Bytes : Type*} [DecidableEq Bytes] (codec : Codec Bytes)
  (sorting : Sorting Int64 V1.Pick) {loadedPicks : List (Int64 × V1.Pick)} {B : Broker Bytes}
  {tr : List Action}

theorem Supplied.writers (h : Supplied loadedPicks B tr) (event : BrokerEvent) :
    (∀ R ∈ ((broker codec sorting).next B event).mSubscribeService.object.reactors,
      ∀ pick ∈ R.writer.mPicksQueue, Known loadedPicks tr pick) ∧
    ∀ i pick, .writer i (.startWrite pick) ∈ (broker codec sorting).answer B event →
      Known loadedPicks tr pick := by
  have hmove := broker_serviceMove sorting B codec event
  generalize ((broker codec sorting).next B event).mSubscribeService.object = S' at hmove ⊢
  generalize (broker codec sorting).answer B event = actions at hmove ⊢
  cases hmove with
  | still quiet gone =>
    refine ⟨h.queues, ?_⟩
    intro i pick hmem
    cases quiet _ hmem
  | stopped byOwner => exact ⟨h.queues, by simp⟩
  | connected contextAddress request client_metadata =>
    refine ⟨?_, by simp⟩
    intro R hR pick hpick
    simp only [SubscribeService.connect, List.mem_append, List.mem_singleton] at hR
    rcases hR with hR | rfl
    · exact h.queues R hR pick hpick
    · cases hpick
  | reacted there j e =>
    cases hj : B.mSubscribeService.object.reactors[j]? with
    | none =>
      rw [react_of_none hj]
      exact ⟨h.queues, by simp⟩
    | some Q =>
      obtain ⟨-, hreactors, hdone, hwriter⟩ := react_of_getElem? hj e
      have hQ := List.mem_of_getElem? hj
      obtain ⟨hread, hwrite⟩ :=
        writer_step_queue B.mSubscribeService.object.shared Q.writer e
      rw [hreactors, hdone]
      refine ⟨?_, ?_⟩
      · intro R hR pick hpick
        rcases List.mem_or_eq_of_mem_set hR with hR | rfl
        · exact h.queues R hR pick hpick
        · rw [hwriter] at hpick
          rcases hread pick hpick with hpick | ⟨⟨t, p⟩, he, rfl⟩
          · exact h.queues Q hQ pick hpick
          · exact ⟨t, h.sourced.store (t, p) he⟩
      · intro i pick hmem
        obtain ⟨action, haction, heq⟩ := List.mem_map.mp hmem
        cases heq
        exact h.queues Q hQ pick (hwrite pick haction)
  | enqueued readings receivedTime pick => exact ⟨h.queues, by simp⟩
  | cleaned readings pick e => exact ⟨h.queues, by simp⟩

theorem Supplied.next (h : Supplied loadedPicks B tr) (event : BrokerEvent) :
    Supplied loadedPicks ((broker codec sorting).next B event)
      (tr ++ (broker codec sorting).answer B event) := by
  refine ⟨h.sourced.step (broker_step codec sorting B event), ?_⟩
  intro R hR pick hpick
  exact ((h.writers codec sorting event).1 R hR pick hpick).append _

/-- In every run, whatever is written was known before. -/
theorem writesKnown_run {orderBy : Sorting Int64 Bytes} {options : BrokerOptions}
    {database : Database Bytes} {stmt : LoadStatement} {now : Int64} {isSecured : Bool}
    (hnew : Broker.new codec sorting orderBy options (some database) stmt now isSecured = .ok B)
    (hload : database.load codec orderBy stmt = .ok loadedPicks) (events : List BrokerEvent) :
    WritesKnown loadedPicks ((broker codec sorting).trace B events) := by
  have hkeep (B : Broker Bytes) (event : BrokerEvent) (tr : List Action)
      (h : Supplied loadedPicks B tr) (_ : True) :
      Supplied loadedPicks ((broker codec sorting).next B event)
        (tr ++ (broker codec sorting).answer B event) := h.next codec sorting event
  refine Machine.preceded_trace (broker codec sorting) hkeep ?_ (supplied_new hnew hload)
    ((broker codec sorting).meets_true B events)
  intro B event tr h _ front a after hactions i pick ha
  have hmem : .writer i (.startWrite pick) ∈ (broker codec sorting).answer B event := by
    rw [hactions, ← ha]
    simp
  exact ((h.writers codec sorting event).2 i pick hmem).append front

end Supplies

/-- No subscriber is written a pick that is not in the database, or was not loaded from it: what is
written, to whatever subscriber and in whatever order the threads take their steps, was loaded at
the start, or had been accepted and inserted before. -/
theorem durable_before_written {Bytes : Type*} [DecidableEq Bytes] (codec : Codec Bytes)
    (sorting : Sorting Int64 V1.Pick) {orderBy : Sorting Int64 Bytes} {options : BrokerOptions}
    {database : Database Bytes} {stmt : LoadStatement} {now : Int64} {isSecured : Bool}
    {B : Broker Bytes} {loadedPicks : List (Int64 × V1.Pick)}
    (hnew : Broker.new codec sorting orderBy options (some database) stmt now isSecured = .ok B)
    (hload : database.load codec orderBy stmt = .ok loadedPicks) (events : List BrokerEvent) :
    ∀ before i pick after,
      (broker codec sorting).trace B events = before ++ .writer i (.startWrite pick) :: after →
      (∃ t, (t, pick) ∈ loadedPicks) ∨
        (∃ t, .inserted t pick ∈ before) ∧ pick ∈ accepted before := by
  intro before i pick after hsplit
  obtain ⟨t, hloaded | hdurable⟩ :=
    writesKnown_run codec sorting hnew hload events before _ after hsplit i pick rfl
  · exact Or.inl ⟨t, hloaded⟩
  · exact Or.inr ⟨⟨t, hdurable.inserted⟩, hdurable.accepted⟩

/-- What has been done until the first write of the run. -/
def beforeTheWrite : List Action :=
  ((broker Codec.plain (Sorting.stable Int64 V1.Pick)).trace freshBroker
    (oneClient ++ .reactor 0 (.proceed {}) :: onePickThrough)).dropLast

theorem durable_before_written_onePick :
    (∃ t, (t, samplePick) ∈ ([] : List (Int64 × V1.Pick))) ∨
      (∃ t, .inserted t samplePick ∈ beforeTheWrite) ∧ samplePick ∈ accepted beforeTheWrite :=
  durable_before_written Codec.plain (Sorting.stable Int64 V1.Pick) new_freshBroker rfl
    (oneClient ++ .reactor 0 (.proceed {}) :: onePickThrough) beforeTheWrite 0 samplePick [] (by decide)

end PickBroker
