import PickBroker.Broker.EndToEnd
import PickBroker.Framework.Progress

namespace PickBroker

open Framework

/-- The service runs, the client stays, and a write that gRPC reports has gone through. -/
def WriterEvent.unhindered : WriterEvent → Bool
  | .proceed readings => readings.keepRunning && !readings.cancelled
  | .onWriteDone ok keepRunning _ => ok && keepRunning
  | .onCancel | .onDone => false

/-- The writer is not held up by what its own events bring. -/
def Unhindered (i : ℕ) : BrokerEvent → Prop
  | .reactor j event => j = i → event.unhindered = true
  | _ => True

instance (i : ℕ) : (event : BrokerEvent) → Decidable (Unhindered i event)
  | .reactor j event => inferInstanceAs (Decidable (j = i → event.unhindered = true))
  | .addPickCallback _ _ | .callbackReturns _ | .processPick _ | .cleanDatabase _ _ | .stop _
  | .streamSince _ _ _ => .isTrue trivial

/-- A step of the writer's thread while it does not wait for gRPC, or the report it waits for. -/
def WriterStream.ownStep (S : WriterStream V1.Pick) : WriterEvent → Bool
  | .proceed _ => S.run.writer.pc ≠ .idle
  | .onWriteDone _ _ _ => true
  | .onCancel | .onDone => false

def OwnStep {Bytes : Type*} (i : ℕ) (F : Followed Bytes) : BrokerEvent → Prop
  | .reactor j event =>
    (j = i ∧ F.broker.mSubscribeService.isReset = false) ∧ F.stream.ownStep event = true
  | _ => False

instance {Bytes : Type*} (i : ℕ) (F : Followed Bytes) :
    (event : BrokerEvent) → Decidable (OwnStep i F event)
  | .reactor j event => inferInstanceAs (Decidable
      ((j = i ∧ F.broker.mSubscribeService.isReset = false) ∧ F.stream.ownStep event = true))
  | .addPickCallback _ _ | .callbackReturns _ | .processPick _ | .cleanDatabase _ _ | .stop _
  | .streamSince _ _ _ => .isFalse id

namespace WriterStream

variable {S : WriterStream V1.Pick}

/-- A pick is in the writer's queue behind the one in the air, or in the store. -/
def Waits (S : WriterStream V1.Pick) : Prop :=
  S.run.writer.mPicksQueue.drop S.outstanding ≠ [] ∨
    S.run.shared.mPickStore.unread S.run.writer.mContextAddress ≠ []

/-- The writer is in its loop, or waits for the report of a write it has started. -/
def Flowing (S : WriterStream V1.Pick) : Prop :=
  Constructing S ∨
    S.Proper ∧ (S.run.writer.pc = .nextWrite ∨ S.run.writer.pc = .idle ∧ 1 ≤ S.outstanding)

/-- In how many of its own steps a writer that has something to write begins the next write. -/
def dueIn (S : WriterStream V1.Pick) : ℕ :=
  if S.run.writer.pc = .nextWrite then if S.run.writer.mPicksQueue = [] then 2 else 1 else 3

theorem dueIn_le : S.dueIn ≤ 3 := by
  rw [dueIn]
  split
  · split <;> omega
  · exact le_rfl

theorem dueIn_pos : 1 ≤ S.dueIn := by
  rw [dueIn]
  split
  · split <;> omega
  · omega

theorem dueIn_of_looping (hpc : S.run.writer.pc = .nextWrite) : S.dueIn ≤ 2 := by
  rw [dueIn, if_pos hpc]
  split <;> omega

/-- A stream that flows has not ended. -/
theorem Flowing.unfinished (h : S.Flowing) : ∀ action ∈ S.run.trace, action.isFinish = false := by
  rcases h with hc | ⟨hp, hpc⟩
  · intro action haction
    rw [hc.trace] at haction
    rw [List.mem_singleton.mp haction]
    rfl
  · exact hp.unfinished (hpc.imp_right And.right)

/-- A step of the loop with something to write fetches it or begins to write it. -/
theorem looping_step (hp : S.Proper) (hpc : S.run.writer.pc = .nextWrite) {readings : Readings}
    (hfree : (WriterEvent.proceed readings).unhindered = true) :
    let S' := writerStream.next S (.writer (.proceed readings))
    let actions := writerStream.answer S (.writer (.proceed readings))
    (S'.run.writer.pc = .nextWrite ∨ S'.run.writer.pc = .idle ∧ 1 ≤ S'.outstanding) ∧
      (S.Waits → 1 + S'.dueIn ≤ S.dueIn + 3 * (written actions).length) := by
  intro S' actions
  obtain ⟨hzero, hprogress⟩ := hp.looping hpc
  obtain ⟨hrunning, hlive⟩ : readings.keepRunning = true ∧ readings.cancelled = false := by
    simpa [WriterEvent.unhindered] using hfree
  have hdue : S.dueIn = if S.run.writer.mPicksQueue = [] then 2 else 1 := by rw [dueIn, if_pos hpc]
  cases hqueue : S.run.writer.mPicksQueue with
  | nil =>
    have hpicks := PickStore.getPicks_eq S.run.shared.mPickStore S.run.writer.mContextAddress
      (n := MAXIMUM_QUEUE_SIZE) (by decide)
    have hnext : S'.run.writer.pc = .nextWrite ∧ S'.run.writer.mPicksQueue =
        (S.run.shared.mPickStore.batch S.run.writer.mContextAddress MAXIMUM_QUEUE_SIZE).map
          Prod.snd := by
      simp [S', writerStream, writerRun, Machine.next, AsynchronousWriter.step,
        AsynchronousWriter.proceed, hpc, AsynchronousWriter.nextWrite, hrunning, hlive, hqueue,
        hpicks]
    refine ⟨Or.inl hnext.1, ?_⟩
    intro hwaits
    -- Nothing is queued, so it is the store that holds something.
    have hunread : S.run.shared.mPickStore.unread S.run.writer.mContextAddress ≠ [] := by
      rcases hwaits with hqueued | hunread
      · simp [hqueue] at hqueued
      · exact hunread
    have hbatch : S'.run.writer.mPicksQueue ≠ [] := by
      rw [hnext.2, PickStore.batch, Ne, List.map_eq_nil_iff, List.take_eq_nil_iff, not_or]
      exact ⟨by decide, hunread⟩
    rw [hdue, if_pos hqueue, dueIn, if_pos hnext.1, if_neg hbatch]
    omega
  | cons pick rest =>
    have hnext : S'.run.writer.pc = .idle ∧ S'.outstanding = 1 ∧ written actions = [pick] := by
      simp [S', actions, writerStream, writerRun, Machine.next, Machine.answer,
        AsynchronousWriter.step, AsynchronousWriter.proceed, hpc, AsynchronousWriter.nextWrite,
        hrunning, hlive, hqueue, hprogress, hzero, RunEvent.isWriteDone, WriterAction.isStartWrite, written,
        WriterAction.written?]
    obtain ⟨hidle, hone, hwrote⟩ := hnext
    refine ⟨Or.inr ⟨hidle, hone.ge⟩, ?_⟩
    intro _
    have hle := S'.dueIn_le
    rw [hdue, if_neg (by simp [hqueue]), hwrote, List.length_singleton]
    omega

/-- Unhindered, a stream goes on flowing, and every step of its own is paid for. -/
theorem Flowing.next (h : S.Flowing) {event : WriterEvent} (hfree : event.unhindered = true)
    (hanswered : WriteAnswered S (.writer event)) :
    (writerStream.next S (.writer event)).Flowing ∧ (S.Waits →
      (if S.ownStep event = true then 1 else 0) + (writerStream.next S (.writer event)).dueIn ≤
        S.dueIn + 3 * (written (writerStream.answer S (.writer event))).length) := by
  rcases h with hc | ⟨hp, hpc⟩
  · cases event with
    | proceed readings =>
      have hlooping : (writerStream.next S (.writer (.proceed readings))).run.writer.pc =
          .nextWrite := by rw [hc.next_eq readings]
      refine ⟨Or.inr ⟨hc.next readings, Or.inl hlooping⟩, ?_⟩
      intro _
      have hle := dueIn_of_looping hlooping
      have hdue : S.dueIn = 3 := by simp [dueIn, hc.pc]
      rw [hdue]
      split <;> omega
    | onWriteDone ok keepRunning cancelled =>
      have hnone := hanswered rfl
      rw [hc.outstanding] at hnone
      cases hnone
    | onCancel | onDone => cases hfree
  · have hproper := hp.next hanswered
    cases event with
    | proceed readings =>
      rcases hpc with hpc | ⟨hidle, hout⟩
      · obtain ⟨hflows, hpaid⟩ := looping_step hp hpc hfree
        refine ⟨Or.inr ⟨hproper, hflows⟩, ?_⟩
        intro hwaits
        refine le_trans ?_ (hpaid hwaits)
        split <;> omega
      · have hsame : writerStream.next S (.writer (.proceed readings)) = S := by
          simp [writerStream, writerRun, Machine.next, AsynchronousWriter.step,
            AsynchronousWriter.proceed, hidle, RunEvent.isWriteDone]
        rw [hsame] at hproper ⊢
        refine ⟨Or.inr ⟨hproper, Or.inr ⟨hidle, hout⟩⟩, ?_⟩
        intro _
        rw [ownStep, hidle]
        simp
    | onWriteDone ok keepRunning cancelled =>
      obtain ⟨rfl, rfl⟩ : ok = true ∧ keepRunning = true := by
        simpa [WriterEvent.unhindered] using hfree
      have hlooping : (writerStream.next S (.writer (.onWriteDone true true cancelled))).run.writer.pc =
          .nextWrite := rfl
      refine ⟨Or.inr ⟨hproper, Or.inl hlooping⟩, ?_⟩
      intro _
      have hle := dueIn_of_looping hlooping
      have hdue : S.dueIn = 3 := by
        rw [dueIn, if_neg]
        intro hnext
        have hzero := (hp.looping hnext).1
        have hone := hanswered rfl
        omega
      rw [hdue]
      split <;> omega
    | onCancel | onDone => cases hfree

end WriterStream

/-- Only a step of its own, while there is a service, is one to the writer. -/
theorem seenBy_writer {Bytes : Type*} {i : ℕ} {B B' : Broker Bytes} {event : BrokerEvent}
    {e : WriterEvent} (h : event.seenBy i B B' = .writer e) :
    event = .reactor i e ∧ B.mSubscribeService.isReset = false := by
  cases event with
  | reactor j event =>
    simp only [BrokerEvent.seenBy] at h
    split at h
    · rename_i hmine
      cases h
      exact ⟨by rw [hmine.1], hmine.2⟩
    · cases h
  | _ => cases h

theorem not_ownStep_of_others {Bytes : Type*} {i : ℕ} {F : Followed Bytes} {B' : Broker Bytes}
    {event : BrokerEvent} {shared : Shared V1.Pick} (h : event.seenBy i F.broker B' = .others shared) :
    ¬ OwnStep i F event := by
  cases event with
  | reactor j event =>
    intro hown
    simp only [BrokerEvent.seenBy, if_pos hown.1] at h
    cases h
  | _ => exact id

section Serving

variable {Bytes : Type*} [DecidableEq Bytes] (codec : Codec Bytes)
  (sorting : Sorting Int64 V1.Pick) {i : ℕ} {F : Followed Bytes}

/-- What a writer does is what its stream answers. -/
theorem actionsOf_answer (hin : InStep i F) {event : BrokerEvent} {e : WriterEvent}
    (hseen : event.seenBy i F.broker ((broker codec sorting).next F.broker event) = .writer e) :
    actionsOf i ((followed codec sorting i).answer F event) =
      writerStream.answer F.stream (.writer e) := by
  have hstream : ((followed codec sorting i).next F event).stream =
      writerStream.next F.stream (.writer e) := by
    rw [← hseen]
    rfl
  have htrace := (hin.next codec sorting i event).2
  rw [hstream] at htrace
  exact (List.append_cancel_left htrace).symm

/-- One step of the broker: the stream goes on flowing, and the writer's own steps are paid for. -/
theorem flowing_step (hin : InStep i F) (hflows : F.stream.Flowing) {event : BrokerEvent}
    (hstays : Stays i F event) (hfree : Unhindered i event) :
    let F' := (followed codec sorting i).next F event
    F'.stream.Flowing ∧ (F.stream.Waits →
      (if OwnStep i F event then 1 else 0) + F'.stream.dueIn ≤ F.stream.dueIn +
        3 * (written (actionsOf i ((followed codec sorting i).answer F event))).length) := by
  intro F'
  have hstream : F'.stream = writerStream.next F.stream
      (event.seenBy i F.broker ((broker codec sorting).next F.broker event)) := rfl
  cases hseen : event.seenBy i F.broker ((broker codec sorting).next F.broker event) with
  | writer e =>
    obtain ⟨rfl, hthere⟩ := seenBy_writer hseen
    have hanswered : WriteAnswered F.stream (.writer e) := by
      intro hdone
      cases e with
      | onWriteDone ok keepRunning cancelled => exact hstays rfl
      | _ => cases hdone
    obtain ⟨hnext, hpaid⟩ := hflows.next (hfree rfl) hanswered
    have hkind : OwnStep i F (.reactor i e) ↔ F.stream.ownStep e = true :=
      and_iff_right ⟨rfl, hthere⟩
    rw [actionsOf_answer codec sorting hin hseen, hstream, hseen]
    refine ⟨hnext, ?_⟩
    simpa only [hkind] using hpaid
  | others shared =>
    have hsame : F'.stream = { F.stream with run := { F.stream.run with shared := shared } } := by
      rw [hstream, hseen, next_others]
    rw [if_neg (not_ownStep_of_others hseen)]
    refine ⟨?_, ?_⟩
    · rcases hflows with hc | ⟨hp, hpc⟩
      · rw [hsame]
        exact Or.inl ⟨hc.pc, hc.queue, hc.outstanding, hc.trace⟩
      · have hproper : (writerStream.next F.stream (.others shared)).Proper :=
          hp.next (by simp [WriteAnswered, RunEvent.isWriteDone])
        rw [next_others] at hproper
        rw [hsame]
        exact Or.inr ⟨hproper, hpc⟩
    · intro _
      rw [hsame]
      exact le_trans (by simp [WriterStream.dueIn]) (Nat.le_add_right _ _)

/-- What a step that holds the writer up nowhere keeps. -/
theorem keeps_flowing {codec : Codec Bytes} {sorting : Sorting Int64 V1.Pick} (F : Followed Bytes)
    (event : BrokerEvent) (h : InStep i F ∧ F.stream.Flowing)
    (hok : (BrokerPromised F.broker event ∧ Stays i F event) ∧ Unhindered i event) :
    InStep i ((followed codec sorting i).next F event) ∧
      ((followed codec sorting i).next F event).stream.Flowing :=
  ⟨(h.1.next codec sorting i event).1, (flowing_step codec sorting h.1 h.2 hok.1.2 hok.2).1⟩

end Serving

namespace SubscriberRun

variable {Bytes : Type*} [DecidableEq Bytes] {codec : Codec Bytes}
  {sorting : Sorting Int64 V1.Pick} {B₀ : Broker Bytes} {i : ℕ}
  (r : SubscriberRun codec sorting B₀ i)

/-- The steps the writer takes of its own from a moment on. -/
def ownStepsFrom (n : ℕ) : ℕ :=
  (followed codec sorting i).steps (OwnStep i) (r.cut n).final (r.after.drop n)

section Cut

theorem take_add (n k : ℕ) :
    r.after.take (n + k) = r.after.take n ++ (r.after.drop n).take k := List.take_add

theorem final_add (n k : ℕ) :
    (r.cut (n + k)).final =
      (followed codec sorting i).final (r.cut n).final ((r.after.drop n).take k) := by
  have h := Machine.final_append (followed codec sorting i) r.subscribed (r.after.take n)
    ((r.after.drop n).take k)
  rwa [← r.take_add] at h

theorem trace_add (n k : ℕ) :
    (r.cut (n + k)).trace = (r.cut n).trace ++
      (followed codec sorting i).trace (r.cut n).final ((r.after.drop n).take k) := by
  have h := Machine.trace_append (followed codec sorting i) r.subscribed (r.after.take n)
    ((r.after.drop n).take k)
  rwa [← r.take_add, (followed_broker codec sorting i _ _).2,
    (followed_broker codec sorting i _ (r.after.take n)).2] at h

theorem owed_add (n k : ℕ) : ∃ later, (r.cut (n + k)).owed = (r.cut n).owed ++ later := by
  have hlist : enqueuedPicks (r.cut (n + k)).trace = enqueuedPicks (r.cut n).trace ++
      enqueuedPicks ((followed codec sorting i).trace (r.cut n).final
        ((r.after.drop n).take k)) := by
    rw [r.trace_add]
    simp only [lists_append]
  rw [owed, owedTo, hlist, List.filter_append, ← List.append_assoc]
  exact ⟨_, rfl⟩

theorem cut_of_le {n : ℕ} (h : r.after.length ≤ n) : r.cut n = r := by
  rw [cut]
  congr
  exact List.take_of_length_le h

/-- From any moment on, the run is one to its end. -/
theorem cut_drop (n : ℕ) : r.cut (n + (r.after.drop n).length) = r := by
  apply r.cut_of_le
  rw [List.length_drop]
  omega

end Cut

section Flow

variable (hapart : Apart B₀.mSubscribeService.object)
  (hfree : ∀ event ∈ r.after, Unhindered i event)

include hfree

/-- A run of steps that are allowed to the writer and hold it up nowhere. -/
theorem meets_free : (followed codec sorting i).Meets
    (fun F event => (BrokerPromised F.broker event ∧ Stays i F event) ∧ Unhindered i event)
    r.subscribed r.after :=
  ((followed codec sorting i).meets_and _ _ _ _).mpr
    ⟨r.stays, (followed codec sorting i).meets_of_forall _ hfree⟩

include hapart

theorem flowing (n : ℕ) : InStep i (r.cut n).final ∧ (r.cut n).final.stream.Flowing := by
  obtain ⟨hserved, hconstructing, -⟩ := served_subscribed codec sorting r.there
    (apart_run codec sorting hapart r.promised) r.place r.pc r.subscribes
  have hcut : ∀ event ∈ (r.cut n).after, Unhindered i event := fun event hevent =>
    hfree event (List.mem_of_mem_take hevent)
  exact (followed codec sorting i).invariant keeps_flowing
    ⟨hserved.inStep, Or.inl hconstructing⟩ ((r.cut n).meets_free hcut)

/-- Where nothing waits, all that has been handed out has been written, and nothing is unread. -/
theorem of_not_waits {n : ℕ} {front : List (Int64 × V1.Pick)} (hfront : (r.cut n).Delivered front)
    (hnone : ¬ (r.cut n).final.stream.Waits) :
    front.map Prod.snd = (r.cut n).written ∧ (r.cut n).unread = [] := by
  obtain ⟨hin, hflows⟩ := r.flowing hapart hfree n
  have hopen : ∀ action ∈ actionsOf i (r.cut n).trace, action.isFinish = false := by
    intro action haction
    apply hflows.unfinished
    rw [((r.cut n).served hapart).2]
    exact List.mem_cons_of_mem _ haction
  have hunread : (r.cut n).final.stream.run.shared.mPickStore.unread
      (r.cut n).final.stream.run.writer.mContextAddress = (r.cut n).unread := by
    rw [hin.shared, (r.cut n).final_address]
    rfl
  rw [WriterStream.Waits, hunread, not_or, not_not, not_not] at hnone
  obtain ⟨hqueue, hstore⟩ := hnone
  have hunwritten : (r.cut n).unwritten = [] := hqueue
  have hbooks := hfront.books hopen
  rw [hunwritten, List.append_nil] at hbooks
  exact ⟨hbooks, hstore⟩

end Flow

/-- The entries of what has been handed out that have been written. -/
theorem Delivered.sent {handed : List (Int64 × V1.Pick)} (h : r.Delivered handed) :
    (handed.take r.written.length).map Prod.snd = r.written ∧
      (handed.take r.written.length).Sublist r.owed := by
  refine ⟨?_, ?_⟩
  · rw [List.map_take]
    exact (List.prefix_iff_eq_take.mp h.written).symm
  · exact (List.take_sublist _ _).trans ((List.sublist_append_left _ _).trans h.inOrder)

/-- What comes before an entry of the front of a list that goes up is less than the front. -/
theorem length_lt_of_before {front later sent rest : List (Int64 × V1.Pick)}
    (hinc : (front ++ later).Pairwise fun x y => x.1 < y.1)
    (hsub : (sent ++ rest).Sublist (front ++ later)) {e : Int64 × V1.Pick} (he : e ∈ front)
    (hrest : e ∈ rest) : sent.length < front.length := by
  have hpair := hinc.sublist hsub
  have hbefore : ∀ x ∈ sent, x.1 < e.1 := fun x hx =>
    (List.pairwise_append.mp hpair).2.2 x hx e hrest
  have hnodup : (e :: sent).Nodup := by
    rw [List.nodup_cons]
    refine ⟨fun hmem => (hbefore e hmem).false, ?_⟩
    exact (List.pairwise_append.mp hpair).1.imp fun hlt heq => (heq ▸ hlt).false
  have hsubset : e :: sent ⊆ front := by
    intro x hx
    rcases List.mem_cons.mp hx with rfl | hx
    · exact he
    · rcases List.mem_append.mp (hsub.subset (List.mem_append_left _ hx)) with hfront | hlater
      · exact hfront
      · have hlt := (List.pairwise_append.mp hinc).2.2 e he x hlater
        exact absurd (hlt.trans (hbefore x hx)) (lt_irrefl _)
  exact (List.subperm_of_subset hnodup hsubset).length_le

section Unsent

variable {r} {handed : List (Int64 × V1.Pick)} {e : Int64 × V1.Pick} {n : ℕ}

/-- Up to a moment, less has been evicted and written. -/
theorem trace_of_cut (r : SubscriberRun codec sorting B₀ i) (m : ℕ) :
    ∃ later, r.trace = (r.cut m).trace ++ later := by
  have h := r.trace_add m (r.after.drop m).length
  rw [r.cut_drop] at h
  exact ⟨_, h⟩

theorem written_of_cut (r : SubscriberRun codec sorting B₀ i) (m : ℕ) :
    (r.cut m).written.length ≤ r.written.length := by
  obtain ⟨later, hlater⟩ := r.trace_of_cut m
  rw [written, written, hlater, actionsOf_append, written_append, List.length_append]
  exact Nat.le_add_right _ _

/-- As long as an entry that is owed is neither written nor evicted, something waits. -/
theorem waits_of_unsent (hapart : Apart B₀.mSubscribeService.object)
    (hfree : ∀ event ∈ r.after, Unhindered i event)
    (hmoments : ∀ n, ∃ front, (r.cut n).Delivered front ∧ front <+: handed)
    (howed : e ∈ (r.cut n).owed) (hkept : ¬ EvictedIn r.trace e)
    (hunsent : e ∉ handed.take r.written.length) (k : ℕ) :
    (r.cut (n + k)).final.stream.Waits := by
  by_contra hnone
  obtain ⟨front, hfront, hbegins⟩ := hmoments (n + k)
  obtain ⟨hbooks, hunread⟩ := r.of_not_waits hapart hfree hfront hnone
  obtain ⟨later, hlater⟩ := r.owed_add n k
  have hmem : e ∈ front := by
    rcases hfront.complete e (by rw [hlater]; exact List.mem_append_left _ howed) with hmem | hgone
    · rwa [hunread, List.append_nil] at hmem
    · obtain ⟨rest, hrest⟩ := r.trace_of_cut (n + k)
      rw [hrest] at hkept
      exact absurd (hgone.append rest) hkept
  have hlength : front.length ≤ r.written.length := by
    have hle := r.written_of_cut (n + k)
    rwa [← hbooks, List.length_map] at hle
  exact hunsent ((List.prefix_take_iff.mpr ⟨hbegins, hlength⟩).subset hmem)

end Unsent

/-- While something waits, the writer's own steps are paid for by what it writes. -/
theorem ownSteps_le (hapart : Apart B₀.mSubscribeService.object)
    (hfree : ∀ event ∈ r.after, Unhindered i event) {n : ℕ}
    (hwaits : ∀ k, (r.cut (n + k)).final.stream.Waits) :
    r.ownStepsFrom n + 1 ≤ 3 + 3 * (r.written.length - (r.cut n).written.length) := by
  have hfrees := r.meets_free hfree
  rw [← List.take_append_drop n r.after, Machine.meets_append] at hfrees
  have hmeets : (followed codec sorting i).Meets (fun F _ => F.stream.Waits) (r.cut n).final
      (r.after.drop n) := by
    by_contra hbreak
    obtain ⟨before, event, rest, heq, -, hnone⟩ :=
      (followed codec sorting i).exists_first_break hbreak
    have htake : (r.after.drop n).take before.length = before := by
      rw [heq, List.take_left]
    have hstill := hwaits before.length
    rw [r.final_add, htake] at hstill
    exact hnone hstill
  have hpays : ∀ (F : Followed Bytes) event, InStep i F ∧ F.stream.Flowing →
      ((BrokerPromised F.broker event ∧ Stays i F event) ∧ Unhindered i event) ∧ F.stream.Waits →
      (if OwnStep i F event then 1 else 0) +
          ((followed codec sorting i).next F event).stream.dueIn ≤
        F.stream.dueIn + 3 *
          (PickBroker.written (actionsOf i ((followed codec sorting i).answer F event))).length := by
    intro F event h hok
    exact (flowing_step codec sorting h.1 h.2 hok.1.1.2 hok.1.2).2 hok.2
  have hadds : ∀ a b, 3 * (PickBroker.written (actionsOf i (a ++ b))).length =
      3 * (PickBroker.written (actionsOf i a)).length +
        3 * (PickBroker.written (actionsOf i b)).length := by
    intro a b
    rw [actionsOf_append, written_append, List.length_append, Nat.mul_add]
  have hpaid := (followed codec sorting i).steps_add_potential_le (OwnStep i)
    (fun F => F.stream.dueIn) (fun tr => 3 * (PickBroker.written (actionsOf i tr)).length) rfl hadds
    (fun F event h hok => keeps_flowing F event h hok.1) hpays (r.flowing hapart hfree n)
    (((followed codec sorting i).meets_and _ _ _ _).mpr ⟨hfrees.2, hmeets⟩)
  have hlater : r.written = (r.cut n).written ++ PickBroker.written (actionsOf i
      ((followed codec sorting i).trace (r.cut n).final (r.after.drop n))) := by
    have htrace := r.trace_add n (r.after.drop n).length
    rw [r.cut_drop, List.take_length] at htrace
    rw [written, written, htrace, actionsOf_append, written_append]
  have hstart := (r.cut n).final.stream.dueIn_le
  have hend := WriterStream.dueIn_pos
    (S := ((followed codec sorting i).final (r.cut n).final (r.after.drop n)).stream)
  have hcount := congrArg List.length hlater
  rw [List.length_append] at hcount
  rw [ownStepsFrom]
  omega

end SubscriberRun

/-- In every interleaving: while received times go up and its own events hold the writer up nowhere,
what has been written is part of what is owed, in order, and with every entry owed by a moment that
has not been evicted, when the writer has since taken three steps of its own for each entry that
had not been written. -/
theorem written_in_time {Bytes : Type*} [DecidableEq Bytes] {codec : Codec Bytes}
    {sorting : Sorting Int64 V1.Pick} {orderBy : Sorting Int64 Bytes} {options : BrokerOptions}
    {database : Database Bytes} {stmt : LoadStatement} {now : Int64} {isSecured : Bool}
    {B₀ : Broker Bytes} {loadedPicks : List (Int64 × V1.Pick)}
    (hnew : Broker.new codec sorting orderBy options (some database) stmt now isSecured = .ok B₀)
    (hload : database.load codec orderBy stmt = .ok loadedPicks) {i : ℕ}
    (r : SubscriberRun codec sorting B₀ i)
    (htimes : Increasing
      (loadedPicks ++ enqueuedPicks ((broker codec sorting).trace B₀ r.events)))
    (hfree : ∀ event ∈ r.after, Unhindered i event) (n : ℕ)
    (hsteps : 3 * ((r.cut n).owed.length - (r.cut n).written.length) ≤ r.ownStepsFrom n) :
    ∃ sent : List (Int64 × V1.Pick), sent.map Prod.snd = r.written ∧ sent.Sublist r.owed ∧
      ∀ e ∈ (r.cut n).owed, e ∈ sent ∨ EvictedIn r.trace e := by
  obtain ⟨hapart, hstored⟩ := new_stored hnew hload
  have hinc := r.increasing hstored htimes
  obtain ⟨handed, hdelivered, hmoments⟩ := r.delivered hapart hinc
  obtain ⟨hmap, hsub⟩ := hdelivered.sent
  refine ⟨_, hmap, hsub, ?_⟩
  intro e howed
  by_contra hneither
  obtain ⟨hunsent, hkept⟩ := not_or.mp hneither
  -- Something waits all the time, so each of the writer's steps is paid for by a write.
  have hwaits := r.waits_of_unsent hapart hfree hmoments howed hkept hunsent
  have hspent := r.ownSteps_le hapart hfree hwaits
  -- The written entries come before this one, so they are fewer than those owed by the moment.
  have hfew : r.written.length < (r.cut n).owed.length := by
    obtain ⟨later, hlater⟩ := r.owed_add n (r.after.drop n).length
    rw [r.cut_drop] at hlater
    have hup : Increasing r.owed := hinc.sublist ((since_sublist _ _).append List.filter_sublist)
    have hsplit := hdelivered.inOrder
    have hmem := (hdelivered.complete e (by
      rw [hlater]
      exact List.mem_append_left _ howed)).resolve_right hkept
    rw [← List.take_append_drop r.written.length handed, List.append_assoc] at hsplit hmem
    rw [hlater] at hsplit hup
    have hrest := (List.mem_append.mp hmem).resolve_left hunsent
    have hlt := SubscriberRun.length_lt_of_before hup.increasing hsplit howed hrest
    rwa [← List.length_map Prod.snd, hmap] at hlt
  have hwritten := r.written_of_cut n
  omega

theorem written_in_time_twoPicks :
    (twoPicksDelivered.cut 15).owed.map Prod.snd = [samplePick, otherPhase] ∧
      (twoPicksDelivered.cut 15).written = [] ∧
      ∃ sent : List (Int64 × V1.Pick), sent.map Prod.snd = twoPicksDelivered.written ∧
        sent.Sublist twoPicksDelivered.owed ∧
        ∀ e ∈ (twoPicksDelivered.cut 15).owed, e ∈ sent ∨ EvictedIn twoPicksDelivered.trace e :=
  ⟨by decide, by decide, written_in_time new_freshBroker load_freshBroker twoPicksDelivered
    ⟨by decide, by decide⟩ (by decide) 15 (by decide)⟩

end PickBroker
