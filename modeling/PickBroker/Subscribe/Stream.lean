import PickBroker.Subscribe.Admission
import PickBroker.Subscribe.SubscribeService

namespace PickBroker

open Framework

variable {Pick : Type*}

namespace WriterAction

def isStartWrite : WriterAction Pick → Bool
  | .startWrite _ => true
  | _ => false

def written? : WriterAction Pick → Option Pick
  | .startWrite pick => some pick
  | _ => none

def answer : WriterAction Pick → List Pick
  | .getPicks picks => picks
  | _ => []

/-- Neither ends the stream nor puts anything on it. -/
def Silent (action : WriterAction Pick) : Prop :=
  action.isFinish = false ∧ action.isStartWrite = false

end WriterAction

/-- The picks passed to StartWrite. -/
def written (trace : List (WriterAction Pick)) : List Pick :=
  trace.filterMap WriterAction.written?

/-- The answers of `getPicks`, one after the other. -/
def fetched (trace : List (WriterAction Pick)) : List Pick := trace.flatMap WriterAction.answer

/-- A Finish comes once, and no write comes after it. -/
def EndsOnce (trace : List (WriterAction Pick)) : Prop :=
  ∀ before status after, trace = before ++ .finish status :: after →
    ∀ action ∈ after, action.Silent

/-- A writer among others with the writes it has started that gRPC has not reported done. -/
structure WriterStream (Pick : Type*) where
  run : WriterRun Pick
  outstanding : ℕ := 0

def RunEvent.isWriteDone : RunEvent Pick → Bool
  | .writer (.onWriteDone _ _ _) => true
  | _ => false

def writerStream : Machine (WriterStream Pick) (RunEvent Pick) (List (WriterAction Pick)) where
  step S event :=
    let (run, actions) := writerRun.step S.run event
    ({ run := run
       outstanding := S.outstanding - event.isWriteDone.toNat +
         actions.countP WriterAction.isStartWrite }, actions)

/-- gRPC reports a write done that was started, and once. -/
def WriteAnswered (S : WriterStream Pick) (event : RunEvent Pick) : Prop :=
  event.isWriteDone → 1 ≤ S.outstanding

instance (S : WriterStream Pick) (event : RunEvent Pick) : Decidable (WriteAnswered S event) :=
  inferInstanceAs (Decidable (event.isWriteDone → 1 ≤ S.outstanding))

/-- An `OnWriteDone` finds the queue with an element to pop. -/
def PopsElement (S : WriterStream Pick) (event : RunEvent Pick) : Prop :=
  event.isWriteDone → S.run.writer.mPicksQueue ≠ []

/-- What a writer past its constructor can do; the flag says whether it is told of a write. -/
inductive Moves (w : AsynchronousWriter Pick) :
    Bool → AsynchronousWriter Pick → List (WriterAction Pick) → Prop where
  | quiet {w' : AsynchronousWriter Pick} {actions : List (WriterAction Pick)}
      (queue : w'.mPicksQueue = w.mPicksQueue)
      (progress : w'.mWriteInProgress = w.mWriteInProgress)
      (pc : w'.pc = w.pc ∨ w'.pc = .deleted)
      (silent : ∀ action ∈ actions, action = .unsubscribe) : Moves w false w' actions
  | popped : Moves w true { w with mWriteInProgress := false, mPicksQueue := w.mPicksQueue.tail
                                   pc := .nextWrite } []
  | failed (status : Status) : Moves w true w [.finish status]
  | stopped (status : Status) (looping : w.pc = .nextWrite) :
      Moves w false { w with pc := .idle } [.finish status]
  | wrote {pick : Pick} {rest : List Pick} (looping : w.pc = .nextWrite)
      (queue : w.mPicksQueue = pick :: rest) :
      Moves w false { w with mWriteInProgress := true, pc := .idle } [.startWrite pick]
  | refilled (picks : List Pick) (looping : w.pc = .nextWrite) (queue : w.mPicksQueue = []) :
      Moves w false { w with mPicksQueue := picks } [.getPicks picks]

/-- What the stream of an admitted subscriber keeps. -/
structure WriterStream.Proper (S : WriterStream Pick) : Prop where
  admitted : S.run.writer.pc.admitting = false
  one : S.outstanding ≤ 1
  looping : S.run.writer.pc = .nextWrite →
    S.outstanding = 0 ∧ S.run.writer.mWriteInProgress = false
  inFlight : 1 ≤ S.outstanding →
    ∃ pick rest, S.run.writer.mPicksQueue = pick :: rest ∧
      (written S.run.trace).getLast? = some pick
  unfinished : S.run.writer.pc = .nextWrite ∨ 1 ≤ S.outstanding →
    ∀ action ∈ S.run.trace, action.isFinish = false
  inOrder : written S.run.trace <+: fetched S.run.trace
  books : (∀ action ∈ S.run.trace, action.isFinish = false) →
    fetched S.run.trace = written S.run.trace ++ S.run.writer.mPicksQueue.drop S.outstanding
  ends : EndsOnce S.run.trace

section Trace

variable {l k : List (WriterAction Pick)}

@[simp] theorem written_append : written (l ++ k) = written l ++ written k :=
  List.filterMap_append

@[simp] theorem fetched_append : fetched (l ++ k) = fetched l ++ fetched k := List.flatMap_append

theorem unfinished_concat (h : ∀ action ∈ l, action.isFinish = false) {x : WriterAction Pick}
    (hx : x.isFinish = false) : ∀ action ∈ l ++ [x], action.isFinish = false := by
  intro action haction
  rcases List.mem_append.mp haction with haction | haction
  · exact h action haction
  · rw [List.mem_singleton.mp haction]
    exact hx

theorem endsOnce_concat (h : ∀ action ∈ l, action.isFinish = false) (action : WriterAction Pick) :
    EndsOnce (l ++ [action]) := by
  intro before status after heq
  rcases List.append_eq_append_iff.mp heq with ⟨m, rfl, hm⟩ | ⟨m, rfl, hm⟩
  · cases m with
    | nil =>
      simp only [List.nil_append, List.cons.injEq] at hm
      simp [← hm.2]
    | cons x m => simp at hm
  · cases m with
    | nil =>
      simp only [List.nil_append, List.cons.injEq] at hm
      simp [hm.2]
    | cons x m =>
      have hx : WriterAction.finish status = x := (List.cons.inj hm).1
      have hfinish := h x (by simp)
      rw [← hx] at hfinish
      cases hfinish

theorem EndsOnce.append (h : EndsOnce l) (hk : ∀ action ∈ k, action.Silent) :
    EndsOnce (l ++ k) := by
  intro before status after heq
  rcases List.append_eq_append_iff.mp heq with ⟨m, rfl, hm⟩ | ⟨m, rfl, hm⟩
  · have hmem : WriterAction.finish status ∈ k := by simp [hm]
    cases (hk _ hmem).1
  · cases m with
    | nil =>
      rw [List.nil_append] at hm
      have hmem : WriterAction.finish status ∈ k := by simp [← hm]
      cases (hk _ hmem).1
    | cons x m =>
      obtain ⟨rfl, rfl⟩ := List.cons.inj hm
      intro action haction
      rcases List.mem_append.mp haction with haction | haction
      · exact h before status m rfl action haction
      · exact hk action haction

end Trace

section Step

variable {shared shared' : Shared Pick} {w w' : AsynchronousWriter Pick}
  {actions : List (WriterAction Pick)}

theorem nextWrite_moves (hpc : w.pc = .nextWrite) (hfree : w.mWriteInProgress = false)
    {readings : Readings} (hstep : w.nextWrite shared readings = (shared', w', actions)) :
    Moves w false w' actions := by
  rw [AsynchronousWriter.nextWrite] at hstep
  split at hstep
  · cases hqueue : w.mPicksQueue with
    | nil =>
      rw [hqueue] at hstep
      dsimp only at hstep
      split at hstep
      · cases hstep
        exact .refilled _ hpc hqueue
      · cases hstep
        exact .quiet rfl rfl (Or.inl rfl) (by simp)
    | cons pick rest =>
      simp only [hqueue, hfree, Bool.false_eq_true, if_false] at hstep
      cases hstep
      rw [← hqueue]
      exact .wrote hpc hqueue
  · cases hstep
    exact .stopped _ hpc

theorem disconnect_moves (hstep : w.disconnect shared = (shared', w', actions)) :
    w'.mPicksQueue = w.mPicksQueue ∧ w'.mWriteInProgress = w.mWriteInProgress ∧ w'.pc = w.pc ∧
      ∀ action ∈ actions, action = .unsubscribe := by
  rw [AsynchronousWriter.disconnect] at hstep
  split at hstep <;> cases hstep <;> simp

theorem step_moves {event : WriterEvent} (hadmitted : w.pc.admitting = false)
    (hfree : w.pc = .nextWrite → w.mWriteInProgress = false)
    (hstep : w.step shared event = (shared', w', actions)) :
    Moves w (RunEvent.isWriteDone (.writer event : RunEvent Pick)) w' actions := by
  cases event with
  | proceed readings =>
    rw [AsynchronousWriter.step, AsynchronousWriter.proceed] at hstep
    cases hpc : w.pc with
    | checkLimit | authenticate | trySubscribe | fetchAdd =>
      rw [hpc] at hadmitted
      cases hadmitted
    | nextWrite =>
      rw [hpc] at hstep
      exact nextWrite_moves hpc (hfree hpc) hstep
    | idle | deleted =>
      rw [hpc] at hstep
      cases hstep
      exact .quiet rfl rfl (Or.inl rfl) (by simp)
  | onWriteDone ok keepRunning cancelled =>
    rw [AsynchronousWriter.step, AsynchronousWriter.onWriteDone] at hstep
    split at hstep
    · cases hstep
      exact .failed _
    · split at hstep
      · cases hstep
        exact .failed _
      · cases hstep
        exact .popped
  | onCancel =>
    obtain ⟨hqueue, hprogress, hpc, hsilent⟩ := disconnect_moves hstep
    exact .quiet hqueue hprogress (Or.inl hpc) hsilent
  | onDone =>
    rw [AsynchronousWriter.step, AsynchronousWriter.onDone] at hstep
    cases hd : w.disconnect shared with
    | mk shared₁ rest =>
      obtain ⟨w₁, actions₁⟩ := rest
      rw [hd] at hstep
      cases hstep
      obtain ⟨hqueue, hprogress, -, hsilent⟩ := disconnect_moves hd
      exact .quiet hqueue hprogress (Or.inr rfl) hsilent

end Step

namespace WriterStream

variable {S : WriterStream Pick} {shared : Shared Pick} {w : AsynchronousWriter Pick}

theorem Proper.quiet (h : S.Proper) {actions : List (WriterAction Pick)}
    (queue : w.mPicksQueue = S.run.writer.mPicksQueue)
    (progress : w.mWriteInProgress = S.run.writer.mWriteInProgress)
    (pc : w.pc = S.run.writer.pc ∨ w.pc = .deleted)
    (silent : ∀ action ∈ actions, action = .unsubscribe) :
    Proper { run := { shared := shared, writer := w, trace := S.run.trace ++ actions }
             outstanding := S.outstanding } := by
  have hwritten : written actions = [] := by
    apply List.filterMap_eq_nil_iff.mpr
    intro action haction
    rw [silent action haction]
    rfl
  have hfetched : fetched actions = [] := by
    apply List.flatMap_eq_nil_iff.mpr
    intro action haction
    rw [silent action haction]
    rfl
  have hsilent : ∀ action ∈ actions, action.Silent := by
    intro action haction
    rw [silent action haction]
    exact ⟨rfl, rfl⟩
  have hpc : w.pc = .nextWrite → S.run.writer.pc = .nextWrite := by
    intro hnext
    rcases pc with pc | pc
    · rw [← pc, hnext]
    · rw [hnext] at pc
      cases pc
  refine ⟨?_, h.one, ?_, ?_, ?_, ?_, ?_, h.ends.append hsilent⟩
  · rcases pc with pc | pc
    · exact (congrArg Pc.admitting pc).trans h.admitted
    · exact congrArg Pc.admitting pc
  · intro hnext
    obtain ⟨hout, hfree⟩ := h.looping (hpc hnext)
    exact ⟨hout, progress.trans hfree⟩
  · simp only [written_append, hwritten, List.append_nil, queue]
    exact h.inFlight
  · intro hopen action haction
    rcases List.mem_append.mp haction with haction | haction
    · exact h.unfinished (hopen.imp_left hpc) action haction
    · exact (hsilent action haction).1
  · simp only [written_append, fetched_append, hwritten, hfetched, List.append_nil]
    exact h.inOrder
  · intro hnone
    simp only [written_append, fetched_append, hwritten, hfetched, List.append_nil, queue]
    exact h.books fun action haction => hnone action (List.mem_append_left _ haction)

/-- A Finish comes while nothing of it is left in the air. -/
theorem Proper.finish (h : S.Proper)
    (hopen : ∀ action ∈ S.run.trace, action.isFinish = false)
    (admitted : w.pc.admitting = false) (pc : w.pc ≠ .nextWrite) (status : Status) :
    Proper { run := { shared := shared, writer := w, trace := S.run.trace ++ [.finish status] }
             outstanding := 0 } := by
  have hwritten : written [(.finish status : WriterAction Pick)] = [] := rfl
  have hfetched : fetched [(.finish status : WriterAction Pick)] = [] := rfl
  refine ⟨admitted, by simp, fun hnext => absurd hnext pc, by simp, ?_, ?_, ?_,
    endsOnce_concat hopen _⟩
  · intro hcases
    rcases hcases with hnext | hout
    · exact absurd hnext pc
    · simp at hout
  · simp only [written_append, fetched_append, hwritten, hfetched, List.append_nil]
    exact h.inOrder
  · intro hnone
    have hfinish := hnone (.finish status) (by simp)
    cases hfinish

theorem Proper.popped (h : S.Proper) (hout : 1 ≤ S.outstanding)
    (queue : w.mPicksQueue = S.run.writer.mPicksQueue.tail) (pc : w.pc = .nextWrite)
    (progress : w.mWriteInProgress = false) :
    Proper { run := { shared := shared, writer := w, trace := S.run.trace }
             outstanding := 0 } := by
  have hone : S.outstanding = 1 := le_antisymm h.one hout
  have hopen := h.unfinished (Or.inr hout)
  refine ⟨congrArg Pc.admitting pc, by simp, fun _ => ⟨rfl, progress⟩, by simp, fun _ => hopen,
    h.inOrder, ?_, h.ends⟩
  intro _
  have hbooks := h.books hopen
  rw [hone, List.drop_one] at hbooks
  rw [List.drop_zero, queue]
  exact hbooks

theorem Proper.wrote (h : S.Proper) (looping : S.run.writer.pc = .nextWrite) {pick : Pick}
    {rest : List Pick} (queue : S.run.writer.mPicksQueue = pick :: rest)
    (hqueue : w.mPicksQueue = S.run.writer.mPicksQueue) (pc : w.pc = .idle) :
    Proper { run := { shared := shared, writer := w, trace := S.run.trace ++ [.startWrite pick] }
             outstanding := 1 } := by
  have hopen := h.unfinished (Or.inl looping)
  have hwritten : written [WriterAction.startWrite pick] = [pick] := rfl
  have hfetched : fetched [WriterAction.startWrite pick] = [] := rfl
  have hall := unfinished_concat hopen (x := .startWrite pick) rfl
  have hbooks : fetched S.run.trace = written S.run.trace ++ pick :: rest := by
    have hbooks := h.books hopen
    rwa [(h.looping looping).1, List.drop_zero, queue] at hbooks
  have hsplit : fetched (S.run.trace ++ [.startWrite pick]) =
      written (S.run.trace ++ [.startWrite pick]) ++ rest := by
    rw [fetched_append, written_append, hwritten, hfetched, hbooks]
    simp
  refine ⟨congrArg Pc.admitting pc, by simp, fun hnext => ?_, fun _ => ⟨pick, rest, ?_, ?_⟩,
    fun _ => hall, ⟨rest, hsplit.symm⟩, fun _ => ?_, endsOnce_concat hopen _⟩
  · rw [pc] at hnext
    cases hnext
  · exact hqueue.trans queue
  · rw [written_append, hwritten, List.getLast?_concat]
  · rw [hsplit, hqueue, queue]
    rfl

theorem Proper.refilled (h : S.Proper) (looping : S.run.writer.pc = .nextWrite)
    (queue : S.run.writer.mPicksQueue = []) {picks : List Pick} (hqueue : w.mPicksQueue = picks)
    (pc : w.pc = .nextWrite) (progress : w.mWriteInProgress = false) :
    Proper { run := { shared := shared, writer := w, trace := S.run.trace ++ [.getPicks picks] }
             outstanding := 0 } := by
  have hopen := h.unfinished (Or.inl looping)
  have hwritten : written [WriterAction.getPicks picks] = [] := rfl
  have hfetched : fetched [WriterAction.getPicks picks] = picks := by
    simp [fetched, WriterAction.answer]
  have hall := unfinished_concat hopen (x := .getPicks picks) rfl
  have hbooks : fetched S.run.trace = written S.run.trace := by
    have hbooks := h.books hopen
    rwa [queue, List.drop_nil, List.append_nil] at hbooks
  have hsplit : fetched (S.run.trace ++ [.getPicks picks]) =
      written (S.run.trace ++ [.getPicks picks]) ++ picks := by
    rw [fetched_append, written_append, hwritten, hfetched, hbooks, List.append_nil]
  refine ⟨congrArg Pc.admitting pc, by simp, fun _ => ⟨rfl, progress⟩, by simp, fun _ => hall,
    ⟨picks, hsplit.symm⟩, fun _ => ?_, endsOnce_concat hopen _⟩
  rw [hsplit, hqueue, List.drop_zero]

theorem Proper.next (h : S.Proper) {event : RunEvent Pick} (hanswered : WriteAnswered S event) :
    (writerStream.next S event).Proper := by
  cases event with
  | others shared =>
    have hnext : writerStream.next S (.others shared) =
        { run := { shared := shared, writer := S.run.writer, trace := S.run.trace ++ [] }
          outstanding := S.outstanding } := by
      simp [writerStream, writerRun, Machine.next, RunEvent.isWriteDone]
    rw [hnext]
    exact h.quiet rfl rfl (Or.inl rfl) (by simp)
  | writer event =>
    cases hstep : S.run.writer.step S.run.shared event with
    | mk shared result =>
      obtain ⟨w', actions⟩ := result
      have hmoves : Moves S.run.writer (RunEvent.isWriteDone (.writer event : RunEvent Pick)) w'
          actions := step_moves h.admitted (fun hpc => (h.looping hpc).2) hstep
      have hnext : writerStream.next S (.writer event) =
          { run := { shared := shared, writer := w', trace := S.run.trace ++ actions }
            outstanding := S.outstanding -
                (RunEvent.isWriteDone (.writer event : RunEvent Pick)).toNat +
              actions.countP WriterAction.isStartWrite } := by
        simp [writerStream, writerRun, Machine.next, hstep]
      rw [hnext]
      rw [WriteAnswered] at hanswered
      generalize RunEvent.isWriteDone (.writer event : RunEvent Pick) = done at *
      cases hmoves with
      | quiet queue progress pc silent =>
        have hcount : actions.countP WriterAction.isStartWrite = 0 := by
          apply List.countP_eq_zero.mpr
          intro action haction
          rw [silent action haction]
          simp [WriterAction.isStartWrite]
        rw [hcount]
        exact h.quiet queue progress pc silent
      | popped =>
        have hone : S.outstanding = 1 := le_antisymm h.one (hanswered rfl)
        rw [hone, List.append_nil]
        exact h.popped (hanswered rfl) rfl rfl rfl
      | failed status =>
        have hone : S.outstanding = 1 := le_antisymm h.one (hanswered rfl)
        have hpc : S.run.writer.pc ≠ .nextWrite := by
          intro hpc
          have hzero := (h.looping hpc).1
          omega
        rw [hone]
        exact h.finish (h.unfinished (Or.inr (hanswered rfl))) h.admitted hpc status
      | stopped status looping =>
        rw [(h.looping looping).1]
        exact h.finish (h.unfinished (Or.inl looping)) rfl (by simp) status
      | wrote looping queue =>
        rw [(h.looping looping).1]
        exact h.wrote looping queue rfl rfl
      | refilled picks looping queue =>
        rw [(h.looping looping).1]
        exact h.refilled looping queue rfl looping (h.looping looping).2

end WriterStream

/-- A constructor that rejects nobody has subscribed its client and starts in the loop. -/
theorem constructed_unrejected (connection : Connection)
    (atLimit atSubscribe atFetchAdd : Shared Pick) (readings : Readings)
    (h : ¬ (WriterRun.constructed connection atLimit atSubscribe atFetchAdd
      readings).TookRejection) :
    WriterStream.Proper
      { run := WriterRun.constructed connection atLimit atSubscribe atFetchAdd readings } := by
  have hwriter : (WriterRun.constructed connection atLimit atSubscribe atFetchAdd
      readings).writer =
      { connection := connection, pc := .nextWrite, mRegistered := true } := by
    cases hs : AsynchronousWriter.trySubscribe { connection := connection, pc := .trySubscribe }
      atSubscribe.mPickStore readings <;>
    simp [WriterRun.constructed, construct, writerRun, Machine.next, AsynchronousWriter.step,
      AsynchronousWriter.proceed, hs]
  have htrace : (WriterRun.constructed connection atLimit atSubscribe atFetchAdd
      readings).trace = [.subscribe, .fetchAdd] := by
    have hsub := trySubscribe_isOk { connection := connection, pc := .trySubscribe }
      atSubscribe.mPickStore readings
    rw [tookRejection_iff, not_not, Admits, ← limitReached_eq_false, ← unauthorized_eq_false,
      ← hsub] at h
    obtain ⟨hlimit, hauthorized, store, hstore⟩ := h
    rw [trace_constructed, hlimit, hauthorized, hstore]
    rfl
  have hnone : ∀ action ∈ [.subscribe, (.fetchAdd : WriterAction Pick)],
      action.isFinish = false := by
    simp [WriterAction.isFinish]
  refine ⟨?_, by simp, ?_, by simp, ?_, ?_, ?_, ?_⟩
  · rw [hwriter]
    rfl
  · intro _
    rw [hwriter]
    exact ⟨rfl, rfl⟩
  · intro _
    rw [htrace]
    exact hnone
  · rw [htrace]
    exact List.prefix_refl _
  · intro _
    rw [htrace, hwriter]
    rfl
  · rw [htrace]
    exact endsOnce_concat (l := [.subscribe]) (by simp [WriterAction.isFinish]) .fetchAdd

/-- Whatever the store answers and gRPC reports, an admitted subscriber is written what was
fetched for it, in order and one pick at a time, until the one Finish. -/
theorem stream_in_order (connection : Connection) (atLimit atSubscribe atFetchAdd : Shared Pick)
    (readings : Readings) (events : List (RunEvent Pick))
    (hadmitted : ¬ (WriterRun.constructed connection atLimit atSubscribe atFetchAdd
      readings).TookRejection)
    (hanswered : writerStream.Meets WriteAnswered
      { run := WriterRun.constructed connection atLimit atSubscribe atFetchAdd readings } events) :
    let start : WriterStream Pick :=
      { run := WriterRun.constructed connection atLimit atSubscribe atFetchAdd readings }
    let S := writerStream.final start events
    written S.run.trace <+: fetched S.run.trace ∧
      S.outstanding ≤ 1 ∧
      (1 ≤ S.outstanding → ∃ pick, S.run.writer.mPicksQueue.head? = some pick ∧
        (written S.run.trace).getLast? = some pick) ∧
      writerStream.Meets PopsElement start events ∧
      EndsOnce S.run.trace := by
  have hstart := constructed_unrejected connection atLimit atSubscribe atFetchAdd readings hadmitted
  have keep (S : WriterStream Pick) (event : RunEvent Pick) (h : S.Proper)
      (hok : WriteAnswered S event) : (writerStream.next S event).Proper := h.next hok
  have pops (S : WriterStream Pick) (event : RunEvent Pick) (h : S.Proper)
      (hok : WriteAnswered S event) : PopsElement S event := by
    intro hdone
    obtain ⟨pick, rest, hqueue, -⟩ := h.inFlight (hok hdone)
    rw [hqueue]
    exact List.cons_ne_nil _ _
  have hfinal := Machine.invariant writerStream keep hstart hanswered
  refine ⟨hfinal.inOrder, hfinal.one, ?_, Machine.meets_of_invariant _ keep pops hstart hanswered,
    hfinal.ends⟩
  intro hout
  obtain ⟨pick, rest, hqueue, hlast⟩ := hfinal.inFlight hout
  exact ⟨pick, by rw [hqueue]; rfl, hlast⟩

/-- The client of an open service with nothing to prove. -/
def openClient : Connection := { noToken with options := {}, isSecured := false }

/-- The store holds two picks, in the order of their times and not of their arrival. -/
def twoStored : Shared ℕ :=
  { mPickStore := PickStore.enqueue (Sorting.stable Int64 ℕ)
      (PickStore.enqueue (Sorting.stable Int64 ℕ) {} 1600000000 80 2000000000) 1500000000 70
      2000000000 }

/-- Nothing but the subscription has changed it. -/
def twoStoredSubscribed : Shared ℕ :=
  { mPickStore := { twoStored.mPickStore with
      mCursorMap := twoStored.mPickStore.mCursorMap.insert 101 1000000000 } }

/-- Fetches both picks, writes one after the other, is told so each time, and is cancelled. -/
def twoPicksThenCancel : List (RunEvent ℕ) :=
  [.writer (.proceed {}), .writer (.proceed {}), .writer (.onWriteDone true true false),
    .writer (.proceed {}), .writer (.onWriteDone true true false), .writer .onCancel,
    .writer (.proceed { cancelled := true, cancelledAfter := true })]

theorem stream_in_order_two_picks :
    let start : WriterStream ℕ :=
      { run := WriterRun.constructed openClient twoStored twoStored twoStoredSubscribed
          { now := 2000000000, storeNow := 2000000000 } }
    let S := writerStream.final start twoPicksThenCancel
    written S.run.trace = [70, 80] ∧
      written S.run.trace <+: fetched S.run.trace ∧
      S.outstanding ≤ 1 ∧
      (1 ≤ S.outstanding → ∃ pick, S.run.writer.mPicksQueue.head? = some pick ∧
        (written S.run.trace).getLast? = some pick) ∧
      writerStream.Meets PopsElement start twoPicksThenCancel ∧
      EndsOnce S.run.trace := by
  refine ⟨by decide, stream_in_order openClient twoStored twoStored twoStoredSubscribed
    { now := 2000000000, storeNow := 2000000000 } twoPicksThenCancel ?_ (by decide)⟩
  rw [tookRejection_iff, not_not]
  exact ⟨by decide, by decide, rfl, by decide⟩

end PickBroker
