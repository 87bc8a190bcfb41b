import PickBroker.Exception
import PickBroker.Framework.Machine
import Mathlib.Logic.Function.Basic

namespace PickBroker

open Framework

/-- The threads that `start` makes, each with a future of its own. -/
inductive Worker where
  | publishService
  | subscribeService
  | pickProcessor
  | databaseCleaner
  deriving DecidableEq

inductive WorkerState where
  | notStarted
  | running
  | returned
  | threw (e : Exception)
  deriving DecidableEq

/-- What the owner of the broker is at: `stop` has futures left to get. -/
inductive Owner where
  | idle
  | stopping (left : List Worker)
  deriving DecidableEq

/-- The broker as its owner knows it. Of a pointer it is told whether it is set, and of a future
whether it has a shared state, where the result is that of the worker. -/
structure Lifecycle where
  mInitialized : Bool := true
  mStarted : Bool := false
  mIsRunning : Bool := false
  mKeepRunning : Bool := true
  mShutdownRequested : Bool := false
  mPublishService : Bool := true
  mSubscribeService : Bool := true
  mDatabase : Bool := true
  futureValid : Worker → Bool := fun _ => false
  worker : Worker → WorkerState := fun _ => .notStarted
  owner : Owner := .idle

/-- A worker ends, by an exception when there is one. -/
structure Termination where
  worker : Worker
  thrown : Option Exception := none

def Termination.state (termination : Termination) : WorkerState :=
  match termination.thrown with
  | none => .returned
  | some e => .threw e

/-- The calls of the owner. While `checkFuturesOkay` is busy, workers may end: `meanwhile w` before
it waits for the future of `w`. -/
inductive OwnerCall where
  | start
  | stop
  | isRunning
  | checkFuturesOkay (meanwhile : Worker → List Termination)

inductive LifecycleEvent where
  | call (call : OwnerCall)
  | proceed
  | terminates (termination : Termination)

/-- How a call ends. -/
inductive Outcome where
  | returned
  | told (answer : Bool)
  | threw (e : Exception)
  | nullPointer
  deriving DecidableEq

namespace Lifecycle

def terminate (L : Lifecycle) (termination : Termination) : Lifecycle :=
  match L.worker termination.worker with
  | .running =>
    { L with worker := Function.update L.worker termination.worker termination.state }
  | _ => L

def terminations (L : Lifecycle) (l : List Termination) : Lifecycle := l.foldl terminate L

/-- `std::async`, and the assignment of its future. -/
def launch (L : Lifecycle) (w : Worker) : Lifecycle :=
  { L with
    futureValid := Function.update L.futureValid w true
    worker := Function.update L.worker w .running }

/-- What `get` does to a future, also when it throws. -/
def release (L : Lifecycle) (w : Worker) : Lifecycle :=
  { L with futureValid := Function.update L.futureValid w false }

def start (L : Lifecycle) : Lifecycle × Outcome :=
  if !L.mInitialized then (L, .threw (.runtime_error "Broker not initialized"))
  else if L.mStarted then (L, .threw (.runtime_error "Cannot restart broker"))
  else
    let L := { L with mShutdownRequested := false, mKeepRunning := true }
    if !L.mPublishService then (L, .nullPointer)
    else
      let L := ((L.launch .publishService).launch .pickProcessor).launch .databaseCleaner
      if !L.mSubscribeService then (L, .nullPointer)
      else ({ L.launch .subscribeService with mStarted := true }, .returned)

/-- `stop` up to the futures. It tests each pointer before it uses and resets it. -/
def stop (L : Lifecycle) : Lifecycle :=
  { L with
    mKeepRunning := false
    mShutdownRequested := true
    mPublishService := false
    mSubscribeService := false
    mDatabase := false
    mIsRunning := false
    owner := .stopping [.publishService, .pickProcessor, .subscribeService, .databaseCleaner] }

/-- The next future of `stop`. Getting it waits for the worker. -/
def proceed (L : Lifecycle) : Lifecycle × Option Outcome :=
  match L.owner with
  | .idle => (L, none)
  | .stopping [] => ({ L with owner := .idle }, some .returned)
  | .stopping (w :: left) =>
    if L.futureValid w then
      match L.worker w with
      | .returned => ({ L.release w with owner := .stopping left }, none)
      | .threw e => ({ L.release w with owner := .idle }, some (.threw e))
      | .notStarted | .running => (L, none)
    else ({ L with owner := .stopping left }, none)

/-- One block of `checkFuturesOkay`: whether it leaves `isOkay` as it is. -/
def inspect (L : Lifecycle) (w : Worker) : Lifecycle × Bool :=
  if L.futureValid w then
    match L.worker w with
    | .returned => (L.release w, true)
    | .threw _ => (L.release w, false)
    | .notStarted | .running => (L, true)
  -- `wait_for` throws when there is no shared state.
  else (L, false)

/-- The order of the blocks. -/
def inspected : List Worker :=
  [.subscribeService, .publishService, .pickProcessor, .databaseCleaner]

def inspectAll (meanwhile : Worker → List Termination) :
    List Worker → Lifecycle → Lifecycle × Bool
  | [], L => (L, true)
  | w :: ws, L =>
    let (L, okay) := (L.terminations (meanwhile w)).inspect w
    let (L, isOkay) := inspectAll meanwhile ws L
    (L, okay && isOkay)

def checkFuturesOkay (L : Lifecycle) (meanwhile : Worker → List Termination) :
    Lifecycle × Bool :=
  inspectAll meanwhile inspected L

def serve (L : Lifecycle) : OwnerCall → Lifecycle × Option Outcome
  | .start =>
    let (L, outcome) := L.start
    (L, some outcome)
  | .stop => (L.stop, none)
  | .isRunning => (L, some (.told L.mIsRunning))
  | .checkFuturesOkay meanwhile =>
    let (L, isOkay) := L.checkFuturesOkay meanwhile
    (L, some (.told isOkay))

end Lifecycle

/-- The owner makes one call after the other, and the workers end when they will. -/
def lifecycle : Machine Lifecycle LifecycleEvent (Option Outcome) where
  step L
    | .call call =>
      match L.owner with
      | .idle => L.serve call
      | .stopping _ => (L, none)
    | .proceed => L.proceed
    | .terminates termination => (L.terminate termination, none)

/-- Some worker has terminated by an exception. -/
def Lifecycle.Threw (L : Lifecycle) : Prop := ∃ w e, L.worker w = .threw e

/-- The answer of a check that began in one state and ended in another is right for a moment in
between. -/
structure CheckTruthful (before after : Lifecycle) (isOkay : Bool) : Prop where
  okay : isOkay = true → ¬ before.Threw
  not_okay : isOkay = false → after.Threw

def ChecksTruthfully (L : Lifecycle) : LifecycleEvent → Prop
  | .call (.checkFuturesOkay meanwhile) => L.owner = .idle →
      CheckTruthful L (L.checkFuturesOkay meanwhile).1 (L.checkFuturesOkay meanwhile).2
  | _ => True

/-- A check finds all futures with their shared state, or some worker has thrown. -/
def CanTell (L : Lifecycle) : LifecycleEvent → Prop
  | .call (.checkFuturesOkay meanwhile) => L.owner = .idle →
      (∀ w, L.futureValid w = true) ∨
        (L.terminations (Lifecycle.inspected.flatMap meanwhile)).Threw
  | _ => True

namespace Lifecycle

variable (L : Lifecycle) {w : Worker} {e : Exception}

section Terminations

@[simp] theorem terminate_futureValid (termination : Termination) :
    (L.terminate termination).futureValid = L.futureValid := by
  unfold terminate
  split <;> rfl

/-- A worker that has thrown has thrown for good. -/
theorem terminate_threw (h : L.worker w = .threw e) (termination : Termination) :
    (L.terminate termination).worker w = .threw e := by
  unfold terminate
  split
  · rename_i hrunning
    have hne : w ≠ termination.worker := by
      intro heq
      rw [← heq, h] at hrunning
      cases hrunning
    rw [← h]
    exact Function.update_of_ne hne ..
  · exact h

theorem terminate_worker_congr {L L' : Lifecycle} (h : L.worker = L'.worker)
    (termination : Termination) :
    (L.terminate termination).worker = (L'.terminate termination).worker := by
  unfold terminate
  rw [h]
  split <;> first | rfl | exact h

@[simp] theorem terminations_futureValid (l : List Termination) :
    (L.terminations l).futureValid = L.futureValid := by
  induction l generalizing L with
  | nil => rfl
  | cons termination l ih => exact (ih _).trans (L.terminate_futureValid termination)

theorem terminations_threw (h : L.worker w = .threw e) (l : List Termination) :
    (L.terminations l).worker w = .threw e := by
  induction l generalizing L with
  | nil => exact h
  | cons termination l ih => exact ih _ (L.terminate_threw h termination)

theorem terminations_worker_congr {L L' : Lifecycle} (h : L.worker = L'.worker)
    (l : List Termination) : (L.terminations l).worker = (L'.terminations l).worker := by
  induction l generalizing L L' with
  | nil => exact h
  | cons termination l ih => exact ih (terminate_worker_congr h termination)

theorem terminations_append (l l' : List Termination) :
    L.terminations (l ++ l') = (L.terminations l).terminations l' := List.foldl_append

end Terminations

section Inspection

@[simp] theorem inspect_worker (w : Worker) : (L.inspect w).1.worker = L.worker := by
  unfold inspect
  split
  · split <;> rfl
  · rfl

/-- A block touches no future but its own. -/
theorem inspect_futureValid {v : Worker} (h : v ≠ w) :
    (L.inspect w).1.futureValid v = L.futureValid v := by
  unfold inspect
  split
  · split
    · exact Function.update_of_ne h ..
    · exact Function.update_of_ne h ..
    · rfl
    · rfl
  · rfl

theorem inspect_okay_iff :
    (L.inspect w).2 = true ↔ L.futureValid w = true ∧ ∀ e, L.worker w ≠ .threw e := by
  unfold inspect
  split
  · rename_i hvalid
    split <;> simp_all
  · rename_i hinvalid
    simp [hinvalid]

variable (meanwhile : Worker → List Termination)

theorem inspectAll_worker (ws : List Worker) :
    (inspectAll meanwhile ws L).1.worker = (L.terminations (ws.flatMap meanwhile)).worker := by
  induction ws generalizing L with
  | nil => rfl
  | cons w ws ih =>
    rw [List.flatMap_cons, terminations_append]
    exact (ih _).trans (terminations_worker_congr (inspect_worker _ w) _)

theorem inspectAll_threw (h : L.worker w = .threw e) (ws : List Worker) :
    (inspectAll meanwhile ws L).1.worker w = .threw e := by
  rw [inspectAll_worker]
  exact L.terminations_threw h _

/-- When all blocks are content, every future had its shared state, and none held an exception. -/
theorem inspectAll_okay {ws : List Worker} (hnodup : ws.Nodup)
    (h : (inspectAll meanwhile ws L).2 = true) :
    ∀ w ∈ ws, L.futureValid w = true ∧ ∀ e, L.worker w ≠ .threw e := by
  induction ws generalizing L with
  | nil => simp
  | cons w ws ih =>
    obtain ⟨hw, hws⟩ := List.nodup_cons.mp hnodup
    obtain ⟨hfirst, hrest⟩ := Bool.and_eq_true_iff.mp h
    intro v hv
    rcases List.mem_cons.mp hv with rfl | hv
    · obtain ⟨hvalid, hthrew⟩ := (inspect_okay_iff _).mp hfirst
      rw [terminations_futureValid] at hvalid
      exact ⟨hvalid, fun e he => hthrew e (L.terminations_threw he _)⟩
    · obtain ⟨hvalid, hthrew⟩ := ih ((L.terminations (meanwhile w)).inspect w).1 hws hrest v hv
      have hne : v ≠ w := fun heq => hw (heq ▸ hv)
      rw [inspect_futureValid _ hne, terminations_futureValid] at hvalid
      refine ⟨hvalid, fun e he => hthrew e ?_⟩
      rw [inspect_worker]
      exact L.terminations_threw he _

/-- A block that is not content has found no shared state or an exception. -/
theorem inspectAll_not_okay {ws : List Worker} (hnodup : ws.Nodup)
    (h : (inspectAll meanwhile ws L).2 = false) :
    ∃ w ∈ ws, L.futureValid w = false ∨ ∃ e, (inspectAll meanwhile ws L).1.worker w = .threw e := by
  induction ws generalizing L with
  | nil => cases h
  | cons w ws ih =>
    obtain ⟨hw, hws⟩ := List.nodup_cons.mp hnodup
    have hcases : ((L.terminations (meanwhile w)).inspect w).2 = false ∨
        (inspectAll meanwhile ws ((L.terminations (meanwhile w)).inspect w).1).2 = false :=
      Bool.and_eq_false_iff.mp h
    rcases hcases with hfirst | hrest
    · refine ⟨w, List.mem_cons_self, ?_⟩
      by_cases hvalid : L.futureValid w = false
      · exact Or.inl hvalid
      · right
        by_contra hnone
        have hokay : ((L.terminations (meanwhile w)).inspect w).2 = true := by
          refine (inspect_okay_iff _).mpr ⟨by simpa using hvalid, ?_⟩
          intro e he
          have hinspected : ((L.terminations (meanwhile w)).inspect w).1.worker w = .threw e := by
            rwa [inspect_worker]
          exact hnone ⟨e, inspectAll_threw _ meanwhile hinspected ws⟩
        rw [hokay] at hfirst
        cases hfirst
    · obtain ⟨v, hv, hfound⟩ := ih ((L.terminations (meanwhile w)).inspect w).1 hws hrest
      have hne : v ≠ w := fun heq => hw (heq ▸ hv)
      rw [inspect_futureValid _ hne, terminations_futureValid] at hfound
      exact ⟨v, List.mem_cons_of_mem w hv, hfound⟩

end Inspection

section Owners

theorem terminate_owner (termination : Termination) :
    (L.terminate termination).owner = L.owner := by
  unfold terminate
  split <;> rfl

end Owners

end Lifecycle

/-- A check is right exactly when it finds all futures with their shared state, or when some worker
has thrown by its end. -/
theorem check_truthful_iff (L : Lifecycle) (meanwhile : Worker → List Termination) :
    CheckTruthful L (L.checkFuturesOkay meanwhile).1 (L.checkFuturesOkay meanwhile).2 ↔
      (∀ w, L.futureValid w = true) ∨
        (L.terminations (Lifecycle.inspected.flatMap meanwhile)).Threw := by
  have hworker := L.inspectAll_worker meanwhile Lifecycle.inspected
  have hthrew : (L.checkFuturesOkay meanwhile).1.Threw ↔
      (L.terminations (Lifecycle.inspected.flatMap meanwhile)).Threw := by
    rw [Lifecycle.Threw, Lifecycle.Threw, ← hworker]
    rfl
  have hnodup : Lifecycle.inspected.Nodup := by decide
  have hall (w : Worker) : w ∈ Lifecycle.inspected := by cases w <;> decide
  constructor
  · intro h
    cases hokay : (L.checkFuturesOkay meanwhile).2 with
    | true =>
      left
      intro w
      exact (L.inspectAll_okay meanwhile hnodup hokay w (hall w)).1
    | false => exact Or.inr (hthrew.mp (h.not_okay hokay))
  · intro h
    constructor
    · intro hokay hbefore
      obtain ⟨w, e, he⟩ := hbefore
      exact (L.inspectAll_okay meanwhile hnodup hokay w (hall w)).2 e he
    · intro hokay
      obtain ⟨w, -, hfound⟩ := L.inspectAll_not_okay meanwhile hnodup hokay
      rcases h with hvalid | hsome
      · rcases hfound with hinvalid | ⟨e, he⟩
        · rw [hvalid w] at hinvalid
          cases hinvalid
        · exact ⟨w, e, he⟩
      · exact hthrew.mpr hsome

/-- In every lifecycle, the checks are right exactly when each of them can tell. -/
theorem checks_truthful_iff (L : Lifecycle) (events : List LifecycleEvent) :
    lifecycle.Meets ChecksTruthfully L events ↔ lifecycle.Meets CanTell L events := by
  have hsame : ChecksTruthfully = CanTell := by
    funext L event
    cases event with
    | call call =>
      cases call with
      | checkFuturesOkay meanwhile =>
        simp only [ChecksTruthfully, CanTell, check_truthful_iff]
      | start | stop | isRunning => rfl
    | proceed => rfl
    | terminates termination => rfl
  rw [hsame]

/-- A check during which no worker ends. -/
def undisturbedCheck : LifecycleEvent := .call (.checkFuturesOkay fun _ => [])

/-- Nothing has thrown, but a check before `start` is not okay, and the second check takes the normal
end of a worker for a failure. -/
theorem checked_twice_not_okay :
    lifecycle.answers {} [undisturbedCheck] = [some (.told false)] ∧
      lifecycle.answers {} [.call .start, .terminates { worker := .publishService },
        undisturbedCheck, undisturbedCheck] =
        [some .returned, none, some (.told true), some (.told false)] ∧
      ¬ lifecycle.Meets ChecksTruthfully {} [undisturbedCheck] ∧
      ¬ lifecycle.Meets ChecksTruthfully {} [.call .start,
        .terminates { worker := .publishService }, undisturbedCheck, undisturbedCheck] := by
  refine ⟨by decide, by decide, ?_, ?_⟩
  · intro h
    obtain ⟨w, e, he⟩ := (h.1 rfl).not_okay rfl
    cases he
  · intro h
    obtain ⟨w, e, he⟩ := (h.2.2.2.1 rfl).not_okay rfl
    cases w <;> cases he

end PickBroker
