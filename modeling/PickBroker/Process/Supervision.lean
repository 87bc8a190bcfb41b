import PickBroker.Framework.Progress
import PickBroker.Process.Process

namespace PickBroker

open Framework

def WorkerState.hasEnded : WorkerState → Bool
  | .returned | .threw _ => true
  | .notStarted | .running => false

namespace MainThread

/-- The loop of `handleMainThread`. -/
def isLooping : MainThread → Bool
  | .loop | .testInterrupted | .checkFutures | .printSummary | .wait => true
  | _ => false

def hasLeftLoop : MainThread → Bool
  | .start | .loop | .testInterrupted | .checkFutures | .printSummary | .wait | .killed => false
  | _ => true

/-- How many steps of the loop are left when `mInterrupted` is next tested. -/
def toTest : MainThread → ℕ
  | .testInterrupted => 1
  | .loop => 2
  | .wait => 3
  | .printSummary => 4
  | .checkFutures => 5
  | _ => 0

/-- How many steps of the loop are left when the futures are next checked. -/
def toCheck : MainThread → ℕ
  | .checkFutures => 1
  | .testInterrupted => 2
  | .loop => 3
  | .wait => 4
  | .printSummary => 5
  | _ => 0

theorem toTest_le (pc : MainThread) : pc.toTest ≤ 5 := by
  cases pc <;> simp [toTest]

theorem toCheck_le (pc : MainThread) : pc.toCheck ≤ 5 := by
  cases pc <;> simp [toCheck]

theorem isLooping_eq_false {pc : MainThread} (h : pc.hasLeftLoop = true) :
    pc.isLooping = false := by
  cases pc <;> first | rfl | cases h

theorem toTest_eq_zero {pc : MainThread} (h : pc.isLooping = false) : pc.toTest = 0 := by
  cases pc <;> first | rfl | cases h

theorem toCheck_eq_zero {pc : MainThread} (h : pc.isLooping = false) : pc.toCheck = 0 := by
  cases pc <;> first | rfl | cases h

end MainThread

/-- The steps that the main thread takes in its loop. -/
def InLoop (P : Process) : ProcessEvent → Prop
  | .mainThread _ => P.mainThread.isLooping = true
  | .signal | .terminates _ => False

instance (P : Process) : (event : ProcessEvent) → Decidable (InLoop P event)
  | .mainThread _ => inferInstanceAs (Decidable (_ = true))
  | .signal | .terminates _ => .isFalse id

namespace Lifecycle

variable (L : Lifecycle) {w : Worker}

/-- Whatever has ended stays as it ended. -/
theorem terminate_hasEnded (h : (L.worker w).hasEnded = true) (termination : Termination) :
    (L.terminate termination).worker w = L.worker w := by
  unfold terminate
  split
  · rename_i hrunning
    have hne : w ≠ termination.worker := by
      intro heq
      rw [heq, hrunning] at h
      cases h
    exact Function.update_of_ne hne ..
  · rfl

theorem terminations_hasEnded (h : (L.worker w).hasEnded = true) (l : List Termination) :
    (L.terminations l).worker w = L.worker w := by
  induction l generalizing L with
  | nil => rfl
  | cons termination l ih =>
    have hsame := L.terminate_hasEnded h termination
    exact (ih (L.terminate termination) (hsame ▸ h)).trans hsame

/-- A future that has been released is not valid again. -/
theorem inspect_released {v : Worker} (h : L.futureValid v = false) :
    (L.inspect w).1.futureValid v = false := by
  by_cases hne : v = w
  · subst hne
    rw [inspect, if_neg (by rw [h]; decide)]
    exact h
  · rwa [inspect_futureValid L hne]

theorem inspectAll_released (meanwhile : Worker → List Termination) (ws : List Worker)
    (h : L.futureValid w = false) : (inspectAll meanwhile ws L).1.futureValid w = false := by
  induction ws generalizing L with
  | nil => exact h
  | cons v ws ih =>
    apply ih
    apply inspect_released
    rwa [terminations_futureValid]

/-- The block of a worker that has ended releases its future. -/
theorem inspect_releases (h : (L.worker w).hasEnded = true) :
    (L.inspect w).1.futureValid w = false := by
  unfold inspect
  split
  · split
    · exact Function.update_self ..
    · exact Function.update_self ..
    all_goals
      rename_i hstate
      rw [hstate] at h
      cases h
  · exact Bool.eq_false_iff.mpr ‹_›

theorem inspectAll_releases (meanwhile : Worker → List Termination) {ws : List Worker}
    (hmem : w ∈ ws) (h : (L.worker w).hasEnded = true) :
    (inspectAll meanwhile ws L).1.futureValid w = false := by
  induction ws generalizing L with
  | nil => cases hmem
  | cons v ws ih =>
    have hended : ((L.terminations (meanwhile v)).worker w).hasEnded = true := by
      rwa [L.terminations_hasEnded h]
    rcases List.mem_cons.mp hmem with rfl | hmem
    · exact inspectAll_released _ meanwhile ws (inspect_releases _ hended)
    · have hinspected : (((L.terminations (meanwhile v)).inspect v).1.worker w).hasEnded = true := by
        rwa [inspect_worker]
      exact ih _ hmem hinspected

/-- A block releases no future but that of a worker that has ended. -/
theorem inspect_valid_or_hasEnded (v : Worker) (h : (L.inspect v).1.futureValid w = false) :
    L.futureValid w = false ∨ (L.worker w).hasEnded = true := by
  by_cases hne : w = v
  · subst hne
    by_cases hended : (L.worker w).hasEnded = true
    · exact Or.inr hended
    · left
      unfold inspect at h
      split at h
      · split at h
        · rename_i hstate
          rw [hstate] at hended
          exact absurd rfl hended
        · rename_i hstate
          rw [hstate] at hended
          exact absurd rfl hended
        · exact h
        · exact h
      · exact h
  · rw [inspect_futureValid L hne] at h
    exact Or.inl h

theorem inspectAll_valid_or_hasEnded (meanwhile : Worker → List Termination) (ws : List Worker)
    (h : (inspectAll meanwhile ws L).1.futureValid w = false) :
    L.futureValid w = false ∨ ((inspectAll meanwhile ws L).1.worker w).hasEnded = true := by
  induction ws generalizing L with
  | nil => exact Or.inl h
  | cons v ws ih =>
    rcases ih _ h with hvalid | hended
    · rcases inspect_valid_or_hasEnded _ v hvalid with hbefore | hended
      · rw [terminations_futureValid] at hbefore
        exact Or.inl hbefore
      · right
        have hlater := inspectAll_worker ((L.terminations (meanwhile v)).inspect v).1 meanwhile ws
        have hinspected : (((L.terminations (meanwhile v)).inspect v).1.worker w).hasEnded = true := by
          rwa [inspect_worker]
        have hfinal := terminations_hasEnded _ hinspected (ws.flatMap meanwhile)
        rw [← hlater] at hfinal
        exact (congrArg WorkerState.hasEnded hfinal).trans hinspected
    · exact Or.inr hended

theorem mem_inspected (w : Worker) : w ∈ inspected := by
  cases w <;> decide

theorem inspected_nodup : inspected.Nodup := by
  decide

variable {L} {meanwhile : Worker → List Termination}

/-- A check that is content has found the futures of all workers, and none of them had thrown. -/
theorem checkFuturesOkay_okay (h : (L.checkFuturesOkay meanwhile).2 = true) (w : Worker) :
    L.futureValid w = true ∧ ∀ e, L.worker w ≠ .threw e :=
  L.inspectAll_okay meanwhile inspected_nodup h w (mem_inspected w)

theorem proceed_worker (L : Lifecycle) : L.proceed.1.worker = L.worker := by
  unfold proceed
  repeat' split
  all_goals rfl

end Lifecycle

namespace Process

variable {P : Process} (readings : MainReadings)

@[simp] theorem printSummary_broker : (P.printSummary readings).1.broker = P.broker := by
  unfold printSummary
  repeat' split
  all_goals rfl

@[simp] theorem printSummary_mInterrupted :
    (P.printSummary readings).1.mInterrupted = P.mInterrupted := by
  unfold printSummary
  repeat' split
  all_goals rfl

theorem printSummary_mStopRequested :
    (P.printSummary readings).1.mStopRequested = P.mStopRequested := by
  unfold printSummary
  repeat' split
  all_goals rfl

theorem getFuture_mInterrupted (returned threw : MainThread) :
    (P.getFuture returned threw).mInterrupted = P.mInterrupted := by
  unfold getFuture
  dsimp only
  split <;> rfl

theorem getFuture_broker (returned threw : MainThread) :
    (P.getFuture returned threw).broker = P.broker.proceed.1 := by
  unfold getFuture
  dsimp only
  split <;> rfl

/-- Getting a future leaves the main thread where it is, or ends its wait one way or the other. -/
theorem getFuture_mainThread (returned threw : MainThread) :
    (P.getFuture returned threw).mainThread = P.mainThread ∨
      (P.getFuture returned threw).mainThread = returned ∨
      (P.getFuture returned threw).mainThread = threw := by
  unfold getFuture
  dsimp only
  split
  · exact Or.inl rfl
  · exact Or.inr (Or.inr rfl)
  · exact Or.inr (Or.inl rfl)

theorem step_ne_start (h : P.mainThread ≠ .start) : (P.step readings).1.mainThread ≠ .start := by
  cases hpc : P.mainThread
  case start => exact absurd hpc h
  case loop | testInterrupted | checkFutures =>
    simp only [step, hpc]
    split <;> simp
  case getFutures | getFuturesAgain | getFuturesAtLast =>
    simp only [step, hpc]
    rcases P.getFuture_mainThread _ _ with hsame | hreturned | hthrew
    · rw [hsame]
      exact h
    · rw [hreturned]
      simp
    · rw [hthrew]
      simp
  all_goals simp [step, hpc]

/-- The loop is entered once. -/
theorem step_not_looping (h : P.mainThread ≠ .start) (hleft : P.mainThread.isLooping = false) :
    (P.step readings).1.mainThread.isLooping = false := by
  cases hpc : P.mainThread
  case start => exact absurd hpc h
  case loop | testInterrupted | checkFutures | printSummary | wait =>
    rw [hpc] at hleft
    cases hleft
  case getFutures | getFuturesAgain | getFuturesAtLast =>
    simp only [step, hpc]
    rcases P.getFuture_mainThread _ _ with hsame | hreturned | hthrew
    · rwa [hsame]
    · rw [hreturned]
      rfl
    · rw [hthrew]
      rfl
  all_goals simp [step, hpc, MainThread.isLooping]

theorem step_hasLeftLoop (h : P.mainThread.hasLeftLoop = true) :
    (P.step readings).1.mainThread.hasLeftLoop = true := by
  cases hpc : P.mainThread
  case start | loop | testInterrupted | checkFutures | printSummary | wait | killed =>
    rw [hpc] at h
    cases h
  case getFutures | getFuturesAgain | getFuturesAtLast =>
    simp only [step, hpc]
    rcases P.getFuture_mainThread _ _ with hsame | hreturned | hthrew
    · rwa [hsame]
    · rw [hreturned]
      rfl
    · rw [hthrew]
      rfl
  all_goals simp [step, hpc, MainThread.hasLeftLoop]

theorem step_mInterrupted : (P.step readings).1.mInterrupted = P.mInterrupted := by
  cases hpc : P.mainThread
  case start | testInterrupted | checkFutures =>
    simp only [step, hpc]
    split <;> rfl
  case getFutures | getFuturesAgain | getFuturesAtLast =>
    simp only [step, hpc, getFuture_mInterrupted]
  all_goals simp [step, hpc, stop]

/-- Once they are started, workers end by themselves only. -/
theorem step_worker (h : P.mainThread ≠ .start) :
    ∃ l, (P.step readings).1.broker.worker = (P.broker.terminations l).worker := by
  cases hpc : P.mainThread
  case start => exact absurd hpc h
  case checkFutures =>
    refine ⟨Lifecycle.inspected.flatMap readings.meanwhile, ?_⟩
    rw [← Lifecycle.inspectAll_worker]
    simp only [step, hpc]
    split <;> rfl
  case testInterrupted =>
    refine ⟨[], ?_⟩
    simp only [step, hpc]
    split <;> rfl
  case getFutures | getFuturesAgain | getFuturesAtLast =>
    refine ⟨[], ?_⟩
    simp only [step, hpc, getFuture_broker, Lifecycle.proceed_worker]
    rfl
  all_goals
    refine ⟨[], ?_⟩
    simp [step, hpc, stop, Lifecycle.stop, Lifecycle.terminations]

/-- A signal kills a process that has not begun its loop, and otherwise leaves the main thread
where it is. -/
theorem signal_mainThread (P : Process) :
    P.signal.mainThread = .killed ∨ P.signal.mainThread = P.mainThread := by
  unfold signal
  split
  · exact Or.inl rfl
  · exact Or.inr rfl

theorem signal_of_ne_start (h : P.mainThread ≠ .start) :
    P.signal = { P with mInterrupted := true } := by
  unfold signal
  split
  · exact absurd ‹_› h
  · rfl

theorem signal_broker (P : Process) : P.signal.broker = P.broker := by
  unfold signal
  split <;> rfl

end Process

section Events

variable {P : Process} (event : ProcessEvent)

theorem next_ne_start (h : P.mainThread ≠ .start) :
    (process.next P event).mainThread ≠ .start := by
  cases event with
  | mainThread readings => exact P.step_ne_start readings h
  | signal =>
    rcases P.signal_mainThread with hkilled | hsame
    · exact fun hstart => absurd (hkilled.symm.trans hstart) (by decide)
    · exact fun hstart => h (hsame.symm.trans hstart)
  | terminates termination => exact h

theorem next_mInterrupted (h : P.mInterrupted = true) :
    (process.next P event).mInterrupted = true := by
  cases event with
  | mainThread readings => exact (P.step_mInterrupted readings).trans h
  | signal =>
    have hsame : P.signal.mInterrupted = true := by
      unfold Process.signal
      split
      · exact h
      · rfl
    exact hsame
  | terminates termination => exact h

theorem next_worker (h : P.mainThread ≠ .start) :
    ∃ l, (process.next P event).broker.worker = (P.broker.terminations l).worker := by
  cases event with
  | mainThread readings => exact P.step_worker readings h
  | signal => exact ⟨[], congrArg Lifecycle.worker P.signal_broker⟩
  | terminates termination => exact ⟨[termination], rfl⟩

theorem next_hasEnded (h : P.mainThread ≠ .start) {w : Worker}
    (hended : (P.broker.worker w).hasEnded = true) :
    (process.next P event).broker.worker w = P.broker.worker w := by
  obtain ⟨l, hl⟩ := next_worker event h
  rw [hl, P.broker.terminations_hasEnded hended]

end Events

section Leaving

/-- The steps in the loop are paid for out of a potential that neither signals nor ending workers
change. -/
theorem steps_inLoop_le (Inv : Process → Prop) (potential : Process → ℕ)
    (keep : ∀ P event, Inv P → Inv (process.next P event))
    (started : ∀ P, Inv P → P.mainThread ≠ .start)
    (outside : ∀ P : Process, P.mainThread.isLooping = false → potential P = 0)
    (signal : ∀ P : Process, potential { P with mInterrupted := true } = potential P)
    (terminates : ∀ (P : Process) (termination : Termination),
      potential { P with broker := P.broker.terminate termination } = potential P)
    (pays : ∀ P : Process, Inv P → P.mainThread.isLooping = true → ∀ readings,
      potential (P.step readings).1 < potential P)
    {P : Process} (h : Inv P) (events : List ProcessEvent) :
    process.steps InLoop P events ≤ potential P := by
  refine process.steps_le_potential InLoop potential keep ?_ h events
  intro P event hP
  cases event with
  | mainThread readings =>
    by_cases hloop : P.mainThread.isLooping = true
    · have hpaid := pays P hP hloop readings
      have hin : InLoop P (.mainThread readings) := hloop
      rw [if_pos hin]
      simp only [Machine.next, process]
      omega
    · have hleft : P.mainThread.isLooping = false := Bool.eq_false_iff.mpr hloop
      have hafter := outside _ (P.step_not_looping readings (started P hP) hleft)
      have hin : ¬ InLoop P (.mainThread readings) := hloop
      rw [if_neg hin]
      simp only [Machine.next, process, hafter]
      omega
  | signal =>
    have hsame : process.next P .signal = { P with mInterrupted := true } :=
      P.signal_of_ne_start (started P hP)
    have hin : ¬ InLoop P .signal := id
    rw [hsame, signal, if_neg hin, Nat.zero_add]
  | terminates termination =>
    have hin : ¬ InLoop P (.terminates termination) := id
    rw [if_neg hin, Nat.zero_add]
    exact (terminates P termination).le

theorem steps_interrupted {P : Process} (hstarted : P.mainThread ≠ .start)
    (h : P.mInterrupted = true) (events : List ProcessEvent) :
    process.steps InLoop P events ≤ P.mainThread.toTest := by
  refine steps_inLoop_le (fun P => P.mainThread ≠ .start ∧ P.mInterrupted = true)
    (fun P => P.mainThread.toTest) (fun P event hP => ⟨next_ne_start event hP.1, next_mInterrupted event hP.2⟩)
    (fun P hP => hP.1) (fun P => MainThread.toTest_eq_zero) (fun _ => rfl) (fun _ _ => rfl) ?_
    ⟨hstarted, h⟩ events
  intro P hP hloop readings
  cases hpc : P.mainThread <;> rw [hpc] at hloop
  case loop =>
    simp only [Process.step, hpc]
    split <;> decide
  case testInterrupted => simp [Process.step, hpc, hP.2, MainThread.toTest]
  case checkFutures =>
    simp only [Process.step, hpc]
    split <;> simp only [MainThread.toTest] <;> decide
  case printSummary | wait => simp [Process.step, hpc, MainThread.toTest]
  all_goals cases hloop

theorem steps_threw {P : Process} (hstarted : P.mainThread ≠ .start) {w : Worker} {e : Exception}
    (h : P.broker.worker w = .threw e) (events : List ProcessEvent) :
    process.steps InLoop P events ≤ P.mainThread.toCheck := by
  refine steps_inLoop_le (fun P => P.mainThread ≠ .start ∧ P.broker.worker w = .threw e)
    (fun P => P.mainThread.toCheck) ?_ (fun P hP => hP.1) (fun P => MainThread.toCheck_eq_zero) (fun _ => rfl) (fun _ _ => rfl) ?_
    ⟨hstarted, h⟩ events
  · intro P event hP
    have hended : (P.broker.worker w).hasEnded = true := by
      rw [hP.2]
      rfl
    exact ⟨next_ne_start event hP.1, (next_hasEnded event hP.1 hended).trans hP.2⟩
  intro P hP hloop readings
  cases hpc : P.mainThread <;> rw [hpc] at hloop
  case loop =>
    simp only [Process.step, hpc]
    split <;> decide
  case testInterrupted =>
    simp only [Process.step, hpc]
    split <;> simp [MainThread.toCheck]
  case checkFutures =>
    have hfails : (P.broker.checkFuturesOkay readings.meanwhile).2 = false := by
      by_contra hokay
      exact (Lifecycle.checkFuturesOkay_okay (by simpa using hokay) w).2 e hP.2
    simp [Process.step, hpc, hfails, MainThread.toCheck]
  case printSummary | wait => simp [Process.step, hpc, MainThread.toCheck]
  all_goals cases hloop

/-- How many steps of the loop are left when a worker that has returned is found not to be there
any more: its future is released by the check before. -/
def Process.toSecondCheck (P : Process) (w : Worker) : ℕ :=
  if P.mainThread.isLooping = true then
    P.mainThread.toCheck + if P.broker.futureValid w = true then 5 else 0
  else 0

theorem toSecondCheck_le (P : Process) (w : Worker) : P.toSecondCheck w ≤ 10 := by
  have hcheck := P.mainThread.toCheck_le
  unfold Process.toSecondCheck
  repeat' split
  all_goals omega

theorem toSecondCheck_pos {P : Process} (hloop : P.mainThread.isLooping = true) (w : Worker) :
    0 < P.toSecondCheck w := by
  have hcheck : 0 < P.mainThread.toCheck := by
    cases hpc : P.mainThread <;> rw [hpc] at hloop <;>
      first | exact Nat.succ_pos _ | cases hloop
  rw [Process.toSecondCheck, if_pos hloop]
  exact Nat.add_pos_left hcheck _

theorem toSecondCheck_eq_zero {P : Process} (hleft : P.mainThread.isLooping = false) (w : Worker) :
    P.toSecondCheck w = 0 :=
  if_neg (by rw [hleft]; decide)

theorem steps_returned {P : Process} (hstarted : P.mainThread ≠ .start) {w : Worker}
    (h : P.broker.worker w = .returned) (events : List ProcessEvent) :
    process.steps InLoop P events ≤ P.toSecondCheck w := by
  refine steps_inLoop_le (fun P => P.mainThread ≠ .start ∧ P.broker.worker w = .returned)
    (fun P => P.toSecondCheck w) ?_ (fun P hP => hP.1)
    (fun P hleft => toSecondCheck_eq_zero hleft w) (fun _ => rfl) ?_ ?_ ⟨hstarted, h⟩ events
  · intro P event hP
    have hended : (P.broker.worker w).hasEnded = true := by
      rw [hP.2]
      rfl
    exact ⟨next_ne_start event hP.1, (next_hasEnded event hP.1 hended).trans hP.2⟩
  · intro P termination
    simp only [Process.toSecondCheck, Lifecycle.terminate_futureValid]
  intro P hP hloop readings
  have hpos := toSecondCheck_pos hloop w
  by_cases hnext : (P.step readings).1.mainThread.isLooping = true
  · cases hpc : P.mainThread <;> rw [hpc] at hloop
    case checkFutures =>
      have hokay : (P.broker.checkFuturesOkay readings.meanwhile).2 = true := by
        by_contra hfails
        simp [Process.step, hpc, hfails, MainThread.isLooping] at hnext
      have hbefore := (Lifecycle.checkFuturesOkay_okay hokay w).1
      have hended : (P.broker.worker w).hasEnded = true := by
        rw [hP.2]
        rfl
      have hafter : (P.broker.checkFuturesOkay readings.meanwhile).1.futureValid w = false :=
        P.broker.inspectAll_releases readings.meanwhile (Lifecycle.mem_inspected w) hended
      simp [Process.step, Process.toSecondCheck, hpc, hokay, hbefore, hafter, MainThread.toCheck,
        MainThread.isLooping]
    case loop | testInterrupted =>
      simp only [Process.step, hpc] at hnext ⊢
      split at hnext
      · cases hnext
      · simp [Process.toSecondCheck, *, MainThread.toCheck, MainThread.isLooping]
    case printSummary | wait =>
      simp [Process.step, Process.toSecondCheck, hpc, MainThread.toCheck, MainThread.isLooping]
    all_goals cases hloop
  · rwa [toSecondCheck_eq_zero (Bool.eq_false_iff.mpr hnext)]

end Leaving

/-- Up to the loop nothing has happened yet, in the loop only workers that have ended are not
waited for any more, and the loop is not left without a reason. -/
structure Attended (P : Process) : Prop where
  starting : P.mainThread = .start →
    P.mInterrupted = false ∧ P.mStopRequested = false ∧ P.broker = {}
  looping : P.mainThread.isLooping = true → P.mStopRequested = false ∧
    ∀ w, P.broker.futureValid w = false → (P.broker.worker w).hasEnded = true
  left : P.mainThread.hasLeftLoop = true →
    P.mInterrupted = true ∨ ∃ w, (P.broker.worker w).hasEnded = true

namespace Attended

variable {P : Process}

theorem of_left (hpc : P.mainThread.hasLeftLoop = true)
    (h : P.mInterrupted = true ∨ ∃ w, (P.broker.worker w).hasEnded = true) : Attended P := by
  refine ⟨?_, ?_, fun _ => h⟩
  · intro hstart
    rw [hstart] at hpc
    cases hpc
  · intro hloop
    rw [MainThread.isLooping_eq_false hpc] at hloop
    cases hloop

theorem of_looping (hpc : P.mainThread.isLooping = true) (hstop : P.mStopRequested = false)
    (h : ∀ w, P.broker.futureValid w = false → (P.broker.worker w).hasEnded = true) :
    Attended P := by
  refine ⟨?_, fun _ => ⟨hstop, h⟩, ?_⟩
  · intro hstart
    rw [hstart] at hpc
    cases hpc
  · intro hleft
    rw [MainThread.isLooping_eq_false hleft] at hpc
    cases hpc

theorem of_killed (hpc : P.mainThread = .killed) : Attended P := by
  constructor <;> (intro h; rw [hpc] at h; cases h)

/-- The reason for which the loop was left remains. -/
theorem reason_next (event : ProcessEvent) (hstarted : P.mainThread ≠ .start)
    (h : P.mInterrupted = true ∨ ∃ w, (P.broker.worker w).hasEnded = true) :
    (process.next P event).mInterrupted = true ∨
      ∃ w, ((process.next P event).broker.worker w).hasEnded = true := by
  rcases h with hinterrupted | ⟨w, hended⟩
  · exact Or.inl (next_mInterrupted event hinterrupted)
  · refine Or.inr ⟨w, ?_⟩
    rwa [next_hasEnded event hstarted hended]

/-- A check fails only for a worker that has ended, and releases no other future. -/
theorem checkFutures (h : Attended P) (hpc : P.mainThread = .checkFutures)
    (readings : MainReadings) : Attended (P.step readings).1 := by
  have hloop : P.mainThread.isLooping = true := by
    rw [hpc]
    rfl
  obtain ⟨hstop, hvalid⟩ := h.looping hloop
  have hworker := P.broker.inspectAll_worker readings.meanwhile Lifecycle.inspected
  have hended : ∀ w, (P.broker.worker w).hasEnded = true →
      ((P.broker.checkFuturesOkay readings.meanwhile).1.worker w).hasEnded = true := by
    intro w hw
    rwa [Lifecycle.checkFuturesOkay, hworker, P.broker.terminations_hasEnded hw]
  have hafter : ∀ w, (P.broker.checkFuturesOkay readings.meanwhile).1.futureValid w = false →
      ((P.broker.checkFuturesOkay readings.meanwhile).1.worker w).hasEnded = true := by
    intro w hw
    rcases P.broker.inspectAll_valid_or_hasEnded readings.meanwhile Lifecycle.inspected hw
      with hbefore | hfound
    · exact hended w (hvalid w hbefore)
    · exact hfound
  simp only [Process.step, hpc]
  split
  · exact of_looping rfl hstop hafter
  · rename_i hfails
    obtain ⟨w, -, hfound⟩ := P.broker.inspectAll_not_okay readings.meanwhile
      Lifecycle.inspected_nodup (Bool.eq_false_iff.mpr hfails)
    refine of_left rfl (Or.inr ⟨w, ?_⟩)
    rcases hfound with hbefore | ⟨e, he⟩
    · exact hended w (hvalid w hbefore)
    · exact congrArg WorkerState.hasEnded he

theorem step (h : Attended P) (readings : MainReadings) : Attended (P.step readings).1 := by
  by_cases hleft : P.mainThread.hasLeftLoop = true
  · have hstarted : P.mainThread ≠ .start := by
      intro hstart
      rw [hstart] at hleft
      cases hleft
    exact of_left (P.step_hasLeftLoop readings hleft)
      (reason_next (.mainThread readings) hstarted (h.left hleft))
  cases hpc : P.mainThread <;> rw [hpc] at hleft
  case start =>
    obtain ⟨-, hstop, hbroker⟩ := h.starting hpc
    have hstep : (P.step readings).1 =
        { P with mIsRunning := true, broker := (Lifecycle.start {}).1, mainThread := .loop } := by
      simp only [Process.step, hpc, hbroker]
      rfl
    rw [hstep]
    exact of_looping rfl hstop fun w hw => by cases w <;> cases hw
  case checkFutures => exact h.checkFutures hpc readings
  case killed => exact of_killed (by simp [Process.step, hpc])
  all_goals try exact absurd rfl hleft
  all_goals
    obtain ⟨hstop, hvalid⟩ := h.looping (by rw [hpc]; rfl)
  case loop =>
    have hstep : (P.step readings).1 = { P with mainThread := .testInterrupted } := by
      simp [Process.step, hpc, hstop]
    rw [hstep]
    exact of_looping rfl hstop hvalid
  case testInterrupted =>
    simp only [Process.step, hpc]
    split
    · exact of_left rfl (Or.inl ‹_›)
    · exact of_looping rfl hstop hvalid
  case printSummary =>
    simp only [Process.step, hpc]
    refine of_looping rfl ?_ ?_
    · exact (P.printSummary_mStopRequested readings).trans hstop
    · intro w
      simpa using hvalid w
  case wait =>
    simp only [Process.step, hpc]
    exact of_looping rfl hstop hvalid

theorem signal (h : Attended P) : Attended P.signal := by
  unfold Process.signal
  split
  · exact of_killed rfl
  · exact ⟨fun hstart => absurd hstart ‹_›, h.looping, fun _ => Or.inl rfl⟩

theorem terminates (h : Attended P) (termination : Termination) :
    Attended { P with broker := P.broker.terminate termination } := by
  have hended : ∀ w, (P.broker.worker w).hasEnded = true →
      ((P.broker.terminate termination).worker w).hasEnded = true := by
    intro w hw
    rwa [P.broker.terminate_hasEnded hw]
  constructor
  · intro hstart
    obtain ⟨hinterrupted, hstop, hbroker⟩ := h.starting hstart
    refine ⟨hinterrupted, hstop, ?_⟩
    simp only [hbroker]
    rfl
  · intro hloop
    obtain ⟨hstop, hvalid⟩ := h.looping hloop
    refine ⟨hstop, fun w hw => hended w (hvalid w ?_)⟩
    rwa [P.broker.terminate_futureValid] at hw
  · intro hleft
    rcases h.left hleft with hinterrupted | ⟨w, hw⟩
    · exact Or.inl hinterrupted
    · exact Or.inr ⟨w, hended w hw⟩

theorem next (h : Attended P) (event : ProcessEvent) : Attended (process.next P event) := by
  cases event with
  | mainThread readings => exact h.step readings
  | signal => exact h.signal
  | terminates termination => exact h.terminates termination

theorem new (printSummaryInterval mLastReport : Int64) :
    Attended (.new printSummaryInterval mLastReport) :=
  ⟨fun _ => ⟨rfl, rfl, rfl⟩, nofun, nofun⟩

/-- Whoever has ended was started. -/
theorem ne_start (h : Attended P)
    (hreason : P.mInterrupted = true ∨ ∃ w, (P.broker.worker w).hasEnded = true) :
    P.mainThread ≠ .start := by
  intro hstart
  obtain ⟨hinterrupted, -, hbroker⟩ := h.starting hstart
  rcases hreason with hsome | ⟨w, hw⟩
  · rw [hinterrupted] at hsome
    cases hsome
  · rw [hbroker] at hw
    cases hw

end Attended

/-- In every run, the loop of the main thread is left only after a signal or when a worker has
ended, and it is left soon: within five of its steps after a signal or after a worker has thrown, and
within ten after a worker has returned. -/
theorem main_thread_supervises (printSummaryInterval mLastReport : Int64)
    (before after : List ProcessEvent) :
    let P := process.final (.new printSummaryInterval mLastReport) before
    (P.mainThread.hasLeftLoop = true →
        P.mInterrupted = true ∨ ∃ w, (P.broker.worker w).hasEnded = true) ∧
      (P.mInterrupted = true → process.steps InLoop P after ≤ 5) ∧
      (∀ w e, P.broker.worker w = .threw e → process.steps InLoop P after ≤ 5) ∧
      ∀ w, P.broker.worker w = .returned → process.steps InLoop P after ≤ 10 := by
  intro P
  have hattended : Attended P :=
    process.invariant_of_step (fun _ event hP => hP.next event) before (Attended.new _ _)
  refine ⟨hattended.left, ?_, ?_, ?_⟩
  · intro hinterrupted
    have hstarted := hattended.ne_start (Or.inl hinterrupted)
    exact (steps_interrupted hstarted hinterrupted after).trans P.mainThread.toTest_le
  · intro w e hthrew
    have hstarted := hattended.ne_start (Or.inr ⟨w, congrArg WorkerState.hasEnded hthrew⟩)
    exact (steps_threw hstarted hthrew after).trans P.mainThread.toCheck_le
  · intro w hreturned
    have hstarted := hattended.ne_start (Or.inr ⟨w, congrArg WorkerState.hasEnded hreturned⟩)
    exact (steps_returned hstarted hreturned after).trans (toSecondCheck_le P w)

end PickBroker
