import Mathlib.Data.List.Perm.Subperm
import PickBroker.Process.Supervision

namespace PickBroker

open Framework

def WorkerState.hasThrown : WorkerState → Bool
  | .threw _ => true
  | .notStarted | .running | .returned => false

/-- How many exceptions a code stands for. -/
def ExitCode.thrown : ExitCode → ℕ
  | .EXIT_SUCCESS => 0
  | .EXIT_FAILURE => 1

namespace MainThread

def hasEnded : MainThread → Bool
  | .exited _ | .killed | .aborted => true
  | _ => false

/-- How the process ends when so many exceptions are left for it to get. The first is caught in
`main`, the second comes out of a destructor. -/
def verdict : ℕ → MainThread
  | 0 => .exited .EXIT_SUCCESS
  | 1 => .exited .EXIT_FAILURE
  | _ => .aborted

/-- How many exceptions the main thread has got from the futures. -/
def thrown : MainThread → ℕ
  | .destroyProcess code | .getFuturesAgain code | .destroyBroker code | .getFuturesAtLast code
  | .exited code => code.thrown
  | .aborted => 2
  | _ => 0

def isGetting : MainThread → Bool
  | .getFutures | .getFuturesAgain _ | .getFuturesAtLast _ => true
  | _ => false

/-- Some `stop` has come to its end. -/
def hasGotAll : MainThread → Bool
  | .destroyProcess .EXIT_SUCCESS | .getFuturesAgain .EXIT_SUCCESS | .destroyBroker _
  | .getFuturesAtLast _ | .exited _ => true
  | _ => false

/-- How many steps there are at most to the end, less the futures of the `stop` that is under way. -/
def toEnd : MainThread → ℕ
  | .stop => 18
  | .getFutures => 13
  | .destroyProcess _ => 12
  | .getFuturesAgain _ => 7
  | .destroyBroker _ => 6
  | .getFuturesAtLast _ => 1
  | _ => 0

theorem toEnd_le (pc : MainThread) : pc.toEnd ≤ 18 := by
  cases pc <;> simp [toEnd]

theorem toEnd_le_of_isGetting {pc : MainThread} (h : pc.isGetting = true) : pc.toEnd ≤ 13 := by
  cases pc
  case getFutures | getFuturesAgain | getFuturesAtLast => simp [toEnd]
  all_goals cases h

end MainThread

/-- The workers whose exceptions are left to get when the main thread comes to `stop`, of those that
have thrown in the end. What a check has got before is not thrown again. -/
def uncaught (atStop atEnd : Process) : List Worker :=
  Lifecycle.inspected.filter fun w =>
    atStop.broker.futureValid w && (atEnd.broker.worker w).hasThrown

/-- The workers whose exceptions have been got since `stop` was reached, and what is known of the
futures that have been released since. -/
structure GotFrom (atStop L : Lifecycle) (got : List Worker) : Prop where
  valid : ∀ w, L.futureValid w = true → atStop.futureValid w = true
  ended : ∀ w, atStop.futureValid w = true → L.futureValid w = false →
    (L.worker w).hasEnded = true
  nodup : got.Nodup
  mem_iff : ∀ w, w ∈ got ↔
    atStop.futureValid w = true ∧ L.futureValid w = false ∧ (L.worker w).hasThrown = true

/-- Where the main thread is tells how many exceptions it has got, and whether there can be any
left. -/
structure Fetched (atStop P : Process) (got : List Worker) : Prop where
  left : P.mainThread.hasLeftLoop = true
  gotFrom : GotFrom atStop.broker P.broker got
  length : got.length = P.mainThread.thrown
  owner : P.mainThread.isGetting = true → ∃ left, P.broker.owner = .stopping left ∧
    left.length ≤ 4 ∧ ∀ w, w ∉ left → P.broker.futureValid w = false
  all : P.mainThread.hasGotAll = true → ∀ w, P.broker.futureValid w = false

namespace Lifecycle

variable {L : Lifecycle}

@[simp] theorem release_worker (w : Worker) : (L.release w).worker = L.worker := rfl

theorem release_futureValid_iff (v w : Worker) :
    (L.release v).futureValid w = false ↔ w = v ∨ L.futureValid w = false := by
  by_cases hne : w = v
  · simp [release, hne]
  · simp [release, hne]

/-- What `stop` does about the next future: it comes to its end, waits, goes on, or throws. -/
theorem proceed_cases {left : List Worker} (h : L.owner = .stopping left) :
    (left = [] ∧ L.proceed = ({ L with owner := .idle }, some .returned)) ∨
      ∃ w rest, left = w :: rest ∧
        ((L.futureValid w = true ∧ (L.worker w).hasEnded = false ∧ L.proceed = (L, none)) ∨
          (L.futureValid w = false ∧ L.proceed = ({ L with owner := .stopping rest }, none)) ∨
          (L.futureValid w = true ∧ L.worker w = .returned ∧
            L.proceed = ({ L.release w with owner := .stopping rest }, none)) ∨
          ∃ e, L.futureValid w = true ∧ L.worker w = .threw e ∧
            L.proceed = ({ L.release w with owner := .idle }, some (.threw e))) := by
  cases left with
  | nil => exact Or.inl ⟨rfl, by simp [proceed, h]⟩
  | cons w rest =>
    refine Or.inr ⟨w, rest, rfl, ?_⟩
    cases hvalid : L.futureValid w with
    | false => exact Or.inr (Or.inl ⟨rfl, by simp [proceed, h, hvalid]⟩)
    | true =>
      cases hstate : L.worker w with
      | notStarted | running => exact Or.inl ⟨rfl, rfl, by simp [proceed, h, hvalid, hstate]⟩
      | returned =>
        exact Or.inr (Or.inr (Or.inl ⟨rfl, rfl, by simp [proceed, h, hvalid, hstate]⟩))
      | threw e =>
        exact Or.inr (Or.inr (Or.inr ⟨e, rfl, rfl, by simp [proceed, h, hvalid, hstate]⟩))

end Lifecycle

namespace GotFrom

variable {atStop L L' : Lifecycle} {got : List Worker} {w : Worker}

theorem refl (L : Lifecycle) : GotFrom L L [] := by
  refine ⟨fun _ h => h, ?_, List.nodup_nil, ?_⟩
  · intro w hvalid hreleased
    rw [hvalid] at hreleased
    cases hreleased
  · intro w
    simp only [List.not_mem_nil, false_iff]
    intro h
    rw [h.1] at h
    cases h.2.1

theorem congr (h : GotFrom atStop L got) (hvalid : L'.futureValid = L.futureValid)
    (hworker : ∀ w, (L.worker w).hasEnded = true → L'.worker w = L.worker w) :
    GotFrom atStop L' got := by
  refine ⟨?_, ?_, h.nodup, ?_⟩
  · intro w hw
    exact h.valid w (hvalid ▸ hw)
  · intro w hw hreleased
    have hended := h.ended w hw (hvalid ▸ hreleased)
    rwa [hworker w hended]
  · intro w
    rw [h.mem_iff w, hvalid]
    refine and_congr_right fun hw => and_congr_right fun hreleased => ?_
    rw [hworker w (h.ended w hw hreleased)]

theorem release_valid (h : GotFrom atStop L got) {v : Worker}
    (hv : (L.release w).futureValid v = true) : atStop.futureValid v = true := by
  apply h.valid v
  by_contra hreleased
  have hrelease := (L.release_futureValid_iff w v).mpr (Or.inr (by simpa using hreleased))
  rw [hrelease] at hv
  cases hv

theorem release_ended (h : GotFrom atStop L got) (hstate : (L.worker w).hasEnded = true)
    {v : Worker} (hv : atStop.futureValid v = true) (hreleased : (L.release w).futureValid v = false) :
    (L.worker v).hasEnded = true := by
  rcases (L.release_futureValid_iff w v).mp hreleased with rfl | hbefore
  · exact hstate
  · exact h.ended v hv hbefore

theorem returned (h : GotFrom atStop L got) (hstate : L.worker w = .returned) :
    GotFrom atStop (L.release w) got := by
  have hthrown : (L.worker w).hasThrown = false := congrArg WorkerState.hasThrown hstate
  have hended : (L.worker w).hasEnded = true := congrArg WorkerState.hasEnded hstate
  refine ⟨fun v hv => h.release_valid hv, fun v hv hreleased => h.release_ended hended hv hreleased,
    h.nodup, ?_⟩
  intro v
  rw [h.mem_iff v, L.release_futureValid_iff, Lifecycle.release_worker]
  constructor
  · intro hv
    exact ⟨hv.1, Or.inr hv.2.1, hv.2.2⟩
  · intro hv
    refine ⟨hv.1, ?_, hv.2.2⟩
    rcases hv.2.1 with rfl | hbefore
    · rw [hthrown] at hv
      cases hv.2.2
    · exact hbefore

theorem threw (h : GotFrom atStop L got) (hvalid : L.futureValid w = true) {e : Exception}
    (hstate : L.worker w = .threw e) : GotFrom atStop (L.release w) (w :: got) := by
  have hthrown : (L.worker w).hasThrown = true := congrArg WorkerState.hasThrown hstate
  have hended : (L.worker w).hasEnded = true := congrArg WorkerState.hasEnded hstate
  refine ⟨fun v hv => h.release_valid hv, fun v hv hreleased => h.release_ended hended hv hreleased,
    ?_, ?_⟩
  · refine List.nodup_cons.mpr ⟨?_, h.nodup⟩
    intro hmem
    rw [((h.mem_iff w).mp hmem).2.1] at hvalid
    cases hvalid
  · intro v
    rw [List.mem_cons, h.mem_iff v, L.release_futureValid_iff, Lifecycle.release_worker]
    constructor
    · intro hv
      rcases hv with rfl | hv
      · exact ⟨h.valid v hvalid, Or.inl rfl, hthrown⟩
      · exact ⟨hv.1, Or.inr hv.2.1, hv.2.2⟩
    · intro hv
      rcases hv.2.1 with hsame | hbefore
      · exact Or.inl hsame
      · exact Or.inr ⟨hv.1, hbefore, hv.2.2⟩

/-- When all futures have been released, all exceptions that were left have been got. -/
theorem length_eq (h : GotFrom atStop L got) (hall : ∀ w, L.futureValid w = false) :
    (Lifecycle.inspected.filter fun w =>
      atStop.futureValid w && (L.worker w).hasThrown).length = got.length := by
  apply List.Perm.length_eq
  rw [List.perm_ext_iff_of_nodup (Lifecycle.inspected_nodup.filter _) h.nodup]
  intro w
  rw [List.mem_filter, h.mem_iff w, Bool.and_eq_true]
  constructor
  · intro hw
    exact ⟨hw.2.1, hall w, hw.2.2⟩
  · intro hw
    exact ⟨Lifecycle.mem_inspected w, hw.1, hw.2.2⟩

theorem length_le (h : GotFrom atStop L got) :
    got.length ≤ (Lifecycle.inspected.filter fun w =>
      atStop.futureValid w && (L.worker w).hasThrown).length := by
  apply List.Subperm.length_le
  apply List.subperm_of_subset h.nodup
  intro w hw
  obtain ⟨hvalid, -, hthrown⟩ := (h.mem_iff w).mp hw
  exact List.mem_filter.mpr ⟨Lifecycle.mem_inspected w, by rw [hvalid, hthrown]; rfl⟩

end GotFrom

/-- Where the main thread goes from the futures when they are all there, and when one throws. -/
structure Branches (pc returned threw : MainThread) : Prop where
  left : returned.hasLeftLoop = true ∧ threw.hasLeftLoop = true
  returned : returned.isGetting = false ∧ returned.thrown = pc.thrown
  threw : threw.isGetting = false ∧ threw.hasGotAll = false ∧
    (pc.hasGotAll = false → threw.thrown = pc.thrown + 1)

namespace Branches

theorem getFutures :
    Branches .getFutures (.destroyProcess .EXIT_SUCCESS) (.destroyProcess .EXIT_FAILURE) :=
  ⟨⟨rfl, rfl⟩, ⟨rfl, rfl⟩, rfl, rfl, fun _ => rfl⟩

/-- After a `stop` that has come to its end there is nothing left to throw. -/
theorem getFuturesAgain (code : ExitCode) :
    Branches (.getFuturesAgain code) (.destroyBroker code) .aborted := by
  refine ⟨⟨rfl, rfl⟩, ⟨rfl, rfl⟩, rfl, rfl, fun hsome => ?_⟩
  cases code with
  | EXIT_SUCCESS => cases hsome
  | EXIT_FAILURE => rfl

theorem getFuturesAtLast (code : ExitCode) :
    Branches (.getFuturesAtLast code) (.exited code) .aborted :=
  ⟨⟨rfl, rfl⟩, ⟨rfl, rfl⟩, rfl, rfl, fun hsome => nomatch hsome⟩

end Branches

namespace Fetched

variable {atStop P : Process} {got : List Worker}

theorem getFuture (h : Fetched atStop P got) (hgetting : P.mainThread.isGetting = true)
    {returned threw : MainThread} (hbranches : Branches P.mainThread returned threw) :
    ∃ got, Fetched atStop (P.getFuture returned threw) got := by
  obtain ⟨left, howner, hlength, hleft⟩ := h.owner hgetting
  rcases P.broker.proceed_cases howner with ⟨rfl, hproceed⟩ | ⟨w, rest, rfl, hcases⟩
  · refine ⟨got, ?_⟩
    simp only [Process.getFuture, hproceed]
    refine ⟨hbranches.left.1, h.gotFrom.congr rfl fun _ _ => rfl, ?_, ?_, ?_⟩
    · rw [hbranches.returned.2]
      exact h.length
    · intro habsurd
      rw [hbranches.returned.1] at habsurd
      cases habsurd
    · exact fun _ w => hleft w (List.not_mem_nil)
  have hrest : rest.length ≤ 4 := (Nat.le_succ _).trans hlength
  rcases hcases with ⟨-, -, hproceed⟩ | ⟨hinvalid, hproceed⟩ | ⟨-, hstate, hproceed⟩ |
    ⟨e, hvalid, hstate, hproceed⟩
  · refine ⟨got, ?_⟩
    simp only [Process.getFuture, hproceed]
    exact ⟨h.left, h.gotFrom, h.length, fun _ => ⟨_, howner, hlength, hleft⟩, h.all⟩
  · refine ⟨got, ?_⟩
    simp only [Process.getFuture, hproceed]
    refine ⟨h.left, h.gotFrom.congr rfl fun _ _ => rfl, h.length, ?_, h.all⟩
    refine fun _ => ⟨rest, rfl, hrest, ?_⟩
    intro v hv
    by_cases hne : v = w
    · exact hne ▸ hinvalid
    · exact hleft v (by simp [hne, hv])
  · refine ⟨got, ?_⟩
    simp only [Process.getFuture, hproceed]
    refine ⟨h.left, (h.gotFrom.returned hstate).congr rfl fun _ _ => rfl, h.length, ?_, ?_⟩
    · refine fun _ => ⟨rest, rfl, hrest, ?_⟩
      intro v hv
      apply (P.broker.release_futureValid_iff w v).mpr
      by_cases hne : v = w
      · exact Or.inl hne
      · exact Or.inr (hleft v (by simp [hne, hv]))
    · exact fun hall v => (P.broker.release_futureValid_iff w v).mpr (Or.inr (h.all hall v))
  · refine ⟨w :: got, ?_⟩
    have hsome : P.mainThread.hasGotAll = false := by
      by_contra hall
      rw [h.all (by simpa using hall) w] at hvalid
      cases hvalid
    simp only [Process.getFuture, hproceed]
    refine ⟨hbranches.left.2, (h.gotFrom.threw hvalid hstate).congr rfl fun _ _ => rfl, ?_, ?_, ?_⟩
    · rw [hbranches.threw.2.2 hsome, List.length_cons, h.length]
    · intro habsurd
      rw [hbranches.threw.1] at habsurd
      cases habsurd
    · intro habsurd
      rw [hbranches.threw.2.1] at habsurd
      cases habsurd

/-- `stop` sets out to get all futures. -/
theorem stop (h : Fetched atStop P got) {pc : MainThread} (hleft : pc.hasLeftLoop = true)
    (hthrown : pc.thrown = P.mainThread.thrown) (hall : pc.hasGotAll = P.mainThread.hasGotAll)
    (P' : Process) (hbroker : P'.broker = P.broker.stop) (hpc : P'.mainThread = pc) :
    Fetched atStop P' got := by
  refine ⟨hpc ▸ hleft, ?_, ?_, ?_, ?_⟩
  · rw [hbroker]
    exact h.gotFrom.congr rfl fun _ _ => rfl
  · rw [hpc, hthrown]
    exact h.length
  · refine fun _ => ⟨_, congrArg Lifecycle.owner hbroker, le_rfl, ?_⟩
    intro w hw
    cases w <;> exact absurd (by decide) hw
  · rw [hpc, hall, hbroker]
    exact h.all

theorem step (h : Fetched atStop P got) (readings : MainReadings) :
    ∃ got, Fetched atStop (P.step readings).1 got := by
  have hleft := h.left
  cases hpc : P.mainThread
  case start | loop | testInterrupted | checkFutures | printSummary | wait | killed =>
    rw [hpc] at hleft
    cases hleft
  case stop =>
    simp only [Process.step, hpc]
    exact ⟨got, h.stop rfl (hpc ▸ rfl) (hpc ▸ rfl) _ rfl rfl⟩
  case getFutures =>
    simp only [Process.step, hpc]
    exact h.getFuture (hpc ▸ rfl) (hpc ▸ Branches.getFutures)
  case destroyProcess code =>
    simp only [Process.step, hpc]
    exact ⟨got, h.stop rfl (hpc ▸ rfl) (by rw [hpc]; cases code <;> rfl) _ rfl rfl⟩
  case getFuturesAgain code =>
    simp only [Process.step, hpc]
    exact h.getFuture (hpc ▸ rfl) (hpc ▸ Branches.getFuturesAgain code)
  case destroyBroker code =>
    simp only [Process.step, hpc]
    exact ⟨got, h.stop rfl (hpc ▸ rfl) (hpc ▸ rfl) _ rfl rfl⟩
  case getFuturesAtLast code =>
    simp only [Process.step, hpc]
    exact h.getFuture (hpc ▸ rfl) (hpc ▸ Branches.getFuturesAtLast code)
  case exited code =>
    simp only [Process.step, hpc]
    exact ⟨got, h⟩
  case aborted =>
    simp only [Process.step, hpc]
    exact ⟨got, h⟩

theorem next (h : Fetched atStop P got) (event : ProcessEvent) :
    ∃ got, Fetched atStop (process.next P event) got := by
  cases event with
  | mainThread readings => exact h.step readings
  | signal =>
    have hsame : process.next P .signal = { P with mInterrupted := true } := by
      have hstarted : P.mainThread ≠ .start := by
        intro hstart
        have hleft := h.left
        rw [hstart] at hleft
        cases hleft
      exact P.signal_of_ne_start hstarted
    rw [hsame]
    exact ⟨got, h.left, h.gotFrom, h.length, h.owner, h.all⟩
  | terminates termination =>
    refine ⟨got, h.left, ?_, h.length, ?_, ?_⟩
    · exact h.gotFrom.congr (P.broker.terminate_futureValid termination)
        fun w hw => P.broker.terminate_hasEnded hw termination
    · intro hgetting
      obtain ⟨left, howner, hlength, hleft⟩ := h.owner hgetting
      refine ⟨left, (P.broker.terminate_owner termination).trans howner, hlength, fun w hw => ?_⟩
      exact (congrFun (P.broker.terminate_futureValid termination) w).trans (hleft w hw)
    · intro hall w
      exact (congrFun (P.broker.terminate_futureValid termination) w).trans (h.all hall w)

theorem of_stop (hstop : P.mainThread = .stop) : Fetched P P [] := by
  refine ⟨?_, GotFrom.refl _, ?_, ?_, ?_⟩ <;> rw [hstop]
  · rfl
  · rfl
  · exact nofun
  · exact nofun

theorem final (hstop : P.mainThread = .stop) (events : List ProcessEvent) :
    ∃ got, Fetched P (process.final P events) got := by
  have hkeep : ∀ P' event, (∃ got, Fetched P P' got) →
      ∃ got, Fetched P (process.next P' event) got := by
    intro P' event hP'
    obtain ⟨got, h⟩ := hP'
    exact h.next event
  exact process.invariant_of_step hkeep events ⟨[], of_stop hstop⟩

theorem mainThread_eq (h : Fetched atStop P got) (hended : P.mainThread.hasEnded = true) :
    P.mainThread = .verdict (uncaught atStop P).length := by
  have hleft := h.left
  have hlength := h.length
  cases hpc : P.mainThread <;> rw [hpc] at hended hleft hlength
  case exited code =>
    have hall := h.all (by rw [hpc]; rfl)
    rw [uncaught, h.gotFrom.length_eq hall, hlength]
    cases code <;> rfl
  case aborted =>
    have hmany : got.length ≤ (uncaught atStop P).length := h.gotFrom.length_le
    rw [hlength] at hmany
    obtain ⟨n, hn⟩ := Nat.exists_eq_add_of_le hmany
    rw [hn, Nat.add_comm]
    rfl
  case killed => cases hleft
  all_goals cases hended

end Fetched

/-- The steps that the main thread takes until the process has ended. -/
def BeforeEnd (P : Process) : ProcessEvent → Prop
  | .mainThread _ => P.mainThread.hasEnded = false
  | .signal | .terminates _ => False

instance (P : Process) : (event : ProcessEvent) → Decidable (BeforeEnd P event)
  | .mainThread _ => inferInstanceAs (Decidable (_ = false))
  | .signal | .terminates _ => .isFalse id

/-- How many futures the `stop` that is under way has left to get. -/
def Owner.futuresLeft : Owner → ℕ
  | .idle => 0
  | .stopping left => left.length

def Process.toEnd (P : Process) : ℕ :=
  P.mainThread.toEnd + if P.mainThread.isGetting = true then P.broker.owner.futuresLeft else 0

theorem Process.step_of_hasEnded (P : Process) (readings : MainReadings)
    (h : P.mainThread.hasEnded = true) : (P.step readings).1 = P := by
  cases hpc : P.mainThread <;> rw [hpc] at h
  case exited | killed | aborted => simp only [step, hpc]
  all_goals cases h

/-- Whoever is waited for has ended, and there are no more futures to get than there are workers. -/
structure Ready (P : Process) : Prop where
  left : P.mainThread.hasLeftLoop = true
  ended : ∀ w, P.broker.futureValid w = true → (P.broker.worker w).hasEnded = true
  owner : P.mainThread.isGetting = true → ∃ left, P.broker.owner = .stopping left ∧ left.length ≤ 4

namespace Ready

variable {P : Process}

theorem toEnd_le (h : Ready P) : P.toEnd ≤ 18 := by
  unfold Process.toEnd
  split
  · rename_i hgetting
    obtain ⟨left, howner, hlength⟩ := h.owner hgetting
    have hpc := MainThread.toEnd_le_of_isGetting hgetting
    rw [howner, Owner.futuresLeft]
    omega
  · exact P.mainThread.toEnd_le

/-- A future that is got is one less, and none is waited for. -/
theorem getFuture (h : Ready P) (hgetting : P.mainThread.isGetting = true)
    {returned threw : MainThread} (hbranches : Branches P.mainThread returned threw)
    (hreturned : returned.toEnd < P.mainThread.toEnd) (hthrew : threw.toEnd < P.mainThread.toEnd) :
    Ready (P.getFuture returned threw) ∧ (P.getFuture returned threw).toEnd < P.toEnd := by
  obtain ⟨left, howner, hlength⟩ := h.owner hgetting
  have hrelease : ∀ v w, (P.broker.release v).futureValid w = true →
      (P.broker.worker w).hasEnded = true := by
    intro v w hvalid
    apply h.ended w
    by_contra hreleased
    have hafter := (P.broker.release_futureValid_iff v w).mpr (Or.inr (by simpa using hreleased))
    rw [hafter] at hvalid
    cases hvalid
  rcases P.broker.proceed_cases howner with ⟨rfl, hproceed⟩ | ⟨w, rest, rfl, hcases⟩
  · simp only [Process.getFuture, hproceed, Process.toEnd, hbranches.returned.1, hgetting]
    refine ⟨⟨hbranches.left.1, h.ended, ?_⟩, ?_⟩
    · intro habsurd
      rw [hbranches.returned.1] at habsurd
      cases habsurd
    · simp only [Bool.false_eq_true, if_false, if_true]
      omega
  rw [List.length_cons] at hlength
  rcases hcases with ⟨hvalid, hrunning, -⟩ | ⟨-, hproceed⟩ | ⟨-, hstate, hproceed⟩ |
    ⟨e, -, hstate, hproceed⟩
  · rw [h.ended w hvalid] at hrunning
    cases hrunning
  · simp only [Process.getFuture, hproceed, Process.toEnd, howner, hgetting, Owner.futuresLeft]
    refine ⟨⟨h.left, h.ended, fun _ => ⟨rest, rfl, by omega⟩⟩, ?_⟩
    simp
  · simp only [Process.getFuture, hproceed, Process.toEnd, howner, hgetting, Owner.futuresLeft]
    refine ⟨⟨h.left, hrelease w, fun _ => ⟨rest, rfl, by omega⟩⟩, ?_⟩
    simp
  · simp only [Process.getFuture, hproceed, Process.toEnd, hbranches.threw.1, hgetting]
    refine ⟨⟨hbranches.left.2, hrelease w, ?_⟩, ?_⟩
    · intro habsurd
      rw [hbranches.threw.1] at habsurd
      cases habsurd
    · simp only [Bool.false_eq_true, if_false, if_true]
      omega

theorem step (h : Ready P) (readings : MainReadings) :
    Ready (P.step readings).1 ∧
      (P.mainThread.hasEnded = false → (P.step readings).1.toEnd < P.toEnd) := by
  have hleft := h.left
  cases hpc : P.mainThread
  case start | loop | testInterrupted | checkFutures | printSummary | wait | killed =>
    rw [hpc] at hleft
    cases hleft
  case stop | destroyProcess | destroyBroker =>
    simp only [Process.step, hpc]
    refine ⟨⟨rfl, h.ended, fun _ => ⟨_, rfl, le_rfl⟩⟩, fun _ => ?_⟩
    simp [Process.toEnd, hpc, MainThread.toEnd, MainThread.isGetting, Process.stop, Lifecycle.stop,
      Owner.futuresLeft]
  case getFutures =>
    simp only [Process.step, hpc]
    have hnext := h.getFuture (hpc ▸ rfl) (hpc ▸ Branches.getFutures)
      (by simp [hpc, MainThread.toEnd]) (by simp [hpc, MainThread.toEnd])
    exact ⟨hnext.1, fun _ => hnext.2⟩
  case getFuturesAgain code =>
    simp only [Process.step, hpc]
    have hnext := h.getFuture (hpc ▸ rfl) (hpc ▸ Branches.getFuturesAgain code)
      (by simp [hpc, MainThread.toEnd]) (by simp [hpc, MainThread.toEnd])
    exact ⟨hnext.1, fun _ => hnext.2⟩
  case getFuturesAtLast code =>
    simp only [Process.step, hpc]
    have hnext := h.getFuture (hpc ▸ rfl) (hpc ▸ Branches.getFuturesAtLast code)
      (by simp [hpc, MainThread.toEnd]) (by simp [hpc, MainThread.toEnd])
    exact ⟨hnext.1, fun _ => hnext.2⟩
  case exited | aborted =>
    simp only [Process.step, hpc]
    refine ⟨h, fun habsurd => ?_⟩
    cases habsurd

theorem signal (h : Ready P) : Ready P.signal ∧ P.signal.toEnd = P.toEnd := by
  have hstarted : P.mainThread ≠ .start := by
    intro hstart
    have hleft := h.left
    rw [hstart] at hleft
    cases hleft
  rw [P.signal_of_ne_start hstarted]
  exact ⟨⟨h.left, h.ended, h.owner⟩, rfl⟩

theorem terminates (h : Ready P) (termination : Termination) :
    Ready { P with broker := P.broker.terminate termination } ∧
      ({ P with broker := P.broker.terminate termination } : Process).toEnd = P.toEnd := by
  refine ⟨⟨h.left, ?_, ?_⟩, ?_⟩
  · intro w hvalid
    rw [P.broker.terminate_futureValid] at hvalid
    have hended := h.ended w hvalid
    rwa [P.broker.terminate_hasEnded hended]
  · intro hgetting
    rw [P.broker.terminate_owner]
    exact h.owner hgetting
  · simp only [Process.toEnd, P.broker.terminate_owner]

theorem next (h : Ready P) (event : ProcessEvent) : Ready (process.next P event) := by
  cases event with
  | mainThread readings => exact (h.step readings).1
  | signal => exact h.signal.1
  | terminates termination => exact (h.terminates termination).1

theorem steps_le (h : Ready P) (events : List ProcessEvent) :
    process.steps BeforeEnd P events ≤ 18 := by
  refine (process.steps_le_potential BeforeEnd Process.toEnd (fun P event hP => hP.next event) ?_ h
    events).trans h.toEnd_le
  intro P event hP
  cases event with
  | mainThread readings =>
    by_cases hended : P.mainThread.hasEnded = true
    · have hin : ¬ BeforeEnd P (.mainThread readings) := by
        simp [BeforeEnd, hended]
      have hsame : process.next P (.mainThread readings) = P := P.step_of_hasEnded readings hended
      rw [if_neg hin, Nat.zero_add, hsame]
    · have hin : BeforeEnd P (.mainThread readings) := Bool.eq_false_iff.mpr hended
      have hstep := (hP.step readings).2 hin
      rw [if_pos hin]
      simp only [Machine.next, process]
      omega
  | signal =>
    have hin : ¬ BeforeEnd P .signal := id
    rw [if_neg hin, Nat.zero_add]
    exact hP.signal.2.le
  | terminates termination =>
    have hin : ¬ BeforeEnd P (.terminates termination) := id
    rw [if_neg hin, Nat.zero_add]
    exact (hP.terminates termination).2.le

end Ready

/-- Where the process comes to `stop`, its end tells exactly how many exceptions were left: it
succeeds with none, fails with one, and is aborted with more. And it does end: once all workers that
are waited for have ended, the main thread is through in eighteen steps. -/
theorem exit_status {P : Process} (hstop : P.mainThread = .stop)
    (before after : List ProcessEvent) :
    let P₁ := process.final P before
    let P₂ := process.final P₁ after
    (P₂.mainThread.hasEnded = true → P₂.mainThread = .verdict (uncaught P P₂).length) ∧
      ((∀ w, P₁.broker.futureValid w = true → (P₁.broker.worker w).hasEnded = true) →
        process.steps BeforeEnd P₁ after ≤ 18) := by
  intro P₁ P₂
  constructor
  · intro hended
    obtain ⟨got, hgot⟩ := Fetched.final hstop (before ++ after)
    rw [process.final_append] at hgot
    exact hgot.mainThread_eq hended
  · intro hall
    obtain ⟨got, hgot⟩ := Fetched.final hstop before
    have hready : Ready P₁ := by
      refine ⟨hgot.left, hall, fun hgetting => ?_⟩
      obtain ⟨left, howner, hlength, -⟩ := hgot.owner hgetting
      exact ⟨left, howner, hlength⟩
    exact hready.steps_le after

/-- A process that was interrupted and has come to `stop`. -/
def interruptedProcess : Process :=
  process.final (.new 0 0) [.mainThread {}, .signal, .mainThread {}, .mainThread {}]

def workersEnd : List ProcessEvent :=
  [.terminates { worker := .publishService }, .terminates { worker := .subscribeService },
    .terminates { worker := .pickProcessor },
    .terminates { worker := .databaseCleaner, thrown := some (.runtime_error "") }]

theorem exit_status_oneThrew :
    let P₁ := process.final interruptedProcess workersEnd
    let P₂ := process.final P₁ (List.replicate 18 (.mainThread {}))
    (P₂.mainThread.hasEnded = true →
        P₂.mainThread = .verdict (uncaught interruptedProcess P₂).length) ∧
      ((∀ w, P₁.broker.futureValid w = true → (P₁.broker.worker w).hasEnded = true) →
        process.steps BeforeEnd P₁ (List.replicate 18 (.mainThread {})) ≤ 18) :=
  exit_status rfl workersEnd (List.replicate 18 (.mainThread {}))

example : (process.final interruptedProcess
    (workersEnd ++ List.replicate 18 (.mainThread {}))).mainThread = .exited .EXIT_FAILURE := by
  decide

end PickBroker
