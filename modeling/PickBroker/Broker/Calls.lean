import PickBroker.Broker.Lifecycle

namespace PickBroker

open Framework

/-- What the owner of the broker knows from its calls and from how they ended. -/
structure CallHistory where
  successfulStarts : ℕ := 0
  stopped : Bool := false
  running : Bool := false

def CallHistory.after (H : CallHistory) (call : OwnerCall) (outcome : Option Outcome) :
    CallHistory :=
  match call with
  | .start =>
    if outcome = some .returned then
      { H with successfulStarts := H.successfulStarts + 1, running := true }
    else H
  | .stop => { H with stopped := true, running := false }
  | .isRunning | .checkFuturesOkay _ => H

/-- The lifecycle with the history of its calls. A call that comes while `stop` still gets its
futures is none. -/
def recordedLifecycle : Machine (Lifecycle × CallHistory) LifecycleEvent (Option Outcome) where
  step S event :=
    let (L, outcome) := lifecycle.step S.1 event
    match event, S.1.owner with
    | .call call, .idle => ((L, S.2.after call outcome), outcome)
    | _, _ => ((L, S.2), outcome)

/-- A call does what the interface says: one start succeeds, a start after that or after a stop
throws and changes nothing, and `isRunning` tells whether the broker was started and not stopped. -/
structure CallRight (L : Lifecycle) (H : CallHistory) (call : OwnerCall) : Prop where
  starts_once : (H.after call (L.serve call).2).successfulStarts ≤ 1
  refuses : call = .start → H.stopped = true ∨ 0 < H.successfulStarts →
    ∃ e, L.start = (L, .threw e)
  tells : call = .isRunning → (L.serve call).2 = some (.told H.running)

def CallsRight (S : Lifecycle × CallHistory) (event : LifecycleEvent) : Prop :=
  lifecycle.answer S.1 event ≠ some .nullPointer ∧
    ∀ call, event = .call call → S.1.owner = .idle → CallRight S.1 S.2 call

/-- A start comes before any stop or after a start that has succeeded, and nobody asks a running
broker whether it is running. -/
def CallForeseen (H : CallHistory) : OwnerCall → Prop
  | .start => H.stopped = true → 0 < H.successfulStarts
  | .isRunning => H.running = false
  | .stop | .checkFuturesOkay _ => True

def CallsForeseen (S : Lifecycle × CallHistory) (event : LifecycleEvent) : Prop :=
  ∀ call, event = .call call → S.1.owner = .idle → CallForeseen S.2 call

namespace Lifecycle

/-- The flags and the pointers that decide what a call does. -/
def flags (L : Lifecycle) : Bool × Bool × Bool × Bool × Bool :=
  (L.mInitialized, L.mStarted, L.mIsRunning, L.mPublishService, L.mSubscribeService)

variable (L : Lifecycle)

theorem terminate_flags (termination : Termination) :
    (L.terminate termination).flags = L.flags := by
  unfold terminate
  split <;> rfl

theorem terminations_flags (l : List Termination) : (L.terminations l).flags = L.flags := by
  induction l generalizing L with
  | nil => rfl
  | cons termination l ih => exact (ih _).trans (L.terminate_flags termination)

theorem inspect_flags (w : Worker) : (L.inspect w).1.flags = L.flags := by
  unfold inspect
  split
  · split <;> rfl
  · rfl

theorem inspectAll_flags (meanwhile : Worker → List Termination) (ws : List Worker) :
    (inspectAll meanwhile ws L).1.flags = L.flags := by
  induction ws generalizing L with
  | nil => rfl
  | cons w ws ih => exact (ih _).trans ((inspect_flags _ w).trans (L.terminations_flags _))

/-- `stop` tests every pointer before it uses it. -/
theorem proceed_answer : lifecycle.answer L .proceed ≠ some .nullPointer := by
  simp only [Machine.answer, lifecycle, proceed]
  repeat' split
  all_goals simp

theorem proceed_flags : L.proceed.1.flags = L.flags := by
  unfold proceed
  repeat' split
  all_goals rfl

end Lifecycle

/-- The flags agree with the history; `mIsRunning` is never set. -/
structure FlagsAgree (L : Lifecycle) (H : CallHistory) : Prop where
  flags : L.flags = (true, decide (0 < H.successfulStarts), false, !H.stopped, !H.stopped)
  once : H.successfulStarts ≤ 1
  running : H.running = true → 0 < H.successfulStarts ∧ H.stopped = false

namespace FlagsAgree

variable {L L' : Lifecycle} {H : CallHistory}

/-- What leaves the flags alone leaves the agreement alone. -/
theorem of_flags (h : FlagsAgree L H) (hflags : L'.flags = L.flags) : FlagsAgree L' H :=
  ⟨hflags.trans h.flags, h.once, h.running⟩

/-- The three ways a start can go. -/
theorem start_cases (h : FlagsAgree L H) :
    (0 < H.successfulStarts ∧ L.start = (L, .threw (.runtime_error "Cannot restart broker"))) ∨
      (H.successfulStarts = 0 ∧ H.stopped = true ∧ L.start.2 = .nullPointer ∧
        L.start.1.flags = L.flags) ∨
      (H.successfulStarts = 0 ∧ H.stopped = false ∧ L.start.2 = .returned ∧
        L.start.1.flags = (true, true, false, true, true)) := by
  obtain ⟨hinitialized, hstarted, hrunning, hpublish, hsubscribe⟩ :
      L.mInitialized = true ∧ L.mStarted = decide (0 < H.successfulStarts) ∧
        L.mIsRunning = false ∧ L.mPublishService = !H.stopped ∧
        L.mSubscribeService = !H.stopped := by
    simpa only [Lifecycle.flags, Prod.mk.injEq] using h.flags
  rcases Nat.eq_zero_or_pos H.successfulStarts with hnone | hsome
  · right
    cases hstopped : H.stopped with
    | true =>
      left
      refine ⟨hnone, rfl, ?_⟩
      simp [Lifecycle.start, Lifecycle.flags, hinitialized, hstarted, hnone, hpublish, hstopped]
    | false =>
      right
      refine ⟨hnone, rfl, ?_⟩
      simp [Lifecycle.start, Lifecycle.flags, Lifecycle.launch, hinitialized, hstarted, hnone,
        hpublish, hsubscribe, hstopped, hrunning]
  · left
    refine ⟨hsome, ?_⟩
    simp [Lifecycle.start, hinitialized, hstarted, hsome]

theorem serve (h : FlagsAgree L H) (call : OwnerCall) :
    FlagsAgree (L.serve call).1 (H.after call (L.serve call).2) := by
  cases call with
  | start =>
    rcases h.start_cases with ⟨-, hstart⟩ | ⟨-, -, houtcome, hflags⟩ |
        ⟨hnone, hstopped, houtcome, hflags⟩
    · simpa [Lifecycle.serve, CallHistory.after, hstart] using h
    · simpa [Lifecycle.serve, CallHistory.after, houtcome] using h.of_flags hflags
    · simp only [Lifecycle.serve, CallHistory.after, houtcome, if_true]
      refine ⟨?_, ?_, ?_⟩
      · rw [hflags, hstopped]
        simp
      · simp [hnone]
      · intro _
        exact ⟨Nat.succ_pos _, hstopped⟩
  | stop =>
    have hkept := h.flags
    simp only [Lifecycle.flags, Prod.mk.injEq] at hkept
    obtain ⟨hinitialized, hstarted, -⟩ := hkept
    refine ⟨?_, h.once, ?_⟩
    · show (L.mInitialized, L.mStarted, false, false, false) = _
      rw [hinitialized, hstarted]
      rfl
    · intro hrunning
      cases hrunning
  | isRunning => exact h
  | checkFuturesOkay meanwhile => exact h.of_flags (L.inspectAll_flags meanwhile Lifecycle.inspected)

theorem next {S : Lifecycle × CallHistory} (h : FlagsAgree S.1 S.2) (event : LifecycleEvent) :
    FlagsAgree (recordedLifecycle.next S event).1 (recordedLifecycle.next S event).2 := by
  obtain ⟨L, H⟩ := S
  cases event with
  | call call =>
    cases howner : L.owner with
    | idle =>
      simp only [Machine.next, recordedLifecycle, lifecycle, howner]
      exact h.serve call
    | stopping left =>
      simp only [Machine.next, recordedLifecycle, lifecycle, howner]
      exact h
  | proceed => exact h.of_flags L.proceed_flags
  | terminates termination => exact h.of_flags (L.terminate_flags termination)

end FlagsAgree

/-- In a recorded lifecycle a call is right exactly when it is foreseen. -/
theorem FlagsAgree.callRight_iff {L : Lifecycle} {H : CallHistory} (h : FlagsAgree L H)
    (call : OwnerCall) :
    (L.serve call).2 ≠ some .nullPointer ∧ CallRight L H call ↔ CallForeseen H call := by
  have honce := (h.serve call).once
  cases call with
  | start =>
    rcases h.start_cases with ⟨hsome, hstart⟩ | ⟨hnone, hstopped, houtcome, -⟩ |
        ⟨hnone, hstopped, houtcome, -⟩
    · constructor
      · intro _ _
        exact hsome
      · intro _
        refine ⟨by simp [Lifecycle.serve, hstart], honce, ?_, nofun⟩
        intro _ _
        exact ⟨_, hstart⟩
    · constructor
      · intro hright
        exact absurd (congrArg some houtcome) hright.1
      · intro hforeseen
        have hsome := hforeseen hstopped
        omega
    · constructor
      · intro _ habsurd
        rw [hstopped] at habsurd
        cases habsurd
      · intro _
        refine ⟨by simp [Lifecycle.serve, houtcome], honce, ?_, nofun⟩
        intro _ hcases
        rcases hcases with habsurd | hsome
        · rw [hstopped] at habsurd
          cases habsurd
        · omega
  | stop =>
    constructor
    · intro _
      trivial
    · intro _
      exact ⟨nofun, honce, nofun, nofun⟩
  | isRunning =>
    have hcleared : L.mIsRunning = false := congrArg (fun f => f.2.2.1) h.flags
    have hanswer : (L.serve .isRunning).2 = some (.told false) := by
      simp only [Lifecycle.serve, hcleared]
    constructor
    · intro hright
      have htold := hright.2.tells rfl
      rw [hanswer, Option.some.injEq, Outcome.told.injEq] at htold
      exact htold.symm
    · intro hforeseen
      have hquiet : H.running = false := hforeseen
      refine ⟨by rw [hanswer]; simp, honce, nofun, ?_⟩
      intro _
      rw [hanswer, hquiet]
  | checkFuturesOkay meanwhile =>
    constructor
    · intro _
      trivial
    · intro _
      exact ⟨by simp [Lifecycle.serve], honce, nofun, nofun⟩

theorem FlagsAgree.callsRight_iff {S : Lifecycle × CallHistory} (h : FlagsAgree S.1 S.2)
    (event : LifecycleEvent) : CallsRight S event ↔ CallsForeseen S event := by
  cases event with
  | call call =>
    cases howner : S.1.owner with
    | idle =>
      have hanswer : lifecycle.answer S.1 (.call call) = (S.1.serve call).2 := by
        simp only [Machine.answer, lifecycle, howner]
      have hiff := h.callRight_iff call
      constructor
      · intro hright call' hcall _
        obtain rfl : call = call' := LifecycleEvent.call.inj hcall
        exact hiff.mp ⟨hanswer ▸ hright.1, hright.2 call rfl howner⟩
      · intro hforeseen
        obtain ⟨hpointer, hright⟩ := hiff.mpr (hforeseen call rfl howner)
        refine ⟨hanswer ▸ hpointer, ?_⟩
        intro call' hcall _
        obtain rfl : call = call' := LifecycleEvent.call.inj hcall
        exact hright
    | stopping left =>
      constructor
      · intro _ call' _ hidle
        rw [howner] at hidle
        cases hidle
      · intro _
        refine ⟨by simp [Machine.answer, lifecycle, howner], ?_⟩
        intro call' _ hidle
        rw [howner] at hidle
        cases hidle
  | proceed =>
    constructor
    · intro _ call' hcall
      cases hcall
    · intro _
      refine ⟨S.1.proceed_answer, ?_⟩
      intro call' hcall
      cases hcall
  | terminates termination =>
    constructor
    · intro _ call' hcall
      cases hcall
    · intro _
      refine ⟨by simp [Machine.answer, lifecycle], ?_⟩
      intro call' hcall
      cases hcall

/-- In every lifecycle of a constructed broker the calls are right exactly when they are foreseen:
a start after a stop uses the publish service that the stop has reset when no start came before,
and `isRunning` says of a running broker that it is not. -/
theorem calls_right_iff (events : List LifecycleEvent) :
    recordedLifecycle.Meets CallsRight ({}, {}) events ↔
      recordedLifecycle.Meets CallsForeseen ({}, {}) events := by
  have hagree : FlagsAgree {} {} := ⟨rfl, Nat.zero_le 1, nofun⟩
  have keep (S : Lifecycle × CallHistory) (event : LifecycleEvent) (h : FlagsAgree S.1 S.2) :
      FlagsAgree (recordedLifecycle.next S event).1 (recordedLifecycle.next S event).2 :=
    h.next event
  exact recordedLifecycle.meets_congr keep (fun S event h => h.callsRight_iff event) hagree
    events

/-- The broker says that it is not running right after it was started, and a broker that is
stopped before it is started uses a null pointer when it is started. -/
theorem started_broker_not_running :
    lifecycle.answers {} [.call .start, .call .isRunning] =
        [some .returned, some (.told false)] ∧
      lifecycle.answers {} ([.call .stop] ++ List.replicate 5 .proceed ++ [.call .start]) =
        [none, none, none, none, none, some .returned, some .nullPointer] ∧
      ¬ recordedLifecycle.Meets CallsRight ({}, {}) [.call .start, .call .isRunning] ∧
      ¬ recordedLifecycle.Meets CallsRight ({}, {})
        ([.call .stop] ++ List.replicate 5 .proceed ++ [.call .start]) := by
  refine ⟨by decide, by decide, ?_, ?_⟩
  · intro h
    have htold := (h.2.1.2 .isRunning rfl rfl).tells rfl
    revert htold
    decide
  · intro h
    have hpointer := h.2.2.2.2.2.2.1.1
    revert hpointer
    decide

end PickBroker
