import PickBroker.Publish.PublishService
import PickBroker.Framework.Counting
import Mathlib.Data.Int.Notation

namespace PickBroker

open Framework

variable {Pick : Type*}

/-- Until its fetch_add a reader is not registered. -/
def Publisher.Fresh (P : Publisher) : Prop :=
  P.pc = .checkLimit ∨ P.pc = .authenticate ∨ P.pc = .fetchAdd → P.reader.mRegistered = false

/-- At every step the limit holds and the count is that of the registered publishers. -/
structure Placed (S : PublishService) : Prop where
  within : S.registered ≤ S.mOptions.mMaximumPublishers.toInt
  count : S.mPublisherCount = Int32.ofNat S.registered

theorem onReadDone_mRegistered (r : AsynchronousReader) (event : ReadDone Pick) :
    (r.onReadDone event).1.mRegistered = r.mRegistered := by
  cases event with
  | notOk keepRunning => rfl
  | ok message =>
    simp only [AsynchronousReader.onReadDone, AsynchronousReader.handle]
    split <;> rfl

section Step

variable {S S' : PublishService} {P P' : Publisher} {event : ReaderEvent Pick}
  {actions : List (ReaderAction Pick)}

/-- What a step of a reader does to the count: its fetch_add, its fetch_sub, or nothing. -/
inductive CountStep (S S' : PublishService) (P P' : Publisher) (event : ReaderEvent Pick) :
    Prop where
  | same (hadd : event = .proceed → P.pc ≠ .fetchAdd) (registered : P'.registered = P.registered)
      (count : S'.mPublisherCount = S.mPublisherCount)
  | add (hadd : event = .proceed) (pc : P.pc = .fetchAdd) (before : P.registered = false)
      (after : P'.registered = true) (count : S'.mPublisherCount = S.mPublisherCount + 1)
  | sub (hdone : event = .onDone) (before : P.registered = true) (after : P'.registered = false)
      (count : S'.mPublisherCount = S.mPublisherCount - 1)

theorem readerStep_countStep (hfresh : P.Fresh)
    (hstep : S.readerStep P event = (S', P', actions)) :
    S'.mOptions = S.mOptions ∧ S'.controls = S.controls ∧ P'.Fresh ∧ CountStep S S' P P' event := by
  have hmove := readerStep_move S P event
  rw [hstep] at hmove
  cases hmove with
  | refused hpc status =>
    have hnot : P.reader.mRegistered = false := hfresh (hpc.imp_right Or.inl)
    have hadd : P.pc ≠ .fetchAdd := by
      intro hfetch
      rcases hpc with h | h <;> exact absurd (h.symm.trans hfetch) (by decide)
    exact ⟨rfl, rfl, fun _ => hnot,
      .same (fun _ => hadd) (by simp [Publisher.registered, hnot]) rfl⟩
  | withinLimit hpc =>
    have hnot := hfresh (Or.inl hpc)
    exact ⟨rfl, rfl, fun _ => hnot,
      .same (by simp [hpc]) (by simp [Publisher.registered, hnot]) rfl⟩
  | authenticated hpc hpassed =>
    have hnot := hfresh (Or.inr (Or.inl hpc))
    exact ⟨rfl, rfl, fun _ => hnot,
      .same (by simp [hpc]) (by simp [Publisher.registered, hnot]) rfl⟩
  | added hpc =>
    have hnot := hfresh (Or.inr (Or.inr hpc))
    exact ⟨rfl, rfl, by simp [Publisher.Fresh],
      .add rfl hpc (by simp [Publisher.registered, hnot]) (by simp [Publisher.registered]) rfl⟩
  | constructed hpc =>
    refine ⟨rfl, rfl, by simp [Publisher.Fresh], .same (by simp [hpc]) ?_ rfl⟩
    rw [Publisher.registered, Publisher.registered, hpc]
    rfl
  | readDone hpc event =>
    have hsame := onReadDone_mRegistered P.reader event
    refine ⟨rfl, rfl, fun hcases => hsame.trans (hfresh hcases), .same (by simp) ?_ rfl⟩
    rw [Publisher.registered, hsame, Publisher.registered]
  | done hpc =>
    cases hregistered : P.reader.mRegistered with
    | true =>
      rw [PublishService.onDone, hregistered]
      exact ⟨rfl, rfl, by simp [Publisher.Fresh],
        .sub rfl (by simp [Publisher.registered, hregistered, hpc]) (by simp [Publisher.registered])
          rfl⟩
    | false =>
      rw [PublishService.onDone, hregistered]
      exact ⟨rfl, rfl, by simp [Publisher.Fresh],
        .same (by simp) (by simp [Publisher.registered, hregistered]) rfl⟩
  | ignored _ hnot =>
    refine ⟨rfl, rfl, hfresh, .same ?_ rfl rfl⟩
    intro hproceed hfetch
    exact absurd (hnot hproceed) (by rw [hfetch]; decide)

end Step

theorem ofNat_eq_zero {S : PublishService} (h : S.registered ≤ S.mOptions.mMaximumPublishers.toInt)
    (hzero : (0 : Int32) = Int32.ofNat S.registered) : S.registered = 0 := by
  have hmax := S.mOptions.mMaximumPublishers.toInt_lt
  have hlt : S.registered < 2 ^ 31 := by omega
  have hint := congrArg Int32.toInt hzero
  rw [Int32.toInt_ofNat_of_lt hlt] at hint
  simpa using hint.symm

/-- A store of zero is right when there is nothing to count. -/
theorem placed_store_iff {S : PublishService} (h : Placed S) (controls : List ControlPc) :
    Placed { S with mPublisherCount := 0, controls := controls } ↔ S.registered = 0 := by
  constructor
  · intro hnext
    exact ofNat_eq_zero h.within hnext.count
  · intro hnone
    exact ⟨h.within, congrArg Int32.ofNat hnone.symm⟩

theorem placed_control_iff {S : PublishService} (h : Placed S) {i : ℕ} {pc : ControlPc}
    (hi : S.controls[i]? = some pc) :
    Placed (S.control i) ↔ (pc = .startCount ∨ pc = .stopCount → S.registered = 0) := by
  rw [PublishService.control, hi]
  cases pc with
  | startCount | stopCount =>
    exact ⟨fun hnext _ => (placed_store_iff h _).mp hnext,
      fun hnone => (placed_store_iff h _).mpr (hnone (by simp))⟩
  | startKeepRunning | startCredentials | stopKeepRunning | returned =>
    exact ⟨by simp, fun _ => ⟨h.within, h.count⟩⟩

theorem registered_react {S : PublishService} {i : ℕ} {P P' : Publisher} {S' : PublishService}
    {event : ReaderEvent Pick} {actions : List (ReaderAction Pick)}
    (hi : S.publishers[i]? = some P) (hstep : S.readerStep P event = (S', P', actions)) :
    (S.react i event).1.registered + (if P.registered then 1 else 0) =
      S.registered + if P'.registered then 1 else 0 := by
  rw [PublishService.react, hi]
  dsimp only
  rw [hstep]
  exact countP_set_add hi P'

theorem placed_react_iff {S : PublishService} (h : Placed S) {i : ℕ} {P : Publisher}
    (hi : S.publishers[i]? = some P) (hfresh : P.Fresh) (event : ReaderEvent Pick) :
    Placed (S.react i event).1 ↔
      (event = .proceed → P.pc = .fetchAdd →
        S.registered < S.mOptions.mMaximumPublishers.toInt) := by
  cases hstep : S.readerStep P event with
  | mk S' result =>
    obtain ⟨P', actions⟩ := result
    obtain ⟨hoptions, -, -, hcount⟩ := readerStep_countStep hfresh hstep
    have hregistered := registered_react hi hstep
    have hreact : (S.react i event).1 = { S' with publishers := S.publishers.set i P' } := by
      rw [PublishService.react, hi]
      dsimp only
      rw [hstep]
    have hmax : (S.react i event).1.mOptions = S.mOptions := by rw [hreact, hoptions]
    have hshared : (S.react i event).1.mPublisherCount = S'.mPublisherCount := by rw [hreact]
    have hwithin := h.within
    cases hcount with
    | same hadd registered count =>
      rw [registered] at hregistered
      have hsame : (S.react i event).1.registered = S.registered := by omega
      refine ⟨fun _ he hpc => absurd hpc (hadd he), fun _ => ⟨?_, ?_⟩⟩
      · rw [hsame, hmax]
        exact hwithin
      · rw [hshared, count, hsame]
        exact h.count
    | add hadd pc before after count =>
      rw [before, after] at hregistered
      have hmore : (S.react i event).1.registered = S.registered + 1 := by simpa using hregistered
      constructor
      · intro hnext _ _
        have hnext := hnext.within
        rw [hmore, hmax] at hnext
        omega
      · intro hplace
        have hlt := hplace hadd pc
        refine ⟨?_, ?_⟩
        · rw [hmore, hmax]
          omega
        · rw [hshared, count, hmore, h.count]
          exact (Int32.ofNat_add _ 1).symm
    | sub hdone before after count =>
      rw [before, after] at hregistered
      have hless : (S.react i event).1.registered + 1 = S.registered := by simpa using hregistered
      refine ⟨fun _ he => ?_, fun _ => ⟨?_, ?_⟩⟩
      · rw [hdone] at he
        cases he
      · rw [hmax]
        omega
      · rw [hshared, count, h.count, ← hless, Int32.ofNat_add]
        exact Int32.add_sub_cancel _ _

/-- One step keeps the limit and the count exactly when it keeps the places. -/
theorem placed_next_iff {S : PublishService} (hfresh : ∀ P ∈ S.publishers, P.Fresh)
    (h : Placed S) (event : PublishEvent Pick) :
    Placed (publishService.next S event) ↔ KeepsPlaces S event := by
  cases event with
  | publish client_metadata =>
    refine ⟨fun _ => trivial, fun _ => ?_⟩
    have hsame : (S.publish client_metadata).registered = S.registered := by
      simp [PublishService.registered, PublishService.publish, Publisher.registered]
    refine ⟨?_, ?_⟩
    · change ((S.publish client_metadata).registered : ℤ) ≤ _
      rw [hsame]
      exact h.within
    · change S.mPublisherCount = Int32.ofNat (S.publish client_metadata).registered
      rw [hsame]
      exact h.count
  | start => exact ⟨fun _ => trivial, fun _ => ⟨h.within, h.count⟩⟩
  | stop => exact ⟨fun _ => trivial, fun _ => ⟨h.within, h.count⟩⟩
  | control i =>
    change Placed (S.control i) ↔ _
    cases hi : S.controls[i]? with
    | none =>
      rw [PublishService.control, hi]
      exact ⟨fun _ => by simp [KeepsPlaces, hi], fun _ => h⟩
    | some pc =>
      rw [placed_control_iff h hi]
      simp [KeepsPlaces, hi]
  | reader i event =>
    change Placed (S.react i event).1 ↔ _
    cases hi : S.publishers[i]? with
    | none =>
      rw [PublishService.react, hi]
      refine ⟨fun _ => ?_, fun _ => h⟩
      cases event <;> simp [KeepsPlaces, hi]
    | some P =>
      rw [placed_react_iff h hi (hfresh P (List.mem_of_getElem? hi))]
      cases event <;> simp [KeepsPlaces, hi]

theorem fresh_next {S : PublishService} (hfresh : ∀ P ∈ S.publishers, P.Fresh)
    (event : PublishEvent Pick) : ∀ P ∈ (publishService.next S event).publishers, P.Fresh := by
  cases event with
  | publish client_metadata =>
    intro P hP
    rcases List.mem_append.mp hP with hP | hP
    · exact hfresh P hP
    · rw [List.mem_singleton.mp hP]
      exact fun _ => rfl
  | start => exact hfresh
  | stop => exact hfresh
  | control i =>
    change ∀ P ∈ (S.control i).publishers, P.Fresh
    rw [PublishService.control]
    cases S.controls[i]? with
    | none => exact hfresh
    | some pc => cases pc <;> exact hfresh
  | reader i event =>
    change ∀ P ∈ (S.react i event).1.publishers, P.Fresh
    cases hi : S.publishers[i]? with
    | none =>
      rw [PublishService.react, hi]
      exact hfresh
    | some P =>
      cases hstep : S.readerStep P event with
      | mk S' result =>
        obtain ⟨P', actions⟩ := result
        have hP' := (readerStep_countStep (hfresh P (List.mem_of_getElem? hi)) hstep).2.2.1
        rw [PublishService.react, hi]
        dsimp only
        rw [hstep]
        intro Q hQ
        rcases List.mem_or_eq_of_mem_set hQ with hQ | rfl
        · exact hfresh Q hQ
        · exact hP'

/-- The condition is exact: the limit and the count hold all along a run exactly when no publisher
is counted without a free place and no count is set to zero over a registered publisher. -/
theorem placed_iff_keepsPlaces (options : PublishServiceOptions)
    (events : List (PublishEvent Pick)) :
    (∀ before, before <+: events →
        Placed (publishService.final (PublishService.new options) before)) ↔
      publishService.Meets KeepsPlaces (PublishService.new options) events := by
  have hpos := options.publishers_pos
  have hplaced : Placed (PublishService.new options) := by
    refine ⟨?_, rfl⟩
    have hone := Int32.le_iff_toInt_le.mp hpos
    have hzero : (0 : ℤ) ≤ (1 : Int32).toInt := by decide
    exact Int.le_trans hzero hone
  have keep (S : PublishService) (event : PublishEvent Pick)
      (h : ∀ P ∈ S.publishers, P.Fresh) :
      ∀ P ∈ (publishService.next S event).publishers, P.Fresh := fresh_next h event
  exact Machine.always_iff_meets publishService keep
    (fun S event _ hfresh h => placed_next_iff hfresh h event) (by simp [PublishService.new]) hplaced

theorem Placed.limited {S : PublishService} (h : Placed S) : S.Limited := by
  refine ⟨h.within, fun _ => ?_⟩
  have hmax := S.mOptions.mMaximumPublishers.toInt_lt
  have hwithin := h.within
  rw [h.count, Int32.toInt_ofNat_of_lt (by omega)]

/-- In every run that keeps the places, every state reached keeps the limit, and at rest counts
its registered publishers. -/
theorem publishers_limited (options : PublishServiceOptions) (events : List (PublishEvent Pick))
    (h : publishService.Meets KeepsPlaces (PublishService.new options) events) :
    ∀ before, before <+: events →
      (publishService.final (PublishService.new options) before).Limited := by
  intro before hbefore
  exact ((placed_iff_keepsPlaces options events).mpr h before hbefore).limited

instance (S : PublishService) (event : PublishEvent Pick) : Decidable (KeepsPlaces S event) :=
  match event with
  | .reader i .proceed => inferInstanceAs (Decidable (∀ P ∈ S.publishers[i]?, P.pc = .fetchAdd →
      S.registered < S.mOptions.mMaximumPublishers.toInt))
  | .control i => inferInstanceAs (Decidable (∀ pc ∈ S.controls[i]?,
      pc = .startCount ∨ pc = .stopCount → S.registered = 0))
  | .reader _ (.onReadDone _) | .reader _ .onDone | .publish _ | .start | .stop => .isTrue trivial

/-- Room for one publisher. -/
def onePlace : PublishServiceOptions :=
  { mMaximumPublishers := 1, publishers_pos := one_le_one }

def connectsOne (i : ℕ) : List (PublishEvent ℕ) :=
  [.reader i .proceed, .reader i .proceed, .reader i .proceed, .reader i .proceed]

def startsUp : List (PublishEvent ℕ) := [.start, .control 0, .control 0, .control 0]

/-- The second publisher connects when the first is gone. -/
def oneAfterAnother : List (PublishEvent ℕ) :=
  startsUp ++ .publish [] :: connectsOne 0 ++ [.reader 0 .onDone] ++ .publish [] :: connectsOne 1

theorem publishers_limited_one_after_another :
    (publishService.final (PublishService.new onePlace) oneAfterAnother).Limited :=
  publishers_limited onePlace oneAfterAnother (by decide) oneAfterAnother List.prefix_rfl

/-- Both clients find the one place free before either takes it. -/
def bothAtOnce : List (PublishEvent ℕ) :=
  startsUp ++ [.publish [], .publish [], .reader 0 .proceed, .reader 1 .proceed,
    .reader 0 .proceed, .reader 1 .proceed, .reader 0 .proceed, .reader 1 .proceed,
    .reader 0 .proceed, .reader 1 .proceed]

/-- The service stops while its publisher is still there. -/
def stopsFirst : List (PublishEvent ℕ) :=
  startsUp ++ .publish [] :: connectsOne 0 ++
    [.stop, .control 1, .control 1, .reader 0 .onDone]

/-- Two publishers are registered where one is allowed, and a count falls to minus one. -/
theorem two_publishers_in_one_place :
    let crowded := publishService.final (PublishService.new onePlace) bothAtOnce
    let stopped := publishService.final (PublishService.new onePlace) stopsFirst
    crowded.registered = 2 ∧ ¬ crowded.Limited ∧
      stopped.AtRest ∧ stopped.mPublisherCount = -1 ∧ ¬ stopped.Limited := by
  refine ⟨by decide, ?_, by decide, by decide, ?_⟩
  · intro h
    have hwithin := h.within
    revert hwithin
    decide
  · intro h
    have hcount := h.exact_at_rest (by decide)
    revert hcount
    decide

end PickBroker
