import PickBroker.Framework.Int64Range
import PickBroker.Framework.SideBySide
import PickBroker.Store.Retention
import Mathlib.Data.List.Perm.Subperm

namespace PickBroker

open Framework

variable {Pick : Type*}

/-- The retention duration in nanoseconds, whatever its size. -/
def PickStoreOptions.retention (options : PickStoreOptions) : ℤ :=
  options.mMaximumRetentionDuration.toInt * 1000000000

/-- The seconds that `setMaximumRetentionDuration` accepts. -/
abbrev RetentionDuration := { duration : Int64 // 1 ≤ duration }

/-- The options after `setMaximumRetentionDuration` with this duration. -/
def PickStoreOptions.retaining (options : PickStoreOptions) (duration : RetentionDuration) :
    PickStoreOptions :=
  { options with mMaximumRetentionDuration := duration.1, retention_pos := duration.2 }

/-- What the setter makes of the options. -/
theorem PickStoreOptions.setMaximumRetentionDuration_eq (options : PickStoreOptions)
    (duration : RetentionDuration) :
    options.setMaximumRetentionDuration duration.1 = .ok (options.retaining duration) := by
  have haccepted : ¬ duration.1 < 1 := Int64.not_lt.mpr duration.2
  rw [setMaximumRetentionDuration, dif_neg haccepted]
  rfl

namespace Construction

def options : Construction Pick → PickStoreOptions
  | .new options | .backfilled options _ _ => options

/-- The same construction at another clock reading. -/
def atClock (now : Int64) : Construction Pick → Construction Pick
  | .new options => .new options
  | .backfilled options picks _ => .backfilled options picks now

/-- The same construction with another retention duration. -/
def retaining (start : Construction Pick) (duration : RetentionDuration) : Construction Pick :=
  match start with
  | .new options => .new (options.retaining duration)
  | .backfilled options picks now => .backfilled (options.retaining duration) picks now

/-- The moment the retention leads back to is within 64 bits; the constructor without backfill
retains for a quarter of an hour. -/
def InRange (now : Int64) : Construction Pick → Prop
  | .new options => options.retention = 15 * 60 * 1000000000
  | .backfilled options _ _ => options.retention ≤ now.toInt + 2 ^ 63

end Construction

/-- The clock readings at which a run cleans, the one of the constructor first. -/
def cleaningClocks (start : Construction Pick) (calls : List (Call Pick)) : List Int64 :=
  (match start with
    | .new _ => []
    | .backfilled _ _ now => [now]) ++
  calls.filterMap fun
    | .enqueue _ _ now => some now
    | _ => none

/-- The cutoffs of the store, in its constructor and behind every run, are the retention before
the clock reading or a clamped value. -/
structure StoreCutoffs (sorting : Sorting Int64 Pick) (start : Construction Pick) (now : Int64) :
    Prop where
  constructed : ∀ c ∈ (start.atClock now).cleanings sorting,
    ClampedTo c.oldestPickToKeep (now.toInt - start.options.retention)
  enqueued : ∀ calls,
    ClampedTo (((pickStore sorting).final (start.build sorting) calls).cleaningAt now).oldestPickToKeep
      (now.toInt - start.options.retention)

/-- At every clock reading of a run the cutoffs are right with both retention durations, and all
along the run the store with the longer one holds whatever the store with the shorter one holds. -/
structure StoreRetains (sorting : Sorting Int64 Pick) (start : Construction Pick)
    (shorter longer : RetentionDuration) (calls : List (Call Pick)) : Prop where
  shorter_cutoffs : ∀ now ∈ cleaningClocks start calls,
    StoreCutoffs sorting (start.retaining shorter) now
  longer_cutoffs : ∀ now ∈ cleaningClocks start calls,
    StoreCutoffs sorting (start.retaining longer) now
  keeps : shorter.1 ≤ longer.1 → ∀ before, before <+: calls →
    ((pickStore sorting).final ((start.retaining shorter).build sorting) before).mDeque.Subperm
      ((pickStore sorting).final ((start.retaining longer).build sorting) before).mDeque

/-- Before an `enqueue`: a store with the longer retention that is half full has the other one
half full as well, or the other one holds no pick that the longer retention gives up. -/
def CleansTogether (retention : ℤ) (stores : PickStore Pick × PickStore Pick) : Call Pick → Prop
  | .enqueue _ _ now =>
    stores.2.mMaxQueueCapacity / 2 ≤ stores.2.mDeque.length →
      stores.1.mMaxQueueCapacity / 2 ≤ stores.1.mDeque.length ∨
        ∀ e ∈ stores.1.mDeque, now.toInt - retention ≤ e.1.toInt
  | _ => True

instance (retention : ℤ) (stores : PickStore Pick × PickStore Pick) :
    (call : Call Pick) → Decidable (CleansTogether retention stores call)
  | .enqueue _ _ now =>
    inferInstanceAs (Decidable (stores.2.mMaxQueueCapacity / 2 ≤ stores.2.mDeque.length →
      stores.1.mMaxQueueCapacity / 2 ≤ stores.1.mDeque.length ∨
        ∀ e ∈ stores.1.mDeque, now.toInt - retention ≤ e.1.toInt))
  | .subscribe _ | .subscribeSince _ _ _ | .unsubscribe _ | .getPicks _ _ => .isTrue trivial

/-- A run of two stores that differ in their retention duration only. -/
def CleanTogether (sorting : Sorting Int64 Pick) (start : Construction Pick)
    (shorter longer : RetentionDuration) (calls : List (Call Pick)) : Prop :=
  ((pickStore sorting).beside (pickStore sorting) id id).Meets
    (CleansTogether (longer.1.toInt * 1000000000))
    ((start.retaining shorter).build sorting, (start.retaining longer).build sorting) calls

section Settings

variable (sorting : Sorting Int64 Pick)

theorem next_mMaxHistory (s : PickStore Pick) (call : Call Pick) :
    ((pickStore sorting).next s call).mMaxHistory = s.mMaxHistory := by
  cases call with
  | subscribe a => rfl
  | subscribeSince a startTime now =>
    rw [next_subscribeSince]
    split <;> rfl
  | unsubscribe a => rfl
  | enqueue r pick now => exact (PickStore.cleanDeque_settings s _).1
  | getPicks a n =>
    by_cases hn : 1 ≤ n
    · rw [next_getPicks sorting s a hn, PickStore.markRead]
      split <;> rfl
    · rw [next_getPicks_of_lt sorting s a (by omega)]

/-- The history a store was built with stays its history. -/
theorem final_mMaxHistory (s : PickStore Pick) (calls : List (Call Pick)) :
    ((pickStore sorting).final s calls).mMaxHistory = s.mMaxHistory := by
  induction calls generalizing s with
  | nil => rfl
  | cons call calls ih => exact (ih _).trans (next_mMaxHistory sorting s call)

theorem build_mMaxHistory (options : PickStoreOptions) (picks : List (Int64 × Pick))
    (now : Int64) :
    ((Construction.backfilled options picks now).build sorting).mMaxHistory =
      options.mMaximumRetentionDuration * 1000000000 :=
  (PickStore.cleanDeque_settings _ _).1

theorem options_retaining (start : Construction Pick) (duration : RetentionDuration) :
    (start.retaining duration).options.retention = duration.1.toInt * 1000000000 := by
  cases start <;> rfl

end Settings

section Cutoffs

variable {sorting : Sorting Int64 Pick} {now : Int64}

theorem PickStoreOptions.cutoff_iff (options : PickStoreOptions) (now : Int64) :
    ClampedTo (now - options.mMaximumRetentionDuration * 1000000000)
        (now.toInt - options.retention) ↔ options.retention ≤ now.toInt + 2 ^ 63 := by
  have hpos : 1 ≤ options.mMaximumRetentionDuration.toInt :=
    Int64.le_iff_toInt_le.mp options.retention_pos
  have hunit : (1000000000 : Int64).toInt = 1000000000 := rfl
  have h := sub_mul_clamped_iff now options.mMaximumRetentionDuration 1000000000
  rw [hunit] at h
  exact h (by omega)

/-- What the options say does not matter to the constructor without backfill. -/
theorem PickStoreOptions.default_cutoff_iff (options : PickStoreOptions) (hnow : 0 ≤ now.toInt) :
    ClampedTo (now - 15 * 60 * 1000000000) (now.toInt - options.retention) ↔
      options.retention = 15 * 60 * 1000000000 := by
  have hpos : 1 ≤ options.mMaximumRetentionDuration.toInt :=
    Int64.le_iff_toInt_le.mp options.retention_pos
  have hretention : options.retention = options.mMaximumRetentionDuration.toInt * 1000000000 := rfl
  have hupper := now.toInt_lt
  have hunit : (15 * 60 * 1000000000 : Int64).toInt = 15 * 60 * 1000000000 := by decide
  have hvalue : (now - 15 * 60 * 1000000000).toInt = now.toInt - 15 * 60 * 1000000000 := by
    rw [← hunit, toInt_sub_iff, hunit]
    constructor <;> omega
  constructor
  · intro h
    have heq := h.toInt_eq (by omega)
    omega
  · intro h
    left
    rw [hvalue, h]

theorem final_cutoff (sorting : Sorting Int64 Pick) (start : Construction Pick) (now : Int64)
    (calls : List (Call Pick)) :
    (((pickStore sorting).final (start.build sorting) calls).cleaningAt now).oldestPickToKeep =
      now - (start.build sorting).mMaxHistory := by
  rw [← final_mMaxHistory sorting (start.build sorting) calls]
  rfl

theorem storeCutoffs_iff (start : Construction Pick) (hnow : 0 ≤ now.toInt) :
    StoreCutoffs sorting start now ↔ start.InRange now := by
  cases start with
  | new options =>
    have hiff := options.default_cutoff_iff hnow
    constructor
    · intro h
      have henqueued := h.enqueued []
      rw [final_cutoff] at henqueued
      exact hiff.mp henqueued
    · intro h
      refine ⟨nofun, ?_⟩
      intro calls
      rw [final_cutoff]
      exact hiff.mpr h
  | backfilled options picks clock =>
    have hiff := options.cutoff_iff now
    constructor
    · intro h
      have henqueued := h.enqueued []
      rw [final_cutoff, build_mMaxHistory] at henqueued
      exact hiff.mp henqueued
    · intro h
      constructor
      · intro c hc
        rw [List.mem_singleton.mp hc]
        exact hiff.mpr h
      · intro calls
        rw [final_cutoff, build_mMaxHistory]
        exact hiff.mpr h

/-- A right cutoff is the mathematical one: it is never below the range. -/
theorem StoreCutoffs.toInt_eq {start : Construction Pick} (h : StoreCutoffs sorting start now) :
    (now - (start.build sorting).mMaxHistory).toInt = now.toInt - start.options.retention := by
  have hupper := now.toInt_lt
  have hone := Int64.le_iff_toInt_le.mp start.options.retention_pos
  have hunit : (1 : Int64).toInt = 1 := rfl
  have hretention : start.options.retention =
      start.options.mMaximumRetentionDuration.toInt * 1000000000 := rfl
  have hclamped := h.enqueued []
  rw [final_cutoff] at hclamped
  exact hclamped.toInt_eq (by omega)

end Cutoffs

section SameRun

variable {sorting : Sorting Int64 Pick} {now : Int64} {start : Construction Pick}
  {shorter longer : RetentionDuration} {calls : List (Call Pick)}

/-- Of a smaller list less is left exactly when the one choice takes whatever the other one takes
of it. -/
theorem filter_subperm_filter_iff {α : Type*} {l k : List α} (h : l.Subperm k) (p q : α → Bool) :
    (l.filter p).Subperm (k.filter q) ↔ ∀ e ∈ l, p e = true → q e = true := by
  constructor
  · intro hsub e he hp
    exact (List.mem_filter.mp (hsub.subset (List.mem_filter.mpr ⟨he, hp⟩))).2
  · intro himp
    have htwice : l.filter p = (l.filter q).filter p := by
      rw [List.filter_filter]
      apply List.filter_congr
      intro e he
      cases hp : p e with
      | false => rfl
      | true => simp [himp e he hp]
    rw [htwice]
    exact List.filter_sublist.subperm.trans (h.filter q)

/-- Of two stores the one that keeps longer holds more after its cleaning exactly when it does not
clean alone, unless there is nothing to lose. -/
theorem cleanDequeAt_subperm_iff {s t : PickStore Pick} (hord : Ordered s.mDeque)
    (hord' : Ordered t.mDeque) (hsub : s.mDeque.Subperm t.mDeque)
    (hcutoff : now - t.mMaxHistory ≤ now - s.mMaxHistory) :
    (s.cleanDequeAt now).mDeque.Subperm (t.cleanDequeAt now).mDeque ↔
      (t.mMaxQueueCapacity / 2 ≤ t.mDeque.length → s.mMaxQueueCapacity / 2 ≤ s.mDeque.length ∨
        ∀ e ∈ s.mDeque, now - t.mMaxHistory ≤ e.1) := by
  rw [PickStore.cleanDequeAt, PickStore.cleanDequeAt, PickStore.cleanDeque_mDeque s hord,
    PickStore.cleanDeque_mDeque t hord', filter_subperm_filter_iff hsub]
  simp only [Bool.not_eq_true', PickStore.evicts, decide_eq_false_iff_not, not_and, not_lt]
  constructor
  · intro h hfull
    by_cases hhalf : s.mMaxQueueCapacity / 2 ≤ s.mDeque.length
    · exact Or.inl hhalf
    · right
      intro e he
      exact h e he (fun hfull' => absurd hfull' hhalf) hfull
  · intro h e he hkept hfull
    rcases h hfull with hhalf | hyoung
    · exact hcutoff.trans (hkept hhalf)
    · exact hyoung e he

theorem enqueue_subperm_iff {s t : PickStore Pick} {r : Int64} {pick : Pick} :
    (s.enqueue sorting r pick now).mDeque.Subperm (t.enqueue sorting r pick now).mDeque ↔
      (s.cleanDequeAt now).mDeque.Subperm (t.cleanDequeAt now).mDeque := by
  rw [PickStore.enqueue_mDeque, PickStore.enqueue_mDeque,
    (PickStore.insertPick_perm sorting (s.cleanDequeAt now).mDeque (r, pick)).subperm_right,
    (PickStore.insertPick_perm sorting (t.cleanDequeAt now).mDeque (r, pick)).subperm_left]
  exact List.subperm_append_right _

/-- The states of two stores in one run from constructions that differ in their retention. -/
structure SameHistory (a b : Int64) (stores : PickStore Pick × PickStore Pick) : Prop where
  ordered : Ordered stores.1.mDeque
  ordered' : Ordered stores.2.mDeque
  history : stores.1.mMaxHistory = a
  history' : stores.2.mMaxHistory = b

theorem SameHistory.next {a b : Int64} {stores : PickStore Pick × PickStore Pick}
    (h : SameHistory a b stores) (call : Call Pick) :
    SameHistory a b (((pickStore sorting).beside (pickStore sorting) id id).next stores call) :=
  ⟨next_ordered sorting _ call h.ordered, next_ordered sorting _ call h.ordered',
    (next_mMaxHistory sorting _ call).trans h.history,
    (next_mMaxHistory sorting _ call).trans h.history'⟩

/-- One call: the store that retains longer goes on holding more exactly when it does not clean
alone, unless there is nothing to lose. -/
theorem SameHistory.subperm_next_iff {a b : Int64} {stores : PickStore Pick × PickStore Pick}
    (h : SameHistory a b stores) (hsub : stores.1.mDeque.Subperm stores.2.mDeque)
    (call : Call Pick) {retention : ℤ}
    (hcutoffs : ∀ r pick now, call = .enqueue r pick now →
      (now - b).toInt = now.toInt - retention ∧ now - b ≤ now - a) :
    (((pickStore sorting).next stores.1 call).mDeque.Subperm
        ((pickStore sorting).next stores.2 call).mDeque) ↔ CleansTogether retention stores call := by
  rcases call.enqueue_or_not with ⟨r, pick, now, rfl⟩ | hne
  · obtain ⟨hvalue, hle⟩ := hcutoffs r pick now rfl
    have hle' : now - stores.2.mMaxHistory ≤ now - stores.1.mMaxHistory := by
      rw [h.history, h.history']
      exact hle
    rw [next_enqueue, next_enqueue, enqueue_subperm_iff,
      cleanDequeAt_subperm_iff h.ordered h.ordered' hsub hle', h.history', CleansTogether]
    simp only [Int64.le_iff_toInt_le, hvalue]
  · rw [next_mDeque_of_not_enqueue sorting _ call hne, next_mDeque_of_not_enqueue sorting _ call hne]
    cases call with
    | enqueue r pick now => exact absurd rfl (hne r pick now)
    | _ => exact iff_of_true hsub trivial

theorem mem_cleaningClocks {start : Construction Pick} {r : Int64} {pick : Pick}
    (h : .enqueue r pick now ∈ calls) : now ∈ cleaningClocks start calls :=
  List.mem_append_right _ (List.mem_filterMap.mpr ⟨_, h, rfl⟩)

/-- The constructors leave the store that retains longer with more. -/
theorem build_subperm
    (hcutoff : ∀ now ∈ cleaningClocks start calls,
      now - ((start.retaining longer).build sorting).mMaxHistory ≤
        now - ((start.retaining shorter).build sorting).mMaxHistory) :
    ((start.retaining shorter).build sorting).mDeque.Subperm
      ((start.retaining longer).build sorting).mDeque := by
  cases start with
  | new options => exact List.Subperm.refl _
  | backfilled options picks clock =>
    have hord : Ordered (sorting.sort picks) := sorting.ordered picks
    have hle := hcutoff clock (by simp [cleaningClocks])
    rw [Construction.retaining, Construction.retaining, build_mMaxHistory, build_mMaxHistory] at hle
    let unclean (duration : RetentionDuration) : PickStore Pick :=
      { mDeque := sorting.sort picks
        mMaxHistory := duration.1 * 1000000000
        mMaxQueueCapacity := options.mMaximumQueueCapacity.toInt.toNat }
    have hiff := cleanDequeAt_subperm_iff (s := unclean shorter) (t := unclean longer) hord hord
      (List.Subperm.refl _) hle
    exact hiff.mpr Or.inl

theorem keeps_iff (hle : shorter.1 ≤ longer.1)
    (hshorter : ∀ now ∈ cleaningClocks start calls,
      StoreCutoffs sorting (start.retaining shorter) now)
    (hlonger : ∀ now ∈ cleaningClocks start calls,
      StoreCutoffs sorting (start.retaining longer) now) :
    (∀ before, before <+: calls →
      ((pickStore sorting).final ((start.retaining shorter).build sorting) before).mDeque.Subperm
        ((pickStore sorting).final ((start.retaining longer).build sorting) before).mDeque) ↔
      CleanTogether sorting start shorter longer calls := by
  have hvalue : ∀ now ∈ cleaningClocks start calls,
      (now - ((start.retaining longer).build sorting).mMaxHistory).toInt =
        now.toInt - longer.1.toInt * 1000000000 := by
    intro now hnow
    rw [(hlonger now hnow).toInt_eq, options_retaining]
  have hcutoff : ∀ now ∈ cleaningClocks start calls,
      now - ((start.retaining longer).build sorting).mMaxHistory ≤
        now - ((start.retaining shorter).build sorting).mMaxHistory := by
    intro now hnow
    have hduration := Int64.le_iff_toInt_le.mp hle
    rw [Int64.le_iff_toInt_le, hvalue now hnow, (hshorter now hnow).toInt_eq, options_retaining]
    omega
  have hstart : SameHistory ((start.retaining shorter).build sorting).mMaxHistory
      ((start.retaining longer).build sorting).mMaxHistory
      ((start.retaining shorter).build sorting, (start.retaining longer).build sorting) :=
    ⟨build_ordered _, build_ordered _, rfl, rfl⟩
  have hstep : ∀ stores : PickStore Pick × PickStore Pick, ∀ call ∈ calls,
      SameHistory ((start.retaining shorter).build sorting).mMaxHistory
        ((start.retaining longer).build sorting).mMaxHistory stores →
      stores.1.mDeque.Subperm stores.2.mDeque →
      (((pickStore sorting).next stores.1 call).mDeque.Subperm
          ((pickStore sorting).next stores.2 call).mDeque ↔
        CleansTogether (longer.1.toInt * 1000000000) stores call) := by
    intro stores call hcall h hsub
    apply h.subperm_next_iff hsub call
    rintro r pick now rfl
    have hnow : now ∈ cleaningClocks start calls := mem_cleaningClocks hcall
    exact ⟨hvalue now hnow, hcutoff now hnow⟩
  have hrun := Machine.always_beside_iff (pickStore sorting) (pickStore sorting) id id
    (R := fun stores => stores.1.mDeque.Subperm stores.2.mDeque)
    (fun _ call h => h.next call) hstep hstart (build_subperm hcutoff)
  simp only [List.map_id] at hrun
  exact hrun

theorem storeRetains_iff (sorting : Sorting Int64 Pick) (start : Construction Pick)
    (shorter longer : RetentionDuration) (calls : List (Call Pick))
    (hclock : ∀ now ∈ cleaningClocks start calls, 0 ≤ now.toInt) :
    StoreRetains sorting start shorter longer calls ↔
      (∀ now ∈ cleaningClocks start calls,
        (start.retaining shorter).InRange now ∧ (start.retaining longer).InRange now) ∧
      (shorter.1 ≤ longer.1 → CleanTogether sorting start shorter longer calls) := by
  constructor
  · intro h
    constructor
    · intro now hnow
      exact ⟨(storeCutoffs_iff _ (hclock now hnow)).mp (h.shorter_cutoffs now hnow),
        (storeCutoffs_iff _ (hclock now hnow)).mp (h.longer_cutoffs now hnow)⟩
    · intro hle
      exact (keeps_iff hle h.shorter_cutoffs h.longer_cutoffs).mp (h.keeps hle)
  · intro h
    have hshorter : ∀ now ∈ cleaningClocks start calls,
        StoreCutoffs sorting (start.retaining shorter) now := by
      intro now hnow
      exact (storeCutoffs_iff _ (hclock now hnow)).mpr (h.1 now hnow).1
    have hlonger : ∀ now ∈ cleaningClocks start calls,
        StoreCutoffs sorting (start.retaining longer) now := by
      intro now hnow
      exact (storeCutoffs_iff _ (hclock now hnow)).mpr (h.1 now hnow).2
    refine ⟨hshorter, hlonger, ?_⟩
    intro hle
    exact (keeps_iff hle hshorter hlonger).mpr (h.2 hle)

end SameRun

end PickBroker
