import PickBroker.Store.Operations

namespace PickBroker

open Framework

variable {Pick : Type*}

/-- The same store with other settings. -/
def PickStore.withSettings (s : PickStore Pick) (maxHistory : Int64) (maxQueueCapacity : ℕ) :
    PickStore Pick :=
  { s with mMaxHistory := maxHistory, mMaxQueueCapacity := maxQueueCapacity }

/-- An enqueue cleans the same stored picks away with the store's settings as with the given
ones. -/
def CleansAlike (maxHistory : Int64) (maxQueueCapacity : ℕ) (s : PickStore Pick) :
    Call Pick → Prop
  | .enqueue _ _ now => ∀ e ∈ s.mDeque,
      ((s.mMaxQueueCapacity / 2 ≤ s.mDeque.length ∧ e.1 < now - s.mMaxHistory) ↔
        (maxQueueCapacity / 2 ≤ s.mDeque.length ∧ e.1 < now - maxHistory))
  | _ => True

/-- Both constructors answer all calls alike, and hold the same picks all along. -/
def ConstructorsAgree (sorting : Sorting Int64 Pick) (options : PickStoreOptions) (now : Int64)
    (calls : List (Call Pick)) : Prop :=
  (pickStore sorting).answers (PickStore.new options) calls =
      (pickStore sorting).answers (PickStore.backfilled sorting options [] now) calls ∧
    ∀ before, before <+: calls →
      ((pickStore sorting).final (PickStore.new options) before).mDeque =
        ((pickStore sorting).final (PickStore.backfilled sorting options [] now) before).mDeque

section Settings

variable (sorting : Sorting Int64 Pick) {s : PickStore Pick} {h : Int64} {c : ℕ}

/-- The settings count only where `enqueue` cleans. -/
theorem withSettings_answer (s : PickStore Pick) (h : Int64) (c : ℕ) (call : Call Pick) :
    (pickStore sorting).answer (s.withSettings h c) call = (pickStore sorting).answer s call := by
  cases call with
  | subscribeSince a startTime now =>
    simp only [Machine.answer, pickStore, PickStore.subscribeSince]
    by_cases ht : now < startTime ∧ startTime ≠ MAX_TIME <;> simp [ht]
  | getPicks a n =>
    by_cases hn : 1 ≤ n
    · rw [answer_getPicks sorting _ a hn, answer_getPicks sorting _ a hn]
      rfl
    · simp [Machine.answer, pickStore, PickStore.getPicks, show n < 1 by omega]
  | _ => rfl

theorem withSettings_next (s : PickStore Pick) (h : Int64) (c : ℕ) (call : Call Pick)
    (hne : ∀ r pick now, call ≠ .enqueue r pick now) :
    (pickStore sorting).next (s.withSettings h c) call =
      ((pickStore sorting).next s call).withSettings h c := by
  cases call with
  | subscribeSince a startTime now =>
    rw [next_subscribeSince, next_subscribeSince]
    split <;> rfl
  | enqueue r pick now => exact absurd rfl (hne r pick now)
  | getPicks a n =>
    by_cases hn : 1 ≤ n
    · rw [next_getPicks sorting _ a hn, next_getPicks sorting _ a hn]
      have hbatch : (s.withSettings h c).batch a n = s.batch a n := rfl
      rw [hbatch, PickStore.markRead, PickStore.markRead]
      split <;> rfl
    · rw [next_getPicks_of_lt sorting _ a (by omega), next_getPicks_of_lt sorting _ a (by omega)]
  | _ => rfl

theorem enqueue_eq (s : PickStore Pick) (r : Int64) (pick : Pick) (now : Int64) :
    s.enqueue sorting r pick now =
      { s with
        mDeque := PickStore.insertPick sorting (s.cleanDequeAt now).mDeque (r, pick)
        mCursorMap := s.mCursorMap.map fun _ cursor =>
          if cursor = MAX_TIME then s.newestAfter sorting r pick now else cursor } := by
  unfold PickStore.enqueue PickStore.newestAfter PickStore.cleanDequeAt PickStore.cleanDeque
  dsimp only
  split <;> rfl

/-- Where the same is cleaned away, the enqueue ends in the same store up to the settings. -/
theorem withSettings_enqueue {now : Int64}
    (hclean : ((s.withSettings h c).cleanDequeAt now).mDeque = (s.cleanDequeAt now).mDeque)
    (r : Int64) (pick : Pick) :
    (s.withSettings h c).enqueue sorting r pick now =
      (s.enqueue sorting r pick now).withSettings h c := by
  rw [enqueue_eq, enqueue_eq, PickStore.newestAfter, PickStore.newestAfter, hclean]
  rfl

theorem withSettings_cleanDequeAt (hord : Ordered s.mDeque) (now : Int64) :
    ((s.withSettings h c).cleanDequeAt now).mDeque =
      s.mDeque.filter fun e => !(s.withSettings h c).evicts (now - h) e :=
  PickStore.cleanDeque_mDeque (s.withSettings h c) hord (now - h)

theorem CleansAlike.cleanDequeAt_eq (hord : Ordered s.mDeque) {r : Int64} {pick : Pick}
    {now : Int64} (halike : CleansAlike h c s (.enqueue r pick now)) :
    ((s.withSettings h c).cleanDequeAt now).mDeque = (s.cleanDequeAt now).mDeque := by
  rw [withSettings_cleanDequeAt hord, PickStore.cleanDequeAt, PickStore.cleanDeque_mDeque s hord]
  apply List.filter_congr
  intro e he
  have hiff : (s.withSettings h c).evicts (now - h) e = s.evicts (now - s.mMaxHistory) e :=
    decide_eq_decide.mpr (halike e he).symm
  rw [hiff]

/-- Two cleanings that leave the same picks agree about every stored one. -/
theorem cleansAlike_of_perm (hord : Ordered s.mDeque) (r : Int64) (pick : Pick) {now : Int64}
    (hperm : ((s.withSettings h c).cleanDequeAt now).mDeque.Perm (s.cleanDequeAt now).mDeque) :
    CleansAlike h c s (.enqueue r pick now) := by
  rw [withSettings_cleanDequeAt hord, PickStore.cleanDequeAt,
    PickStore.cleanDeque_mDeque s hord] at hperm
  intro e he
  have hmem := hperm.mem_iff (a := e)
  simp only [List.mem_filter, he, true_and] at hmem
  have heq := Bool.not_inj (Bool.eq_iff_iff.mpr hmem)
  exact (decide_eq_decide.mp heq).symm

/-- Both stores hold the same picks after a call exactly when it cleans alike, and then they
still differ in the settings alone. -/
theorem withSettings_step (hord : Ordered s.mDeque) (call : Call Pick) :
    (((pickStore sorting).next s call).mDeque =
        ((pickStore sorting).next (s.withSettings h c) call).mDeque →
      CleansAlike h c s call) ∧
    (CleansAlike h c s call → (pickStore sorting).next (s.withSettings h c) call =
      ((pickStore sorting).next s call).withSettings h c) := by
  rcases call.enqueue_or_not with ⟨r, pick, now, rfl⟩ | hne
  · constructor
    · intro heq
      rw [next_enqueue, next_enqueue, PickStore.enqueue_mDeque, PickStore.enqueue_mDeque] at heq
      apply cleansAlike_of_perm hord
      apply (List.perm_append_right_iff [(r, pick)]).mp
      apply (PickStore.insertPick_perm sorting _ (r, pick)).symm.trans
      rw [← heq]
      exact PickStore.insertPick_perm sorting _ (r, pick)
    · intro halike
      rw [next_enqueue, next_enqueue]
      exact withSettings_enqueue sorting (halike.cleanDequeAt_eq hord) r pick
  · constructor
    · intro _
      cases call with
      | enqueue r pick now => exact absurd rfl (hne r pick now)
      | _ => trivial
    · intro _
      exact withSettings_next sorting s h c call hne

theorem withSettings_run (hord : Ordered s.mDeque) (calls : List (Call Pick)) :
    ((pickStore sorting).answers s calls =
        (pickStore sorting).answers (s.withSettings h c) calls ∧
      ∀ before, before <+: calls → ((pickStore sorting).final s before).mDeque =
        ((pickStore sorting).final (s.withSettings h c) before).mDeque) ↔
      (pickStore sorting).Meets (CleansAlike h c) s calls := by
  induction calls generalizing s with
  | nil =>
    constructor
    · intro _
      trivial
    · intro _
      refine ⟨rfl, ?_⟩
      intro before hb
      rw [List.prefix_nil.mp hb]
      rfl
  | cons call calls ih =>
    obtain ⟨hexact, hnext⟩ := withSettings_step (h := h) (c := c) sorting hord call
    have htail := ih (next_ordered sorting s call hord)
    constructor
    · intro hparts
      obtain ⟨hanswers, hdeques⟩ := hparts
      have halike : CleansAlike h c s call := hexact (hdeques [call] (by simp))
      refine ⟨halike, htail.mp ⟨?_, ?_⟩⟩
      · rw [Machine.answers_cons, Machine.answers_cons, hnext halike] at hanswers
        exact (List.cons.inj hanswers).2
      · intro before hb
        rw [← hnext halike]
        exact hdeques (call :: before) ((List.prefix_cons_inj call).mpr hb)
    · intro hparts
      obtain ⟨halike, hmeets⟩ := hparts
      obtain ⟨hanswers, hdeques⟩ := htail.mpr hmeets
      refine ⟨?_, ?_⟩
      · rw [Machine.answers_cons, Machine.answers_cons, withSettings_answer, hnext halike, hanswers]
      · intro before hb
        cases before with
        | nil => rfl
        | cons other before =>
          obtain ⟨rfl, hbefore⟩ := List.cons_prefix_cons.mp hb
          rw [Machine.final_cons, Machine.final_cons, hnext halike]
          exact hdeques before hbefore

end Settings

/-- With an empty backfill the two constructors differ in the settings alone. -/
theorem backfilled_nil (sorting : Sorting Int64 Pick) (options : PickStoreOptions) (now : Int64) :
    PickStore.backfilled sorting options [] now =
      (PickStore.new options).withSettings (options.mMaximumRetentionDuration * 1000000000)
        options.mMaximumQueueCapacity.toInt.toNat := by
  have hnil : sorting.sort [] = [] := List.perm_nil.mp (sorting.perm [])
  rw [PickStore.backfilled, hnil, PickStore.cleanDequeAt, PickStore.cleanDeque]
  dsimp only
  split <;> rfl

/-- A store built without backfill and one built with an empty backfill agree on a run exactly
when every enqueue of it cleans with the default settings what it would clean with the configured
ones: the constructor without backfill reads no option. -/
theorem constructors_agree_iff (sorting : Sorting Int64 Pick) (options : PickStoreOptions)
    (now : Int64) (calls : List (Call Pick)) :
    ConstructorsAgree sorting options now calls ↔
      (pickStore sorting).Meets
        (CleansAlike (options.mMaximumRetentionDuration * 1000000000)
          options.mMaximumQueueCapacity.toInt.toNat)
        (PickStore.new options) calls := by
  rw [ConstructorsAgree, backfilled_nil]
  have hord : Ordered (PickStore.new options : PickStore Pick).mDeque := List.Pairwise.nil
  exact withSettings_run sorting hord calls

/-- With a retention of one second and a capacity of one pick, the store without backfill still
holds a pick that is eleven seconds old. -/
theorem shortRetention_disagrees :
    ¬ ConstructorsAgree (Sorting.stable Int64 ℕ)
      { mMaximumRetentionDuration := 1, mMaximumQueueCapacity := 1 } 0
      [.enqueue 0 1 0, .enqueue 11000000000 2 11000000000] := by
  intro h
  exact absurd (h.2 _ (List.prefix_refl _)) (by decide)

end PickBroker
