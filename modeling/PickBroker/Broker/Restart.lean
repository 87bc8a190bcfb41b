import PickBroker.Broker.Deduplication

namespace PickBroker

open Framework

/-- A pick the broker has enqueued, and whose received time is below no cutoff of the database
cleaner, nor below the given one. -/
structure Survives (tr : List Action) (cutoff t : Int64) (pick : V1.Pick) : Prop where
  enqueued : .enqueued t pick ∈ tr
  undeleted : ∀ time, .deletedBefore time ∈ tr → ¬ t < time
  young : ¬ t < cutoff

/-- What the table and the store hold of a run. -/
structure Recorded {Bytes : Type*} (codec : Codec Bytes) (P : Pipeline Bytes)
    (tr : List Action) : Prop where
  hand : ∀ t pick, P.hand = .inserted t pick → .inserted t pick ∈ tr
  handed : ∀ t pick, .enqueued t pick ∈ tr → .inserted t pick ∈ tr
  written : ∀ row ∈ P.table.rows, ∃ pick, codec.serialize pick = some row.2
  stored : ∀ t pick, .enqueued t pick ∈ tr → (∀ time, .cleanedBefore time ∈ tr → ¬ t < time) →
    (t, pick) ∈ P.store

section Step

variable {Bytes : Type*} [DecidableEq Bytes] {codec : Codec Bytes} {capacity : ℕ}
  {P P' : Pipeline Bytes} {actions tr : List Action}

theorem Pipeline.Step.written (h : Pipeline.Step codec capacity P actions P')
    (hP : ∀ row ∈ P.table.rows, ∃ pick, codec.serialize pick = some row.2) :
    ∀ row ∈ P'.table.rows, ∃ pick, codec.serialize pick = some row.2 := by
  intro row hrow
  cases h with
  | insert hand hproto hnew =>
    rw [UniqueTable.rows_insertOrIgnore hnew, List.mem_append, List.mem_singleton] at hrow
    rcases hrow with hold | rfl
    · exact hP row hold
    · exact ⟨_, hproto⟩
  | delete time => exact hP row (UniqueTable.mem_deleteBefore.mp hrow).1
  | _ => exact hP row hrow

/-- An entry leaves the store only when a cleaning reaches it. -/
theorem Pipeline.Step.stays (h : Pipeline.Step codec capacity P actions P')
    {e : Int64 × V1.Pick} (he : e ∈ P.store)
    (hkept : ∀ time, .cleanedBefore time ∈ actions → ¬ e.1 < time) : e ∈ P'.store := by
  cases h with
  | enqueue hand clean hperm =>
    have hclean := clean.keeps e he (hkept _ (by simp))
    exact hperm.mem_iff.mpr (List.mem_append_left _ hclean)
  | throw hand clean error => exact clean.keeps e he (hkept _ (by simp))
  | _ => exact he

/-- What is enqueued is in the store. -/
theorem Pipeline.Step.stores (h : Pipeline.Step codec capacity P actions P') {t : Int64}
    {pick : V1.Pick} (hmem : .enqueued t pick ∈ actions) : (t, pick) ∈ P'.store := by
  cases h with
  | idle hquiet => exact absurd (hquiet _ hmem) (by simp [Action.quiet])
  | enqueue hand clean hperm =>
    simp only [List.mem_cons, reduceCtorEq, false_or, Action.enqueued.injEq, List.not_mem_nil,
      or_false] at hmem
    obtain ⟨rfl, rfl⟩ := hmem
    exact hperm.mem_iff.mpr (by simp)
  | _ => simp at hmem

theorem Recorded.step (h : Recorded codec P tr)
    (hstep : Pipeline.Step codec capacity P actions P') : Recorded codec P' (tr ++ actions) where
  hand t pick hand' := by
    rcases (hstep.hands hand').2 with hold | hnew
    · exact List.mem_append_left _ (h.hand t pick hold)
    · exact List.mem_append_right _ hnew
  handed t pick hmem := by
    rcases List.mem_append.mp hmem with hold | hnew
    · exact List.mem_append_left _ (h.handed t pick hold)
    · exact List.mem_append_left _ (h.hand t pick (hstep.enqueues hnew).1)
  written := hstep.written h.written
  stored t pick hmem hkept := by
    rcases List.mem_append.mp hmem with hold | hnew
    · have hbefore := h.stored t pick hold fun time htime =>
        hkept time (List.mem_append_left _ htime)
      exact hstep.stays hbefore fun time htime => hkept time (List.mem_append_right _ htime)
    · exact hstep.stores hnew

end Step

theorem recorded_run {Bytes : Type*} [DecidableEq Bytes] (codec : Codec Bytes)
    (sorting : Sorting Int64 V1.Pick) (options : BrokerOptions) {database : Database Bytes}
    (hwritten : database.Written codec) (subscribeService : SubscribeService V1.Pick)
    (events : List BrokerEvent) :
    let start := Broker.started options database subscribeService
    Recorded codec ((broker codec sorting).final start events).pipeline
      ((broker codec sorting).trace start events) := by
  intro start
  have hstart : Recorded codec start.pipeline [] := by
    refine ⟨?_, by simp, hwritten, by simp⟩
    intro t pick hand
    cases hand
  apply pipeline_invariant_of_step codec sorting _ events hstart
  intro P actions P' tr hP hstep
  exact hP.step hstep

/-- A pick that has been inserted and that no deletion reaches is in the table. -/
theorem inserted_row {Bytes : Type*} {codec : Codec Bytes} {P : Pipeline Bytes}
    {tr : List Action} (h : Deduplicated codec P tr) {t : Int64} {pick : V1.Pick}
    (hmem : .inserted t pick ∈ tr) (hkept : ∀ time, .deletedBefore time ∈ tr → ¬ t < time) :
    ∃ proto, codec.serialize pick = some proto ∧ (t, proto) ∈ P.table.rows := by
  obtain ⟨before, after, rfl⟩ := List.append_of_mem hmem
  apply h.rows t pick
  exact ⟨before, after, rfl, fun time htime => hkept time (by simp [htime])⟩

/-- The store of a constructor that has been given these picks: sorted, and all that is left out
is below the cutoff. -/
theorem backfilled_store (sorting : Sorting Int64 V1.Pick) (options : PickStoreOptions)
    (picks : List (Int64 × V1.Pick)) (now : Int64) :
    let store := PickStore.backfilled sorting options picks now
    Ordered store.mDeque ∧ store.mDeque.Subperm picks ∧
      ∀ e ∈ picks, ¬ e.1 < now - store.mMaxHistory → e ∈ store.mDeque := by
  intro store
  let filled : PickStore V1.Pick :=
    { mDeque := sorting.sort picks
      mMaxHistory := options.mMaximumRetentionDuration * 1000000000
      mMaxQueueCapacity := options.mMaximumQueueCapacity.toInt.toNat }
  have hclean := cleans_cleanDeque filled (now - filled.mMaxHistory)
  have hhistory : store.mMaxHistory = filled.mMaxHistory := (filled.cleanDeque_settings _).1
  refine ⟨build_ordered (.backfilled options picks now), ?_, ?_⟩
  · exact hclean.sublist.subperm.trans (sorting.perm picks).subperm
  · intro e he hyoung
    rw [hhistory] at hyoung
    exact hclean.keeps e ((sorting.perm picks).mem_iff.mpr he) hyoung

theorem unread_of_subscribeSince {s s' : PickStore V1.Pick} {a : UInt64} {start clock : Int64}
    (h : s.subscribeSince a start clock = .ok s') : s'.unread a = since start s.mDeque := by
  unfold PickStore.subscribeSince at h
  split at h
  · cases h
  · cases h
    exact PickStore.unread_of_cursor (by simp)

section Restart

variable {Bytes : Type*} {codec : Codec Bytes}
  {sorting : Sorting Int64 V1.Pick} {orderBy : Sorting Int64 Bytes} {options : BrokerOptions}
  {database : Database Bytes} {stmt : LoadStatement} {now : Int64} {isSecured : Bool}
  {B : Broker Bytes}

/-- The constructor on a database that holds what `add` has written. -/
theorem rebuilt {serviceOptions : SubscribeServiceOptions}
    (hservice : options.mSubscribeServiceOptions = some serviceOptions)
    (hpublish : options.mPublishServiceOptions.isSome) (hwritten : database.Written codec)
    (hopen : database.mIsOpen = true) (restart : Int64) (secured : Bool) :
    ∃ B' picks, Broker.new codec sorting orderBy options (some database) {} restart secured =
        .ok B' ∧
      B'.mPickStore = .backfilled sorting serviceOptions.mPickStoreOptions picks restart ∧
      (picks.map fun e => (e.1, codec.serialize e.2)).Perm
        (database.picks.rows.map fun row => (row.1, some row.2)) := by
  obtain ⟨picks, hload, hperm⟩ := Database.load_complete orderBy hwritten hopen
  obtain ⟨publishOptions, hpublish⟩ := Option.isSome_iff_exists.mp hpublish
  let service : SubscribeService V1.Pick := .started sorting
    (.backfilled serviceOptions.mPickStoreOptions picks restart) serviceOptions secured
  refine ⟨.started options database service, picks, ?_, rfl, hperm⟩
  simp [Broker.new, hopen, hpublish, hservice, hload, service]

/-- The rows and the loaded picks are the same entries. -/
theorem mem_loaded {picks : List (Int64 × V1.Pick)}
    (hperm : (picks.map fun e => (e.1, codec.serialize e.2)).Perm
      (database.picks.rows.map fun row => (row.1, some row.2))) {t : Int64} {pick : V1.Pick}
    (h : ∃ proto, codec.serialize pick = some proto ∧ (t, proto) ∈ database.picks.rows) :
    (t, pick) ∈ picks := by
  obtain ⟨proto, hproto, hrow⟩ := h
  have hmem : (t, some proto) ∈ picks.map fun e => (e.1, codec.serialize e.2) :=
    hperm.mem_iff.mpr (List.mem_map.mpr ⟨_, hrow, rfl⟩)
  obtain ⟨⟨t', pick'⟩, hpick, hsame⟩ := List.mem_map.mp hmem
  obtain ⟨rfl, hserialize⟩ := Prod.mk.inj hsame
  exact codec.serialize_inj hserialize hproto ▸ hpick

theorem loaded_row {picks : List (Int64 × V1.Pick)}
    (hperm : (picks.map fun e => (e.1, codec.serialize e.2)).Perm
      (database.picks.rows.map fun row => (row.1, some row.2))) {e : Int64 × V1.Pick}
    (he : e ∈ picks) :
    ∃ proto, codec.serialize e.2 = some proto ∧ (e.1, proto) ∈ database.picks.rows := by
  have hmem := hperm.mem_iff.mp (List.mem_map_of_mem (f := fun e => (e.1, codec.serialize e.2)) he)
  obtain ⟨row, hrow, hsame⟩ := List.mem_map.mp hmem
  obtain ⟨htime, hproto⟩ := Prod.mk.inj hsame
  exact ⟨row.2, hproto.symm, htime ▸ hrow⟩

theorem loaded_nodup {picks : List (Int64 × V1.Pick)}
    (hperm : (picks.map fun e => (e.1, codec.serialize e.2)).Perm
      (database.picks.rows.map fun row => (row.1, some row.2))) : picks.Nodup := by
  have hinj : Function.Injective fun row : Int64 × Bytes => (row.1, some row.2) := by
    intro row row' hsame
    obtain ⟨htime, hproto⟩ := Prod.mk.inj hsame
    exact Prod.ext htime (Option.some.inj hproto)
  have hrows := database.picks.rows_nodup.map hinj
  exact (hperm.nodup_iff.mpr hrows).of_map _

/-- A broker that is rebuilt on the table of an old one, however far the old one has come: its
store is sorted, has each pick that survives once and with its received time, and has nothing
that is not in the table. What a subscriber was offered of these picks it is still offered, and
no more than that where no cutoff of the old store was above the one of the new store. -/
theorem restart_keeps_backfill [DecidableEq Bytes] (hwritten : database.Written codec)
    (hnew : Broker.new codec sorting orderBy options (some database) stmt now isSecured = .ok B)
    (events : List BrokerEvent) (restart : Int64) (secured : Bool) :
    let old := (broker codec sorting).final B events
    let tr := (broker codec sorting).trace B events
    ∃ B', Broker.new codec sorting orderBy options (some old.mDatabase.object.reopened) {} restart
        secured = .ok B' ∧
      let store := B'.mPickStore
      let cutoff := restart - store.mMaxHistory
      Ordered store.mDeque ∧
        (∀ t pick, Survives tr cutoff t pick → store.mDeque.count (t, pick) = 1) ∧
        (∀ t pick, (t, pick) ∈ store.mDeque → ∃ proto, codec.serialize pick = some proto ∧
          (t, proto) ∈ old.mDatabase.object.picks.rows) ∧
        ∀ a start clock s s', old.mPickStore.subscribeSince a start clock = .ok s →
          store.subscribeSince a start clock = .ok s' → ∀ t pick, Survives tr cutoff t pick →
            ((t, pick) ∈ s.unread a → (t, pick) ∈ s'.unread a) ∧
              ((∀ time, .cleanedBefore time ∈ tr → time ≤ cutoff) →
                ((t, pick) ∈ s.unread a ↔ (t, pick) ∈ s'.unread a)) := by
  intro old tr
  obtain ⟨serviceOptions, loadedPicks, hservice, _, hpublish, _, rfl⟩ := new_ok hnew
  have hrecorded : Recorded codec old.pipeline tr :=
    recorded_run codec sorting options hwritten _ events
  have hdeduplicated : Deduplicated codec old.pipeline tr :=
    deduplicated_run codec sorting options database _ events
  have hreopened : old.mDatabase.object.reopened.Written codec := hrecorded.written
  have hrebuild : ∃ B' picks, Broker.new codec sorting orderBy options
      (some old.mDatabase.object.reopened) {} restart secured = .ok B' ∧ _ :=
    rebuilt hservice hpublish hreopened rfl restart secured
  obtain ⟨B', picks, hrebuilt, hstore, hperm⟩ := hrebuild
  obtain ⟨hordered, hsubperm, hkeeps⟩ :=
    backfilled_store sorting serviceOptions.mPickStoreOptions picks restart
  rw [← hstore] at hordered hsubperm hkeeps
  have hsurvives : ∀ t pick, Survives tr (restart - B'.mPickStore.mMaxHistory) t pick →
      (t, pick) ∈ B'.mPickStore.mDeque := by
    intro t pick h
    have hrow := inserted_row hdeduplicated (hrecorded.handed t pick h.enqueued) h.undeleted
    exact hkeeps _ (mem_loaded hperm hrow) h.young
  refine ⟨B', hrebuilt, hordered, ?_, ?_, ?_⟩
  · intro t pick h
    obtain ⟨l, hl, hsublist⟩ := hsubperm
    have hnodup := hl.nodup_iff.mp (hsublist.nodup (loaded_nodup hperm))
    exact List.count_eq_one_of_mem hnodup (hsurvives t pick h)
  · intro t pick hmem
    exact loaded_row hperm (hsubperm.subset hmem)
  · intro a start clock s s' hs hs' t pick h
    rw [unread_of_subscribeSince hs, unread_of_subscribeSince hs', mem_since, mem_since]
    refine ⟨fun hold => ⟨hsurvives t pick h, hold.2⟩, ?_⟩
    intro hcleanings
    have hold : (t, pick) ∈ old.mPickStore.mDeque := by
      apply hrecorded.stored t pick h.enqueued
      intro time htime hlt
      exact h.young (lt_of_lt_of_le hlt (hcleanings time htime))
    exact ⟨fun hboth => ⟨hsurvives t pick h, hboth.2⟩, fun hboth => ⟨hold, hboth.2⟩⟩

end Restart

theorem restart_keeps_backfill_samplePick :
    ∃ B', Broker.new Codec.plain (Sorting.stable Int64 V1.Pick) (Sorting.stable Int64 V1.Pick)
        bothServices (some ((broker Codec.plain (Sorting.stable Int64 V1.Pick)).final freshBroker
          (submittedTwice emptyTag)).mDatabase.object.reopened) {} 3 false = .ok B' ∧
      ∀ t pick, Survives ((broker Codec.plain (Sorting.stable Int64 V1.Pick)).trace freshBroker
        (submittedTwice emptyTag)) (3 - B'.mPickStore.mMaxHistory) t pick →
          B'.mPickStore.mDeque.count (t, pick) = 1 := by
  obtain ⟨B', hnew, _, honce, _⟩ := restart_keeps_backfill (Database.written_empty _)
    new_freshBroker (submittedTwice emptyTag) 3 false
  exact ⟨B', hnew, honce⟩

/-- A store that cleans whenever a pick comes, and keeps what is not older than a second. -/
def shortMemory : SubscribeServiceOptions where
  mPickStoreOptions :=
    { mMaximumRetentionDuration := 1, mMaximumQueueCapacity := 1, capacity_pos := one_le_one }

/-- A broker with that store, and a run in which its second pick comes ten seconds after the
first. -/
def forgetful : Broker V1.Pick × List BrokerEvent :=
  (.started { bothServices with mSubscribeServiceOptions := some shortMemory } {}
      (.started (Sorting.stable Int64 V1.Pick) (.backfilled shortMemory.mPickStoreOptions [] 0)
        shortMemory false),
    .addPickCallback samplePick 10000000000 :: processed 10000000000 ++
      .addPickCallback emptyTag 20000000000 :: processed 20000000000)

/-- The clock is set back before the broker is rebuilt: the first pick is offered again. -/
theorem forgetful_offers_more :
    let machine := broker Codec.plain (Sorting.stable Int64 V1.Pick)
    let old := machine.final forgetful.1 forgetful.2
    Broker.new Codec.plain (Sorting.stable Int64 V1.Pick) (Sorting.stable Int64 V1.Pick)
        forgetful.1.mOptions (some {}) {} 0 false = .ok forgetful.1 ∧
      ∃ B' s s', Broker.new Codec.plain (Sorting.stable Int64 V1.Pick)
        (Sorting.stable Int64 V1.Pick) forgetful.1.mOptions
        (some old.mDatabase.object.reopened) {} 10500000000 false = .ok B' ∧
      old.mPickStore.subscribeSince 1 0 0 = .ok s ∧
      B'.mPickStore.subscribeSince 1 0 0 = .ok s' ∧
      Survives (machine.trace forgetful.1 forgetful.2)
        (10500000000 - B'.mPickStore.mMaxHistory) 10000000000 samplePick ∧
      (10000000000, samplePick) ∉ s.unread 1 ∧ (10000000000, samplePick) ∈ s'.unread 1 := by
  refine ⟨rfl, _, _, _, rfl, rfl, rfl, ⟨by decide, ?_, by decide⟩, by decide, by decide⟩
  intro time htime
  have hnone : deletions ((broker Codec.plain (Sorting.stable Int64 V1.Pick)).trace forgetful.1
      forgetful.2) = [] := by decide
  rw [← mem_deletions, hnone] at htime
  cases htime

end PickBroker
