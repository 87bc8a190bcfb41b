import PickBroker.Broker.Refinement

namespace PickBroker

open Framework

namespace Pipeline

variable {Bytes : Type*}

/-- The picks in the store, and the one on its way from the table to it. -/
def held (P : Pipeline Bytes) : List V1.Pick := P.store.map Prod.snd ++ P.hand.unenqueued

/-- The held picks are all in the table, none of them twice. -/
structure Covered (codec : Codec Bytes) (P : Pipeline Bytes) : Prop where
  inTable : ∀ pick ∈ P.held, ∃ proto ∈ P.table.values, codec.serialize pick = some proto
  distinct : (P.held.map codec.serialize).Nodup

/-- A deletion that takes away the row of no held pick. -/
def Spares (codec : Codec Bytes) (P : Pipeline Bytes) (time : Int64) : Prop :=
  ∀ row ∈ P.table.rows, row.1 < time → ∀ pick ∈ P.held, codec.serialize pick ≠ some row.2

instance [DecidableEq Bytes] (codec : Codec Bytes) (P : Pipeline Bytes) (time : Int64) :
    Decidable (P.Spares codec time) :=
  inferInstanceAs (Decidable (∀ row ∈ P.table.rows, row.1 < time → ∀ pick ∈ P.held,
    codec.serialize pick ≠ some row.2))

variable {codec : Codec Bytes} {P P' : Pipeline Bytes}

/-- Held picks may leave. -/
theorem Covered.fewer (h : Covered codec P) (htable : P'.table = P.table)
    (hheld : P'.held.Subperm P.held) : Covered codec P' where
  inTable pick hpick := by
    rw [htable]
    exact h.inTable pick (hheld.subset hpick)
  distinct := by
    obtain ⟨l, hperm, hsublist⟩ := hheld
    exact (hperm.map _).nodup_iff.mp ((hsublist.map _).nodup h.distinct)

/-- A pick that was not in the table may come. -/
theorem Covered.insert [DecidableEq Bytes] (h : Covered codec P) {receivedTime : Int64}
    {pick : V1.Pick} {proto : Bytes} (hproto : codec.serialize pick = some proto)
    (hnew : proto ∉ P.table.values)
    (htable : P'.table = P.table.insertOrIgnore (receivedTime, proto))
    (hheld : P'.held = P.held ++ [pick]) : Covered codec P' := by
  have hvalues : P'.table.values = P.table.values ++ [proto] := by
    rw [htable, UniqueTable.values, UniqueTable.rows_insertOrIgnore hnew, List.map_append]
    rfl
  constructor
  · intro pick' hpick'
    rw [hheld, List.mem_append, List.mem_singleton] at hpick'
    rcases hpick' with hold | rfl
    · obtain ⟨proto', hmem, hserialize⟩ := h.inTable pick' hold
      exact ⟨proto', by rw [hvalues]; exact List.mem_append_left _ hmem, hserialize⟩
    · exact ⟨proto, by rw [hvalues]; exact List.mem_append_right _ (by simp), hproto⟩
  · rw [hheld, List.map_append, List.nodup_append_comm]
    apply List.nodup_cons.mpr
    refine ⟨?_, h.distinct⟩
    intro hmem
    obtain ⟨pick', hpick', hsame⟩ := List.mem_map.mp hmem
    obtain ⟨proto', hvalue, hserialize⟩ := h.inTable pick' hpick'
    rw [hserialize, hproto] at hsame
    exact hnew (Option.some.inj hsame ▸ hvalue)

theorem Covered.delete (h : Covered codec P) {time : Int64} (hspares : P.Spares codec time) :
    Covered codec { P with table := P.table.deleteBefore time } where
  inTable pick hpick := by
    obtain ⟨proto, hproto, hserialize⟩ := h.inTable pick hpick
    obtain ⟨t, hrow⟩ := UniqueTable.mem_values.mp hproto
    have hkept : ¬ t < time := fun hlt => hspares (t, proto) hrow hlt pick hpick hserialize
    exact ⟨proto, UniqueTable.mem_values.mpr ⟨t, UniqueTable.mem_deleteBefore.mpr ⟨hrow, hkept⟩⟩,
      hserialize⟩
  distinct := h.distinct

theorem Covered.step [DecidableEq Bytes] {capacity : ℕ} {actions : List Action}
    (h : Covered codec P) (hspares : ∀ time ∈ deletions actions, P.Spares codec time)
    (hstep : Step codec capacity P actions P') : Covered codec P' := by
  cases hstep with
  | idle hquiet => exact h
  | accept hqueue room pick => exact h.fewer rfl (List.Subperm.refl _)
  | ret hcall => exact h.fewer rfl (List.Subperm.refl _)
  | insert hand hproto hnew =>
    apply h.insert hproto hnew rfl
    simp [held, hand, Hand.unenqueued]
  | enqueue hand clean hperm =>
    refine h.fewer rfl ?_
    have hkept := (clean.sublist.map Prod.snd).append_right P.hand.unenqueued
    refine List.Subperm.trans ?_ hkept.subperm
    simpa [held, hand, Hand.unenqueued] using (hperm.map Prod.snd).subperm
  | throw hand clean e =>
    refine h.fewer rfl ?_
    have hkept := (clean.sublist.map Prod.snd).trans (List.sublist_append_left _ P.hand.unenqueued)
    simpa [held, Hand.unenqueued] using hkept.subperm
  | delete time => exact h.delete (hspares time (by simp [deletions]))
  | take hand | duplicate hand | count hand | fail hand =>
    refine h.fewer rfl ?_
    simp [held, hand, Hand.unenqueued, List.Subperm.refl]

end Pipeline

/-- The cutoff of the deletion a step of the cleaner carries out. -/
def Broker.deletes {Bytes : Type*} (B : Broker Bytes) : BrokerEvent → Option Int64
  | .cleanDatabase _ stmt =>
    match B.databaseCleaner with
    | .deletePicksBefore time =>
      if !B.mDatabase.isReset && B.mDatabase.object.mIsOpen && stmt.prepare && stmt.bindInt64 &&
          stmt.step then some time
      else none
    | _ => none
  | _ => none

/-- The cleaner takes away the row of no pick that is in the store or on its way there. -/
def DeletesNoHeld {Bytes : Type*} (codec : Codec Bytes) (B : Broker Bytes) (event : BrokerEvent) :
    Prop :=
  ∀ time ∈ B.deletes event, B.pipeline.Spares codec time

instance {Bytes : Type*} [DecidableEq Bytes] (codec : Codec Bytes) (B : Broker Bytes)
    (event : BrokerEvent) : Decidable (DeletesNoHeld codec B event) :=
  match h : B.deletes event with
  | none => .isTrue (by simp [DeletesNoHeld, h])
  | some time => decidable_of_iff (B.pipeline.Spares codec time) (by simp [DeletesNoHeld, h])

theorem deletions_cleanDatabase {Bytes : Type*} (B : Broker Bytes) (now : Int64) (stmt : Statement) :
    deletions (B.cleanDatabase now stmt).2 = (B.deletes (.cleanDatabase now stmt)).toList := by
  cases hpc : B.databaseCleaner with
  | isOpen =>
    simp only [Broker.cleanDatabase, Broker.deletes, hpc]
    split <;> rfl
  | deletePicksBefore time =>
    simp only [Broker.cleanDatabase, Broker.deletes, hpc, Database.deletePicksBefore]
    cases B.mDatabase.isReset <;> cases B.mDatabase.object.mIsOpen <;> cases stmt.prepare <;>
      cases stmt.bindInt64 <;> cases stmt.step <;> rfl
  | _ =>
    simp only [Broker.cleanDatabase, Broker.deletes, hpc]
    rfl

theorem deletions_answer {Bytes : Type*} [DecidableEq Bytes] (codec : Codec Bytes)
    (sorting : Sorting Int64 V1.Pick) (B : Broker Bytes) (event : BrokerEvent) :
    deletions ((broker codec sorting).answer B event) = (B.deletes event).toList := by
  cases event with
  | processPick readings =>
    simp only [Machine.answer, broker, Broker.processPick]
    repeat' split
    all_goals rfl
  | cleanDatabase now stmt => exact deletions_cleanDatabase B now stmt
  | stop fetched => rfl
  | _ =>
    refine filterMap_none ?_ (answer_client codec sorting B rfl)
    intro a ha
    cases a <;> first | rfl | cases ha

section Start

variable {Bytes : Type*} {codec : Codec Bytes} {sorting : Sorting Int64 V1.Pick}
  {orderBy : Sorting Int64 Bytes} {options : BrokerOptions} {database : Database Bytes}
  {stmt : LoadStatement} {now : Int64} {isSecured : Bool} {B : Broker Bytes}

/-- What a load yields is covered by the table it was loaded from. -/
theorem loaded_covered {picks : List (Int64 × V1.Pick)}
    (hwritten : database.Written codec) (hload : database.load codec orderBy stmt = .ok picks)
    {P : Pipeline Bytes} (htable : P.table = database.picks) (hheld : P.held = picks.map Prod.snd) :
    P.Covered codec := by
  have hrows := Database.load_written hwritten hload
  have hsorted := orderBy.perm database.picks.rows
  constructor
  · intro pick hpick
    rw [hheld] at hpick
    obtain ⟨e, hmem, rfl⟩ := List.mem_map.mp hpick
    have hrow := hrows.subset (List.mem_map_of_mem hmem)
    obtain ⟨row, hrow, hsame⟩ := List.mem_map.mp hrow
    have hvalue : row.2 ∈ database.picks.values :=
      List.mem_map_of_mem (hsorted.mem_iff.mp hrow)
    exact ⟨row.2, htable ▸ hvalue, (Prod.mk.inj hsame).2.symm⟩
  · have hprotos : (picks.map fun e => codec.serialize e.2).Sublist
        ((orderBy.sort database.picks.rows).map fun row => some row.2) := by
      simpa [Function.comp_def] using hrows.map Prod.snd
    have hunique : ((orderBy.sort database.picks.rows).map fun row => some row.2).Nodup := by
      have hnodup := (hsorted.map Prod.snd).nodup_iff.mpr database.picks.unique
      simpa [Function.comp_def] using hnodup.map (Option.some_injective Bytes)
    rw [hheld, List.map_map]
    exact hprotos.nodup hunique

theorem new_covered (hwritten : database.Written codec)
    (hnew : Broker.new codec sorting orderBy options (some database) stmt now isSecured = .ok B) :
    B.pipeline.Covered codec := by
  obtain ⟨serviceOptions, loadedPicks, _, _, _, hload, rfl⟩ := new_ok hnew
  let start : Construction V1.Pick :=
    .backfilled serviceOptions.mPickStoreOptions loadedPicks now
  have hloaded : Pipeline.Covered codec
      { callbacks := [], queue := [], hand := .empty, table := database.picks
        store := loadedPicks, metrics := {} } :=
    loaded_covered hwritten hload rfl (by simp [Pipeline.held, Hand.unenqueued])
  refine hloaded.fewer rfl ?_
  have hstore : ((start.build sorting).mDeque.map Prod.snd).Subperm (loadedPicks.map Prod.snd) :=
    ((PickStore.cleanDeque_sublist _ _).map Prod.snd).subperm.trans
      ((sorting.perm loadedPicks).map Prod.snd).subperm
  have hheld : (Broker.started options database (.started sorting start serviceOptions
      isSecured)).pipeline.held = (start.build sorting).mDeque.map Prod.snd := List.append_nil _
  rw [hheld]
  simpa [Pipeline.held, Hand.unenqueued] using hstore

/-- As long as the cleaner deletes the row of no pick that is in the store or on its way there,
no two entries of the store hold picks with the same bytes. -/
theorem stored_once [DecidableEq Bytes] (hwritten : database.Written codec)
    (hnew : Broker.new codec sorting orderBy options (some database) stmt now isSecured = .ok B)
    (events : List BrokerEvent)
    (hspares : (broker codec sorting).Meets (DeletesNoHeld codec) B events) :
    (((broker codec sorting).final B events).mPickStore.mDeque.map fun e =>
      codec.serialize e.2).Nodup := by
  have hallowed : ∀ B event, DeletesNoHeld codec B event →
      ∀ time ∈ deletions ((broker codec sorting).answer B event),
        B.pipeline.Spares codec time := by
    intro B event hevent time htime
    rw [deletions_answer, Option.mem_toList] at htime
    exact hevent time htime
  have hcovered := pipeline_invariant codec sorting hallowed
    (fun P actions P' _ (hP : P.Covered codec) hdeletions hstep => hP.step hdeletions hstep)
    (new_covered hwritten hnew) hspares
  have hsublist := List.sublist_append_left
    (((broker codec sorting).final B events).mPickStore.mDeque.map Prod.snd)
    ((broker codec sorting).final B events).pickProcessor.hand.unenqueued
  have hdistinct := (hsublist.map codec.serialize).nodup hcovered.distinct
  rwa [List.map_map] at hdistinct

end Start

/-- The store of the subscribe service cleans before every enqueue but the first. -/
def twoPlaces : SubscribeServiceOptions :=
  { mPickStoreOptions := { mMaximumQueueCapacity := 2 } }

def smallStore : BrokerOptions := { bothServices with mSubscribeServiceOptions := some twoPlaces }

theorem new_smallStore :
    Broker.new Codec.plain (Sorting.stable Int64 V1.Pick) (Sorting.stable Int64 V1.Pick)
      smallStore (some {}) {} 0 false =
      .ok (.started smallStore {} (.started (Sorting.stable Int64 V1.Pick)
        (.backfilled twoPlaces.mPickStoreOptions [] 0) twoPlaces false)) := rfl

/-- A pick is evicted from the store when a quarter of an hour later another one comes, deleted from
the table a quarter of an hour after that, and published again. -/
def publishedAgain : List BrokerEvent :=
  .addPickCallback samplePick 1000000000 :: processed 1000000000 ++
    .addPickCallback otherPhase 1000000000000 :: processed 1000000000000 ++
    cleaned 1860000000000 ++
    .addPickCallback samplePick 1861000000000 :: processed 1861000000000

/-- A pick is published again after the retention interval of the table. -/
def publishedLater : List BrokerEvent :=
  .addPickCallback samplePick 1000000000 :: processed 1000000000 ++ cleaned 1860000000000 ++
    .addPickCallback samplePick 1860000000000 :: processed 1860000000000

theorem stored_once_publishedAgain :
    let start := Broker.started smallStore {} (.started (Sorting.stable Int64 V1.Pick)
      (.backfilled twoPlaces.mPickStoreOptions [] 0) twoPlaces false)
    let B := (broker Codec.plain (Sorting.stable Int64 V1.Pick)).final start publishedAgain
    inserted ((broker Codec.plain (Sorting.stable Int64 V1.Pick)).trace start publishedAgain) =
        [(1000000000, samplePick), (1000000000000, otherPhase), (1861000000000, samplePick)] ∧
      B.mDatabase.object.picks.rows =
        [(1000000000000, otherPhase), (1861000000000, samplePick)] ∧
      (B.mPickStore.mDeque.map fun e => Codec.plain.serialize e.2).Nodup :=
  ⟨by decide, by decide,
    stored_once (Database.written_empty _) new_smallStore publishedAgain (by decide)⟩

/-- The pick of half an hour ago is still stored when its row is gone. -/
theorem publishedLater_stored_twice :
    ¬ (((broker Codec.plain (Sorting.stable Int64 V1.Pick)).final freshBroker
      publishedLater).mPickStore.mDeque.map fun e => Codec.plain.serialize e.2).Nodup := by
  decide

end PickBroker
