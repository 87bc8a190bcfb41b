import PickBroker.Broker.Restart
import PickBroker.Framework.Histories
import PickBroker.Process.Installation

namespace PickBroker

open Framework

/-- What the actions of all lifetimes say about the rows of the picks table. -/
def tableHistory {Bytes : Type*} (codec : Codec Bytes) : History LifetimeAction (Int64 × Bytes) where
  puts action row :=
    ∃ pick, action = .broker (.inserted row.1 pick) ∧ codec.serialize pick = some row.2
  drops action row :=
    action = .removed ∨ ∃ time, action = .broker (.deletedBefore time) ∧ row.1 < time

section Steps

variable {Bytes : Type*} {codec : Codec Bytes}

/-- The actions that neither insert nor delete. -/
def Action.leavesTable : Action → Bool
  | .inserted _ _ | .deletedBefore _ => false
  | _ => true

theorem remains_of_leavesTable {actions : List Action} (h : ∀ a ∈ actions, a.leavesTable = true)
    (initially : Int64 × Bytes → Prop) (row : Int64 × Bytes) :
    (tableHistory codec).Remains initially (actions.map .broker) row ↔ initially row := by
  apply History.remains_of_quiet
  · intro i hi hput
    obtain ⟨a, ha, rfl⟩ := List.mem_map.mp hi
    obtain ⟨pick, hsame, -⟩ := hput
    cases hsame
    cases h _ ha
  · intro i hi hdrop
    obtain ⟨a, ha, rfl⟩ := List.mem_map.mp hi
    rcases hdrop with hsame | ⟨time, hsame, -⟩
    · cases hsame
    · cases hsame
      cases h _ ha

variable [DecidableEq Bytes] {capacity : ℕ} {P P' : Pipeline Bytes} {actions : List Action}

theorem Pipeline.Step.accounts (h : Pipeline.Step codec capacity P actions P')
    (row : Int64 × Bytes) :
    row ∈ P'.table.rows ↔
      (tableHistory codec).Remains (· ∈ P.table.rows) (actions.map .broker) row := by
  cases h with
  | insert hand hproto hnew =>
    rename_i t pick proto
    rw [List.map_singleton, History.remains_singleton, UniqueTable.rows_insertOrIgnore hnew,
      List.mem_append, List.mem_singleton]
    have hput : (tableHistory codec).puts (.broker (.inserted t pick)) row ↔ row = (t, proto) := by
      constructor
      · intro hput
        obtain ⟨pick', hsame, hrow⟩ := hput
        cases hsame
        exact Prod.ext rfl (Option.some.inj (hrow.symm.trans hproto))
      · intro hrow
        exact ⟨pick, by rw [hrow], by rw [hrow]; exact hproto⟩
    have hdrop : ¬ (tableHistory codec).drops (.broker (.inserted t pick)) row := by
      simp [tableHistory]
    rw [hput]
    simp only [hdrop, not_false_eq_true, and_true]
  | delete time =>
    rw [List.map_singleton, History.remains_singleton, UniqueTable.mem_deleteBefore]
    have hput : ¬ (tableHistory codec).puts (.broker (.deletedBefore time)) row := by
      simp [tableHistory]
    have hdrop : (tableHistory codec).drops (.broker (.deletedBefore time)) row ↔
        row.1 < time := by
      simp [tableHistory]
    rw [hdrop]
    simp only [hput, or_false]
  | idle hquiet =>
    refine (remains_of_leavesTable ?_ _ row).symm
    intro a ha
    have hone := hquiet a ha
    cases a <;> first | rfl | cases hone
  | accept hqueue room pick =>
    refine (remains_of_leavesTable ?_ _ row).symm
    intro a ha
    rcases List.mem_append.mp ha with hpopped | hlast
    · obtain ⟨p, -, rfl⟩ := List.mem_map.mp hpopped
      rfl
    · rw [List.mem_singleton.mp hlast]
      rfl
  | _ =>
    refine (remains_of_leavesTable ?_ _ row).symm
    simp [Action.leavesTable]

/-- An insertion is all that happens in its step. -/
theorem Pipeline.Step.inserts_alone (h : Pipeline.Step codec capacity P actions P') {t : Int64}
    {pick : V1.Pick} (hmem : .inserted t pick ∈ actions) : actions = [.inserted t pick] := by
  cases h with
  | idle hquiet => exact absurd (hquiet _ hmem) (by simp [Action.quiet])
  | insert hand hproto hnew =>
    rw [List.mem_singleton.mp hmem]
  | _ => simp at hmem

end Steps

namespace Installation

section Construction

variable {Bytes : Type*} (codec : Codec Bytes) (sorting : Sorting Int64 V1.Pick)
  (orderBy : Sorting Int64 Bytes) (name : FileName) (path : Path Bytes)
  (construction : ProcessConstruction)

/-- What a construction reports of the file. -/
def removal (name : FileName) (path : Path Bytes) (construction : ProcessConstruction) :
    List LifetimeAction :=
  if removes name path construction then [.removed] else []

/-- A construction comes to a process that runs on what is in the file, or to none. -/
theorem construct_cases :
    (∃ path' e, construct codec sorting orderBy name path construction =
        (.stopped path', removal name path construction ++ [.notConstructed e]) ∧
      path' = (Database.construct name path
        (databaseOpenMode path construction.deleteDatabaseIfExists) construction.readings).2 ∧
      ∀ e', (Database.construct name path
        (databaseOpenMode path construction.deleteDatabaseIfExists) construction.readings).1 =
          .error e' → e = e') ∨
      ∃ B opened, construct codec sorting orderBy name path construction =
          (.running B, removal name path construction ++ [.constructed]) ∧
        (Database.construct name path (databaseOpenMode path construction.deleteDatabaseIfExists)
          construction.readings).1 = .ok opened ∧
        Broker.new codec sorting orderBy construction.brokerOptions (some opened.database)
          { construction.stmt with prepare := construction.stmt.prepare && opened.hasTable }
          construction.now construction.isSecured = .ok B := by
  unfold construct
  dsimp only
  split
  · rename_i e path' hdatabase
    rw [hdatabase]
    exact Or.inl ⟨path', e, rfl, rfl, fun e' he => Except.error.inj he⟩
  · rename_i opened path' hdatabase
    rw [hdatabase]
    split
    · rename_i e hbroker
      exact Or.inl ⟨path', e, rfl, rfl, nofun⟩
    · rename_i B hbroker
      exact Or.inr ⟨B, opened, rfl, rfl, hbroker⟩

/-- Without the picks table no broker is constructed. -/
theorem new_hasTable {codec : Codec Bytes} {sorting : Sorting Int64 V1.Pick}
    {orderBy : Sorting Int64 Bytes} {construction : ProcessConstruction}
    {opened : Database.Opened Bytes} {B : Broker Bytes}
    (h : Broker.new codec sorting orderBy construction.brokerOptions (some opened.database)
      { construction.stmt with prepare := construction.stmt.prepare && opened.hasTable }
      construction.now construction.isSecured = .ok B) :
    construction.stmt.prepare = true ∧ opened.hasTable = true := by
  obtain ⟨-, loadedPicks, -, hopen, -, hload, -⟩ := new_ok h
  rw [Database.load, if_neg (by simp [hopen])] at hload
  split at hload
  · cases hload
  · rename_i hprepared
    have hboth : (construction.stmt.prepare && opened.hasTable) = true := by
      by_contra hnot
      have hfails : (!(construction.stmt.prepare && opened.hasTable)) = true := by
        rw [Bool.not_eq_true']
        exact Bool.eq_false_iff.mpr hnot
      exact hprepared hfails
    exact Bool.and_eq_true_iff.mp hboth

theorem new_mDatabase {codec : Codec Bytes} {sorting : Sorting Int64 V1.Pick}
    {orderBy : Sorting Int64 Bytes} {options : BrokerOptions} {database : Database Bytes} {stmt : LoadStatement}
    {now : Int64} {isSecured : Bool} {B : Broker Bytes}
    (h : Broker.new codec sorting orderBy options (some database) stmt now isSecured = .ok B) :
    B.mDatabase.object = database := by
  obtain ⟨-, -, -, -, -, -, rfl⟩ := new_ok h
  rfl

theorem deleteExisting_rows_eq :
    (Database.deleteExisting name path
      (databaseOpenMode path construction.deleteDatabaseIfExists) construction.readings).2.rows =
      if removes name path construction then [] else path.rows := by
  rcases Database.deleteExisting_cases name path
    (databaseOpenMode path construction.deleteDatabaseIfExists) construction.readings
    with hsame | ⟨hexists, hgone⟩
  · have hnot : removes name path construction = false := by
      rw [removes, hsame]
      cases path.fileExists <;> rfl
    rw [hsame, hnot]
    rfl
  · have hremoves : removes name path construction = true := by
      rw [removes, hgone, hexists]
      rfl
    rw [hgone, hremoves]
    rfl

/-- After a construction the rows are those from before, or none. -/
theorem construct_rows :
    (construct codec sorting orderBy name path construction).1.rows =
      if removes name path construction then [] else path.rows := by
  rw [← deleteExisting_rows_eq name path construction]
  obtain ⟨hrows, hopened⟩ := Database.construct_rows name path
    (databaseOpenMode path construction.deleteDatabaseIfExists) construction.readings
  rw [← hrows]
  rcases construct_cases codec sorting orderBy name path construction with
    ⟨path', e, hconstruct, hpath, -⟩ | ⟨B, opened, hconstruct, hdatabase, hbroker⟩
  · rw [hconstruct, hpath]
    rfl
  · obtain ⟨-, htable⟩ := new_hasTable hbroker
    rw [hconstruct, (hopened opened hdatabase).2, htable]
    simp only [rows, new_mDatabase hbroker]
    rfl

/-- What a construction reports accounts for them. -/
theorem remains_construct (action : LifetimeAction)
    (haction : action = .constructed ∨ ∃ e, action = .notConstructed e) (row : Int64 × Bytes) :
    (tableHistory codec).Remains (· ∈ path.rows) (removal name path construction ++ [action]) row ↔
      row ∈ if removes name path construction then [] else path.rows := by
  have hputs : ¬ (tableHistory codec).puts action row := by
    rcases haction with rfl | ⟨e, rfl⟩ <;> simp [tableHistory]
  have hdrops : ¬ (tableHistory codec).drops action row := by
    rcases haction with rfl | ⟨e, rfl⟩ <;> simp [tableHistory]
  rw [History.remains_append, History.remains_singleton]
  simp only [hputs, hdrops, not_false_eq_true, and_true, or_false]
  unfold removal
  split
  · rw [History.remains_singleton]
    simp [tableHistory]
  · exact History.remains_nil

end Construction

section Rows

variable {Bytes : Type*} [DecidableEq Bytes] (codec : Codec Bytes)
  (sorting : Sorting Int64 V1.Pick) (orderBy : Sorting Int64 Bytes) (name : FileName)

/-- Every step accounts for the rows that come and go. -/
theorem accounts (I : Installation Bytes) (event : InstallationEvent) (row : Int64 × Bytes) :
    row ∈ ((installation codec sorting orderBy name).next I event).rows ↔
      (tableHistory codec).Remains (· ∈ I.rows)
        ((installation codec sorting orderBy name).answer I event) row := by
  cases I with
  | stopped path =>
    cases event with
    | construct construction =>
      have hrows : ((installation codec sorting orderBy name).next (.stopped path)
          (.construct construction)).rows =
            if removes name path construction then [] else path.rows :=
        construct_rows codec sorting orderBy name path construction
      rw [hrows]
      rcases construct_cases codec sorting orderBy name path construction with
        ⟨path', e, hconstruct, -⟩ | ⟨B, opened, hconstruct, -⟩
      · simp only [Machine.answer, installation, hconstruct]
        exact (remains_construct codec name path construction _ (Or.inr ⟨e, rfl⟩) row).symm
      · simp only [Machine.answer, installation, hconstruct]
        exact (remains_construct codec name path construction _ (Or.inl rfl) row).symm
    | broker event => exact History.remains_nil.symm
    | ends => exact History.remains_nil.symm
  | running B =>
    cases event with
    | construct construction => exact History.remains_nil.symm
    | broker event => exact (broker_step codec sorting B event).accounts row
    | ends => exact History.remains_nil.symm

/-- What is inserted is inserted by the processor of a broker, and all there is to its step. -/
theorem inserted_cases {I : Installation Bytes} {event : InstallationEvent} {t : Int64}
    {pick : V1.Pick}
    (h : .broker (.inserted t pick) ∈ (installation codec sorting orderBy name).answer I event) :
    (installation codec sorting orderBy name).answer I event = [.broker (.inserted t pick)] ∧
      ∃ proto, codec.serialize pick = some proto ∧ ∀ t', (t', proto) ∉ I.rows := by
  cases I with
  | stopped path =>
    exfalso
    cases event with
    | construct construction =>
      have hremoval : .broker (.inserted t pick) ∉ removal name path construction := by
        unfold removal
        split <;> simp
      rcases construct_cases codec sorting orderBy name path construction with
        ⟨path', e, hconstruct, -⟩ | ⟨B, opened, hconstruct, -⟩ <;>
        simp [Machine.answer, installation, hconstruct, hremoval] at h
    | broker event => cases h
    | ends => cases h
  | running B =>
    cases event with
    | construct construction => cases h
    | broker event =>
      have hstep := broker_step codec sorting B event
      have hmem : .inserted t pick ∈ (broker codec sorting).answer B event := by
        obtain ⟨action, haction, hsame⟩ := List.mem_map.mp h
        cases hsame
        exact haction
      have halone := hstep.inserts_alone hmem
      obtain ⟨proto, hproto, hnew, -⟩ := hstep.inserts hmem
      refine ⟨congrArg (List.map LifetimeAction.broker) halone, proto, hproto, ?_⟩
      intro t' hrow
      exact hnew (UniqueTable.mem_values.mpr ⟨t', hrow⟩)
    | ends => cases h

/-- No row is inserted where the same bytes are. -/
theorem fresh (I : Installation Bytes) (event : InstallationEvent)
    (before : List LifetimeAction) (x : LifetimeAction) (after : List LifetimeAction)
    (b : Int64 × Bytes)
    (hsplit : (installation codec sorting orderBy name).answer I event = before ++ x :: after)
    (hput : (tableHistory codec).puts x b) (a : Int64 × Bytes) (hsame : a.2 = b.2) :
    ¬ (tableHistory codec).Remains (· ∈ I.rows) before a := by
  obtain ⟨pick, rfl, hserialize⟩ := hput
  have hmem : .broker (.inserted b.1 pick) ∈
      (installation codec sorting orderBy name).answer I event := by
    rw [hsplit]
    simp
  obtain ⟨halone, proto, hproto, hnew⟩ := inserted_cases codec sorting orderBy name hmem
  have hnil : before = [] := by
    rw [halone] at hsplit
    cases before with
    | nil => rfl
    | cons y before => simp at hsplit
  have hbytes : a.2 = proto := hsame.trans (Option.some.inj (hserialize.symm.trans hproto))
  rw [hnil, History.remains_nil]
  intro ha
  have hrow : (a.1, proto) ∈ I.rows := by
    rw [← hbytes]
    exact ha
  exact hnew a.1 hrow

theorem inserted_serializes {I : Installation Bytes} {events : List InstallationEvent} {t : Int64}
    {pick : V1.Pick}
    (h : .broker (.inserted t pick) ∈ (installation codec sorting orderBy name).trace I events) :
    ∃ proto, codec.serialize pick = some proto := by
  induction events generalizing I with
  | nil => cases h
  | cons event events ih =>
    rcases List.mem_append.mp h with hfirst | hlater
    · obtain ⟨-, proto, hproto, -⟩ := inserted_cases codec sorting orderBy name hfirst
      exact ⟨proto, hproto⟩
    · exact ih hlater

end Rows

end Installation

/-- The rows of the database after a run. -/
theorem stored_rows {Bytes : Type*} [DecidableEq Bytes] (codec : Codec Bytes)
    (sorting : Sorting Int64 V1.Pick) (orderBy : Sorting Int64 Bytes) (name : FileName)
    (I : Installation Bytes) (events : List InstallationEvent) (row : Int64 × Bytes) :
    row ∈ ((installation codec sorting orderBy name).final I events).rows ↔
      (tableHistory codec).Remains (· ∈ I.rows)
        ((installation codec sorting orderBy name).trace I events) row :=
  (installation codec sorting orderBy name).holds_iff_remains (fun I row => row ∈ I.rows)
    (Installation.accounts codec sorting orderBy name) I events row

/-- Over any number of lifetimes, whether their constructions succeed or fail, whatever their threads
do and whenever they end, the rows of the database are exactly those that were there before or have
been inserted, less what has been deleted since; and no pick is inserted twice, unless it has been
deleted in between. -/
theorem stored_across_lifetimes {Bytes : Type*} [DecidableEq Bytes] (codec : Codec Bytes)
    (sorting : Sorting Int64 V1.Pick) (orderBy : Sorting Int64 Bytes) (name : FileName)
    (I : Installation Bytes) (events : List InstallationEvent) :
    let tr := (installation codec sorting orderBy name).trace I events
    (∀ row, row ∈ ((installation codec sorting orderBy name).final I events).rows ↔
        (tableHistory codec).Remains (· ∈ I.rows) tr row) ∧
      ∀ before t pick middle t' after,
        tr = before ++ .broker (.inserted t pick) :: middle ++ .broker (.inserted t' pick) :: after →
          .removed ∈ middle ∨ ∃ time, .broker (.deletedBefore time) ∈ middle ∧ t < time := by
  intro tr
  have haccounts := Installation.accounts codec sorting orderBy name
  refine ⟨stored_rows codec sorting orderBy name I events, ?_⟩
  intro before t pick middle t' after hsplit
  have hmem : .broker (.inserted t pick) ∈ tr := by simp [hsplit]
  obtain ⟨proto, hproto⟩ := Installation.inserted_serializes codec sorting orderBy name hmem
  have hgone := (installation codec sorting orderBy name).conflicting_gone
    (fun I row => row ∈ I.rows) (fun a b => a.2 = b.2) haccounts
    (Installation.fresh codec sorting orderBy name) hsplit (b := (t', proto)) ⟨pick, rfl, hproto⟩
    (a := (t, proto)) rfl
  by_contra hnone
  push Not at hnone
  obtain ⟨hremoved, hdeleted⟩ := hnone
  refine hgone (Or.inr ⟨before, _, middle, rfl, ⟨pick, rfl, hproto⟩, ?_⟩)
  intro action haction hdrop
  rcases hdrop with rfl | ⟨time, rfl, hlt⟩
  · exact hremoved haction
  · exact absurd hlt (hdeleted time haction).not_gt

section Backfill

variable {Bytes : Type*} [DecidableEq Bytes] {codec : Codec Bytes}
  {sorting : Sorting Int64 V1.Pick} {orderBy : Sorting Int64 Bytes} {name : FileName}

/-- The pick is in the database with this received time, as all lifetimes have left it. -/
def InDatabase (codec : Codec Bytes) (I : Installation Bytes) (tr : List LifetimeAction)
    (t : Int64) (pick : V1.Pick) : Prop :=
  ∃ proto, codec.serialize pick = some proto ∧
    (tableHistory codec).Remains (· ∈ I.rows) tr (t, proto)

/-- The rows of all lifetimes hold picks. -/
theorem rows_written (sorting : Sorting Int64 V1.Pick) (orderBy : Sorting Int64 Bytes)
    (name : FileName) {I : Installation Bytes}
    (h : ∀ row ∈ I.rows, ∃ pick, codec.serialize pick = some row.2)
    (events : List InstallationEvent) :
    ∀ row ∈ ((installation codec sorting orderBy name).final I events).rows,
      ∃ pick, codec.serialize pick = some row.2 := by
  intro row hrow
  have hremains := ((stored_rows codec sorting orderBy name I events) row).mp hrow
  rcases hremains with ⟨hbefore, -⟩ | ⟨before, action, after, -, ⟨pick, -, hproto⟩, -⟩
  · exact h row hbefore
  · exact ⟨pick, hproto⟩

/-- Whatever has happened in the lifetimes before, a process whose constructor has read all rows
offers every pick in the database once, with its received time, unless it is older than the store
remembers, in the order of their times; and it offers nothing else. -/
theorem backfilled_across_lifetimes {I : Installation Bytes}
    (hwritten : ∀ row ∈ I.rows, ∃ pick, codec.serialize pick = some row.2)
    (events : List InstallationEvent) {path : Path Bytes} {construction : ProcessConstruction}
    {B : Broker Bytes}
    (hstopped : (installation codec sorting orderBy name).final I events = .stopped path)
    (hrunning : (installation codec sorting orderBy name).final I
      (events ++ [.construct construction]) = .running B)
    (hload : construction.stmt.yields = none) :
    let tr := (installation codec sorting orderBy name).trace I
      (events ++ [.construct construction])
    let store := B.mPickStore
    Ordered store.mDeque ∧
      (∀ t pick, InDatabase codec I tr t pick → ¬ t < construction.now - store.mMaxHistory →
        store.mDeque.count (t, pick) = 1) ∧
      ∀ t pick, (t, pick) ∈ store.mDeque → InDatabase codec I tr t pick := by
  intro tr store
  have hrows := stored_rows codec sorting orderBy name I (events ++ [.construct construction])
  have hpicks := rows_written sorting orderBy name hwritten (events ++ [.construct construction])
  rw [hrunning] at hrows hpicks
  rw [Machine.final_append, hstopped] at hrunning
  rcases Installation.construct_cases codec sorting orderBy name path construction with
    ⟨path', e, hconstruct, -⟩ | ⟨B', opened, hconstruct, -, hnew⟩
  · have hstep : Installation.stopped path' = .running B :=
      (congrArg Prod.fst hconstruct).symm.trans hrunning
    cases hstep
  have hstep : Installation.running B' = .running B :=
    (congrArg Prod.fst hconstruct).symm.trans hrunning
  cases hstep
  obtain ⟨hprepare, htable⟩ := Installation.new_hasTable hnew
  have hstmt : ({ construction.stmt with
      prepare := construction.stmt.prepare && opened.hasTable } : LoadStatement) = {} := by
    show LoadStatement.mk (construction.stmt.prepare && opened.hasTable) construction.stmt.yields =
      LoadStatement.mk true none
    rw [hprepare, htable, hload]
    rfl
  rw [hstmt] at hnew
  obtain ⟨serviceOptions, -, hservice, hopen, hpublish, -, -⟩ := new_ok hnew
  have hdatabase := Installation.new_mDatabase hnew
  have hwritten' : opened.database.Written codec := by
    intro row hrow
    exact hpicks row (by rw [Installation.rows, hdatabase]; exact hrow)
  have hrebuilt : ∃ B' picks, Broker.new codec sorting orderBy construction.brokerOptions
      (some opened.database) {} construction.now construction.isSecured = .ok B' ∧ _ :=
    rebuilt hservice hpublish hwritten' hopen construction.now construction.isSecured
  obtain ⟨B', picks, hagain, hstore, hperm⟩ := hrebuilt
  have hsame : B' = B := Except.ok.inj (hagain.symm.trans hnew)
  subst hsame
  have hrow : ∀ row, row ∈ opened.database.picks.rows ↔
      (tableHistory codec).Remains (· ∈ I.rows) tr row := by
    intro row
    rw [← hrows row, Installation.rows, hdatabase]
  obtain ⟨hordered, hsubperm, hkeeps⟩ :=
    backfilled_store sorting serviceOptions.mPickStoreOptions picks construction.now
  rw [← hstore] at hordered hsubperm hkeeps
  refine ⟨hordered, ?_, ?_⟩
  · intro t pick hin hyoung
    obtain ⟨proto, hproto, hremains⟩ := hin
    have hmem := mem_loaded hperm ⟨proto, hproto, (hrow _).mpr hremains⟩
    obtain ⟨l, hl, hsublist⟩ := hsubperm
    have hnodup := hl.nodup_iff.mp (hsublist.nodup (loaded_nodup hperm))
    exact List.count_eq_one_of_mem hnodup (hkeeps _ hmem hyoung)
  · intro t pick hmem
    obtain ⟨proto, hproto, hstored⟩ := loaded_row hperm (hsubperm.subset hmem)
    exact ⟨proto, hproto, (hrow _).mp hstored⟩

end Backfill

/-- A process that is constructed with both services. -/
def bothConstructed : ProcessConstruction := { brokerOptions := bothServices, isSecured := false }

def sampleFile : FileName := { fileName := "picks.sqlite3", parent_path := "" }

/-- A file with one pick. -/
def sampleTable : UniqueTable Int64 V1.Pick :=
  { rows := [(1, samplePick)], unique := List.nodup_singleton _ }

/-- The file when another pick has come. -/
def grownTable : UniqueTable Int64 V1.Pick :=
  { rows := [(1, samplePick), (2, otherPhase)], unique := by decide }

/-- The broker that has loaded a table of picks in order. -/
def loadedBroker (picks : UniqueTable Int64 V1.Pick) : Broker V1.Pick :=
  .started bothServices { picks := picks }
    (.started (Sorting.stable Int64 V1.Pick) (.backfilled {} picks.rows 0) {} false)

/-- The lifetimes on this file. -/
def sampleInstallation : Machine (Installation V1.Pick) InstallationEvent (List LifetimeAction) :=
  installation Codec.plain (Sorting.stable Int64 V1.Pick) (Sorting.stable Int64 V1.Pick) sampleFile

theorem next_loadedBroker :
    sampleInstallation.next (.stopped (.file (some sampleTable))) (.construct bothConstructed) =
        .running (loadedBroker sampleTable) ∧
      sampleInstallation.next (.stopped (.file (some grownTable))) (.construct bothConstructed) =
        .running (loadedBroker grownTable) := ⟨rfl, rfl⟩

/-- A process takes another pick to its table, and ends. -/
def oneLifetime : List InstallationEvent :=
  .construct bothConstructed :: (.addPickCallback otherPhase 2 :: processed 2).map .broker ++ [.ends]

theorem final_running (B : Broker V1.Pick) (events : List BrokerEvent) :
    sampleInstallation.final (.running B) (events.map .broker) =
      .running ((broker Codec.plain (Sorting.stable Int64 V1.Pick)).final B events) := by
  induction events generalizing B with
  | nil => rfl
  | cons event events ih =>
    exact ih ((broker Codec.plain (Sorting.stable Int64 V1.Pick)).next B event)

theorem final_oneLifetime :
    sampleInstallation.final (.stopped (.file (some sampleTable))) oneLifetime =
      .stopped (.file (some grownTable)) := by
  have hgrown : ((broker Codec.plain (Sorting.stable Int64 V1.Pick)).final
      (loadedBroker sampleTable) (.addPickCallback otherPhase 2 :: processed 2)).mDatabase.object.picks =
        grownTable := rfl
  rw [oneLifetime, List.cons_append, Machine.final_cons, next_loadedBroker.1, Machine.final_append,
    final_running, ← hgrown]
  rfl

/-- The second process offers the pick that was there at first and the one the first process has
inserted. -/
theorem backfilled_across_lifetimes_sampleTable :
    Ordered (loadedBroker grownTable).mPickStore.mDeque ∧
      (loadedBroker grownTable).mPickStore.mDeque.count (1, samplePick) = 1 ∧
      (loadedBroker grownTable).mPickStore.mDeque.count (2, otherPhase) = 1 := by
  have hwritten : ∀ row ∈ (Installation.stopped (.file (some sampleTable))).rows,
      ∃ pick, Codec.plain.serialize pick = some row.2 := fun row _ => ⟨row.2, rfl⟩
  have hagain : sampleInstallation.final (.stopped (.file (some sampleTable)))
      (oneLifetime ++ [.construct bothConstructed]) = .running (loadedBroker grownTable) := by
    rw [Machine.final_append, final_oneLifetime]
    exact next_loadedBroker.2
  have htrace : (installation Codec.plain (Sorting.stable Int64 V1.Pick)
      (Sorting.stable Int64 V1.Pick) sampleFile).trace (.stopped (.file (some sampleTable)))
      (oneLifetime ++ [.construct bothConstructed]) =
        [.constructed, .broker (.accepted otherPhase), .broker (.took otherPhase),
          .broker (.inserted 2 otherPhase), .broker (.cleanedBefore (2 - 900000000000)),
          .broker (.enqueued 2 otherPhase), .constructed] := by decide
  obtain ⟨hordered, honce, -⟩ := backfilled_across_lifetimes hwritten oneLifetime
    final_oneLifetime hagain rfl
  rw [htrace] at honce
  refine ⟨hordered, honce 1 samplePick ⟨samplePick, rfl, Or.inl ⟨?_, ?_⟩⟩ (by decide),
    honce 2 otherPhase ⟨otherPhase, rfl, Or.inr ?_⟩ (by decide)⟩
  · simp [Installation.rows, Path.rows, sampleTable]
  · simp [History.Spares, tableHistory]
  · refine ⟨[.constructed, .broker (.accepted otherPhase), .broker (.took otherPhase)],
      .broker (.inserted 2 otherPhase), [.broker (.cleanedBefore (2 - 900000000000)),
      .broker (.enqueued 2 otherPhase), .constructed], rfl, ?_, ?_⟩
    · exact ⟨otherPhase, rfl, rfl⟩
    · simp [History.Spares, tableHistory]

end PickBroker
