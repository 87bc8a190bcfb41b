import PickBroker.Broker.Broker
import PickBroker.Database.Table
import PickBroker.Store.Cutoffs

namespace PickBroker

open Framework

variable {Pick Bytes : Type*}

/-- The retention interval in nanoseconds, whatever its size. -/
def BrokerOptions.retention (options : BrokerOptions) : ℤ := options.mPickRetention.toInt * 1000000

def BrokerOptions.InRange (now : Int64) (options : BrokerOptions) : Prop :=
  options.retention ≤ now.toInt + 2 ^ 63

namespace Broker

/-- The cleaner has come to the database, and it is open. -/
structure Cleans (B : Broker Bytes) : Prop where
  cleaner : B.databaseCleaner = .isOpen
  isSet : B.mDatabase.isReset = false
  isOpen : B.mDatabase.object.mIsOpen = true

/-- The cleaner's part from `isOpen` to the delete statement, without another thread. -/
def purge (B : Broker Bytes) (now : Int64) (stmt : Statement) : Broker Bytes :=
  (((B.cleanDatabase now stmt).1.cleanDatabase now stmt).1.cleanDatabase now stmt).1

end Broker

/-- What the threads of a broker do to its database. -/
inductive TableCall where
  | add (receivedTime : Int64) (pick : V1.Pick) (stmt : Statement)
  | cleanDatabase (now : Int64) (stmt : Statement)

/-- The call that is with these options. -/
def TableCall.call (options : BrokerOptions) : TableCall → DatabaseCall
  | .add receivedTime pick stmt => .add receivedTime pick stmt
  | .cleanDatabase now stmt => .deletePicksBefore (now - options.mPickRetention * 1000000) stmt

/-- The clock readings of the cleaner. -/
def cleanerClocks (calls : List TableCall) : List Int64 :=
  calls.filterMap fun
    | .cleanDatabase now _ => some now
    | _ => none

/-- The cutoff of the database cleaner. -/
def DatabaseCutoff (Bytes : Type*) (options : BrokerOptions) (now : Int64) : Prop :=
  ∀ B : Broker Bytes, B.mOptions = options → B.Cleans → ∀ stmt, ∃ oldestLoadTime,
    (B.cleanDatabase now stmt).1.databaseCleaner = .readDatabaseAgain oldestLoadTime ∧
      ClampedTo oldestLoadTime (now.toInt - options.retention)

/-- The database behind a part of a run, with these options. -/
def tableAfter [DecidableEq Bytes] (codec : Codec Bytes) (orderBy : Sorting Int64 Bytes)
    (options : BrokerOptions) (db : Database Bytes) (calls : List TableCall) : Database Bytes :=
  (pickDatabase codec orderBy).final db (calls.map (TableCall.call options))

/-- At every clock reading of a run the cutoffs are right with both retention intervals, and all
along the run the table with the longer one holds every pick that the table with the shorter one
holds. -/
structure DatabaseRetains [DecidableEq Bytes] (codec : Codec Bytes) (orderBy : Sorting Int64 Bytes)
    (db : Database Bytes) (shorter longer : BrokerOptions) (calls : List TableCall) : Prop where
  shorter_cutoff : ∀ now ∈ cleanerClocks calls, DatabaseCutoff Bytes shorter now
  longer_cutoff : ∀ now ∈ cleanerClocks calls, DatabaseCutoff Bytes longer now
  keeps : shorter.retention ≤ longer.retention → ∀ before, before <+: calls →
    ∀ proto ∈ (tableAfter codec orderBy shorter db before).picks.values,
      proto ∈ (tableAfter codec orderBy longer db before).picks.values

/-- Before a deletion that completes: a pick that was published again, and so is stored with
different received times in the two tables, is not just given up in the second table and still
kept in the first one. -/
def SparesRepublished (retention retention' : ℤ) (tables : Database Bytes × Database Bytes) :
    TableCall → Prop
  | .cleanDatabase now stmt =>
    tables.1.mIsOpen = true → stmt.deletes = true →
      ∀ row ∈ tables.1.picks.rows, ∀ row' ∈ tables.2.picks.rows, row.2 = row'.2 → row.1 ≠ row'.1 →
        row'.1.toInt < now.toInt - retention' → row.1.toInt < now.toInt - retention
  | .add _ _ _ => True

/-- A run of two databases that differ in the retention interval only. -/
def CleanAlike [DecidableEq Bytes] (codec : Codec Bytes) (orderBy : Sorting Int64 Bytes)
    (db : Database Bytes) (shorter longer : BrokerOptions) (calls : List TableCall) : Prop :=
  ((pickDatabase codec orderBy).beside (pickDatabase codec orderBy) (TableCall.call shorter)
    (TableCall.call longer)).Meets (SparesRepublished shorter.retention longer.retention) (db, db)
    calls

namespace Broker

variable {B : Broker Bytes}

theorem Cleans.next (h : B.Cleans) (now : Int64) (stmt : Statement) :
    (B.cleanDatabase now stmt).1 =
      { B with databaseCleaner := .readDatabaseAgain (now - B.mOptions.mPickRetention * 1000000) } := by
  simp only [cleanDatabase, h.cleaner, h.isSet, h.isOpen, Bool.false_eq_true, if_false, if_true]

/-- A pass of the cleaner does to the database what the call does. -/
theorem Cleans.purge_object [DecidableEq Bytes] (codec : Codec Bytes)
    (orderBy : Sorting Int64 Bytes) (h : B.Cleans) (now : Int64) (stmt : Statement) :
    (B.purge now stmt).mDatabase.object = (pickDatabase codec orderBy).next B.mDatabase.object
      ((TableCall.cleanDatabase now stmt).call B.mOptions) := by
  rw [purge, h.next]
  simp only [cleanDatabase, h.isSet, Bool.false_eq_true, if_false]
  split <;> rfl

end Broker

section Cutoff

variable {now : Int64}

/-- Some broker with these options cleans its database. -/
def cleaningBroker (Bytes : Type*) (options : BrokerOptions) : Broker Bytes :=
  { Broker.started options {}
      (.started (Sorting.stable Int64 V1.Pick) (.new {}) {} false) with
    databaseCleaner := .isOpen }

/-- Every broker with these options computes the same cutoff. -/
theorem databaseCutoff_iff_clampedTo (Bytes : Type*) (options : BrokerOptions) (now : Int64) :
    DatabaseCutoff Bytes options now ↔
      ClampedTo (now - options.mPickRetention * 1000000) (now.toInt - options.retention) := by
  constructor
  · intro h
    have hcleans : (cleaningBroker Bytes options).Cleans := ⟨rfl, rfl, rfl⟩
    obtain ⟨oldestLoadTime, hcleaner, hcutoff⟩ := h _ rfl hcleans .ok
    rw [hcleans.next] at hcleaner
    obtain rfl := DatabaseCleaner.readDatabaseAgain.inj hcleaner
    exact hcutoff
  · intro h B hoptions hcleans stmt
    refine ⟨_, by rw [hcleans.next], ?_⟩
    rw [hoptions]
    exact h

theorem databaseCutoff_iff (Bytes : Type*) (options : BrokerOptions) (now : Int64) :
    DatabaseCutoff Bytes options now ↔ options.InRange now := by
  have hpos : 0 < options.mPickRetention.toInt := Int64.lt_iff_toInt_lt.mp options.retention_pos
  have hunit : (1000000 : Int64).toInt = 1000000 := rfl
  have hiff := sub_mul_clamped_iff now options.mPickRetention 1000000
  rw [hunit] at hiff
  rw [databaseCutoff_iff_clampedTo]
  exact hiff (by omega)

theorem DatabaseCutoff.toInt_eq {options : BrokerOptions} (h : DatabaseCutoff Bytes options now) :
    (now - options.mPickRetention * 1000000).toInt = now.toInt - options.retention := by
  have hpos : 0 < options.mPickRetention.toInt := Int64.lt_iff_toInt_lt.mp options.retention_pos
  have hretention : options.retention = options.mPickRetention.toInt * 1000000 := rfl
  have hupper := now.toInt_lt
  have hclamped := (databaseCutoff_iff_clampedTo Bytes options now).mp h
  exact hclamped.toInt_eq (by omega)

end Cutoff

section Table

variable {now : Int64} {db db' : Database Bytes}

/-- A deletion deletes when the database is open and the statement completes. -/
theorem picks_deletePicksBefore (db : Database Bytes) (time : Int64) (stmt : Statement) :
    (db.deletePicksBefore time stmt).2.picks =
      if db.mIsOpen = true ∧ stmt.deletes = true then db.picks.deleteBefore time else db.picks := by
  rw [Database.deletePicksBefore, Statement.deletes]
  cases db.mIsOpen <;> cases stmt.prepare <;> cases stmt.bindInt64 <;> cases stmt.step <;> rfl

/-- Of a smaller table no more values are left exactly when no value whose row is deleted from the
larger one has another row that stays in the smaller one. -/
theorem deleteBefore_values_iff {T T' : UniqueTable Int64 Bytes}
    (hsub : ∀ b ∈ T.values, b ∈ T'.values) {t t' : Int64} (hle : t' ≤ t) :
    (∀ b ∈ (T.deleteBefore t).values, b ∈ (T'.deleteBefore t').values) ↔
      ∀ row ∈ T.rows, ∀ row' ∈ T'.rows, row.2 = row'.2 → row.1 ≠ row'.1 → row'.1 < t' →
        row.1 < t := by
  constructor
  · intro h row hrow row' hrow' hsame _ hold
    by_contra hyoung
    have hkept : row.2 ∈ (T.deleteBefore t).values :=
      UniqueTable.mem_values.mpr ⟨row.1, UniqueTable.mem_deleteBefore.mpr ⟨hrow, hyoung⟩⟩
    obtain ⟨time, htime⟩ := UniqueTable.mem_values.mp (h row.2 hkept)
    obtain ⟨hmem, hyoung'⟩ := UniqueTable.mem_deleteBefore.mp htime
    have heq : (time, row.2) = row' := List.inj_on_of_nodup_map T'.unique hmem hrow' hsame
    rw [← heq] at hold
    exact hyoung' hold
  · intro h b hb
    obtain ⟨time, htime⟩ := UniqueTable.mem_values.mp hb
    obtain ⟨hmem, hyoung⟩ := UniqueTable.mem_deleteBefore.mp htime
    obtain ⟨time', hmem'⟩ :=
      UniqueTable.mem_values.mp (hsub b (UniqueTable.mem_values.mpr ⟨time, hmem⟩))
    refine UniqueTable.mem_values.mpr ⟨time', UniqueTable.mem_deleteBefore.mpr ⟨hmem', ?_⟩⟩
    intro hold
    by_cases htimes : time = time'
    · have hbefore : time < t := htimes ▸ lt_of_lt_of_le hold hle
      exact hyoung hbefore
    · exact hyoung (h _ hmem _ hmem' rfl htimes hold)

variable [DecidableEq Bytes] {codec : Codec Bytes} {orderBy : Sorting Int64 Bytes}

theorem mem_values_add (db : Database Bytes) (receivedTime : Int64) (pick : V1.Pick)
    (stmt : Statement) (proto : Bytes) :
    proto ∈ (db.add codec receivedTime pick stmt).2.picks.values ↔
      proto ∈ db.picks.values ∨ Database.Ready codec db pick stmt proto := by
  by_cases hready : ∃ proto', Database.Ready codec db pick stmt proto'
  · obtain ⟨proto', hready⟩ := hready
    have hother : Database.Ready codec db pick stmt proto ↔ proto = proto' := by
      constructor
      · intro h
        exact Option.some.inj (h.serialize.symm.trans hready.serialize)
      · rintro rfl
        exact hready
    rw [Database.add_ready hready, hother]
    by_cases hold : proto' ∈ db.picks.values
    · rw [if_pos hold]
      constructor
      · exact Or.inl
      · rintro (hmem | rfl)
        · exact hmem
        · exact hold
    · rw [if_neg hold, UniqueTable.values, UniqueTable.rows_insertOrIgnore hold, List.map_append,
        List.mem_append]
      simp [UniqueTable.values]
  · obtain ⟨e, -, hadd⟩ := Database.add_not_ready (not_exists.mp hready) receivedTime
    rw [hadd]
    constructor
    · exact Or.inl
    · rintro (hmem | h)
      · exact hmem
      · exact absurd ⟨proto, h⟩ hready

/-- A call leaves the database open or closed. -/
theorem next_mIsOpen (db : Database Bytes) (call : DatabaseCall) :
    ((pickDatabase codec orderBy).next db call).mIsOpen = db.mIsOpen := by
  cases call with
  | add receivedTime pick stmt =>
    rcases db.add_cases codec receivedTime pick stmt with
      ⟨proto, -, -, hadd⟩ | ⟨proto, -, -, hadd⟩ | ⟨e, -, hadd⟩
    all_goals exact congrArg (fun result => result.2.mIsOpen) hadd
  | deletePicksBefore time stmt =>
    show (db.deletePicksBefore time stmt).2.mIsOpen = _
    rw [Database.deletePicksBefore]
    split
    · rfl
    split
    · rfl
    split
    · rfl
    · cases stmt.step <;> rfl
  | load stmt => rfl

/-- One call: the table with the longer interval goes on holding more exactly when the cleaner
spares what was published again. -/
theorem values_next_iff {shorter longer : BrokerOptions} (hopen : db.mIsOpen = db'.mIsOpen)
    (hsub : ∀ proto ∈ db.picks.values, proto ∈ db'.picks.values)
    (hle : shorter.retention ≤ longer.retention) (call : TableCall)
    (hshorter : ∀ now stmt, call = .cleanDatabase now stmt →
      (now - shorter.mPickRetention * 1000000).toInt = now.toInt - shorter.retention)
    (hlonger : ∀ now stmt, call = .cleanDatabase now stmt →
      (now - longer.mPickRetention * 1000000).toInt = now.toInt - longer.retention) :
    (∀ proto ∈ ((pickDatabase codec orderBy).next db (call.call shorter)).picks.values,
      proto ∈ ((pickDatabase codec orderBy).next db' (call.call longer)).picks.values) ↔
      SparesRepublished shorter.retention longer.retention (db, db') call := by
  cases call with
  | add receivedTime pick stmt =>
    apply iff_of_true _ trivial
    intro proto hproto
    apply (mem_values_add db' receivedTime pick stmt proto).mpr
    rcases (mem_values_add db receivedTime pick stmt proto).mp hproto with hold | hready
    · exact Or.inl (hsub proto hold)
    · exact Or.inr { hready with isOpen := hopen ▸ hready.isOpen }
  | cleanDatabase now stmt =>
    have hvalue := hshorter now stmt rfl
    have hvalue' := hlonger now stmt rfl
    have hcutoff : now - longer.mPickRetention * 1000000 ≤
        now - shorter.mPickRetention * 1000000 := by
      rw [Int64.le_iff_toInt_le, hvalue, hvalue']
      omega
    show (∀ proto ∈ (db.deletePicksBefore _ stmt).2.picks.values,
      proto ∈ (db'.deletePicksBefore _ stmt).2.picks.values) ↔ _
    rw [picks_deletePicksBefore, picks_deletePicksBefore, ← hopen, SparesRepublished]
    by_cases hdeletes : db.mIsOpen = true ∧ stmt.deletes = true
    · rw [if_pos hdeletes, if_pos hdeletes, deleteBefore_values_iff hsub hcutoff]
      simp only [Int64.lt_iff_toInt_lt, hvalue, hvalue']
      constructor
      · intro h _ _
        exact h
      · intro h
        exact h hdeletes.1 hdeletes.2
    · rw [if_neg hdeletes, if_neg hdeletes]
      apply iff_of_true hsub
      intro hisOpen hstmt
      exact absurd ⟨hisOpen, hstmt⟩ hdeletes

theorem mem_cleanerClocks {calls : List TableCall} {stmt : Statement}
    (h : .cleanDatabase now stmt ∈ calls) : now ∈ cleanerClocks calls :=
  List.mem_filterMap.mpr ⟨_, h, rfl⟩

theorem tables_keep_iff {shorter longer : BrokerOptions} {calls : List TableCall}
    (hle : shorter.retention ≤ longer.retention)
    (hshorter : ∀ now ∈ cleanerClocks calls, DatabaseCutoff Bytes shorter now)
    (hlonger : ∀ now ∈ cleanerClocks calls, DatabaseCutoff Bytes longer now) :
    (∀ before, before <+: calls →
      ∀ proto ∈ (tableAfter codec orderBy shorter db before).picks.values,
        proto ∈ (tableAfter codec orderBy longer db before).picks.values) ↔
      CleanAlike codec orderBy db shorter longer calls := by
  have hkeep (tables : Database Bytes × Database Bytes) (call : TableCall)
      (hopen : tables.1.mIsOpen = tables.2.mIsOpen) :
      ((pickDatabase codec orderBy).next tables.1 (call.call shorter)).mIsOpen =
        ((pickDatabase codec orderBy).next tables.2 (call.call longer)).mIsOpen := by
    rw [next_mIsOpen, next_mIsOpen, hopen]
  have hstep : ∀ tables : Database Bytes × Database Bytes, ∀ call ∈ calls,
      tables.1.mIsOpen = tables.2.mIsOpen →
      (∀ proto ∈ tables.1.picks.values, proto ∈ tables.2.picks.values) →
      ((∀ proto ∈
          ((pickDatabase codec orderBy).next tables.1 (call.call shorter)).picks.values,
        proto ∈ ((pickDatabase codec orderBy).next tables.2 (call.call longer)).picks.values) ↔
        SparesRepublished shorter.retention longer.retention tables call) := by
    intro tables call hcall hopen hsub
    apply values_next_iff hopen hsub hle call
    · rintro now stmt rfl
      exact (hshorter now (mem_cleanerClocks hcall)).toInt_eq
    · rintro now stmt rfl
      exact (hlonger now (mem_cleanerClocks hcall)).toInt_eq
  exact Machine.always_beside_iff (pickDatabase codec orderBy) (pickDatabase codec orderBy)
    (TableCall.call shorter) (TableCall.call longer)
    (R := fun tables => ∀ proto ∈ tables.1.picks.values, proto ∈ tables.2.picks.values)
    hkeep hstep rfl fun _ hproto => hproto

theorem databaseRetains_iff (codec : Codec Bytes) (orderBy : Sorting Int64 Bytes)
    (db : Database Bytes) (shorter longer : BrokerOptions) (calls : List TableCall) :
    DatabaseRetains codec orderBy db shorter longer calls ↔
      (∀ now ∈ cleanerClocks calls, shorter.InRange now ∧ longer.InRange now) ∧
      (shorter.retention ≤ longer.retention →
        CleanAlike codec orderBy db shorter longer calls) := by
  constructor
  · intro h
    constructor
    · intro now hnow
      exact ⟨(databaseCutoff_iff Bytes shorter now).mp (h.shorter_cutoff now hnow),
        (databaseCutoff_iff Bytes longer now).mp (h.longer_cutoff now hnow)⟩
    · intro hle
      exact (tables_keep_iff hle h.shorter_cutoff h.longer_cutoff).mp (h.keeps hle)
  · intro h
    have hshorter : ∀ now ∈ cleanerClocks calls, DatabaseCutoff Bytes shorter now := by
      intro now hnow
      exact (databaseCutoff_iff Bytes shorter now).mpr (h.1 now hnow).1
    have hlonger : ∀ now ∈ cleanerClocks calls, DatabaseCutoff Bytes longer now := by
      intro now hnow
      exact (databaseCutoff_iff Bytes longer now).mpr (h.1 now hnow).2
    refine ⟨hshorter, hlonger, ?_⟩
    intro hle
    exact (tables_keep_iff hle hshorter hlonger).mpr (h.2 hle)

end Table

/-- In a run of two pick stores and two databases that differ in their retention only, the cutoffs
are right and whatever the shorter retention keeps the longer one keeps, exactly when all retentions
lead back to a moment within 64 bits (the setters ask only that they are positive, and a store
without backfill does not ask for its options), the stores clean together, and the cleaner of the
longer interval spares what was published again. -/
theorem retention_cutoffs_iff [DecidableEq Bytes] (sorting : Sorting Int64 Pick)
    (start : Construction Pick) (shorter longer : RetentionDuration) (calls : List (Call Pick))
    (hclock : ∀ now ∈ cleaningClocks start calls, 0 ≤ now.toInt) (codec : Codec Bytes)
    (orderBy : Sorting Int64 Bytes) (db : Database Bytes)
    (shorterInterval longerInterval : BrokerOptions) (tableCalls : List TableCall) :
    StoreRetains sorting start shorter longer calls ∧
        DatabaseRetains codec orderBy db shorterInterval longerInterval tableCalls ↔
      ((∀ now ∈ cleaningClocks start calls,
          (start.retaining shorter).InRange now ∧ (start.retaining longer).InRange now) ∧
        (shorter.1 ≤ longer.1 → CleanTogether sorting start shorter longer calls)) ∧
      (∀ now ∈ cleanerClocks tableCalls,
          shorterInterval.InRange now ∧ longerInterval.InRange now) ∧
        (shorterInterval.retention ≤ longerInterval.retention →
          CleanAlike codec orderBy db shorterInterval longerInterval tableCalls) :=
  and_congr (storeRetains_iff sorting start shorter longer calls hclock)
    (databaseRetains_iff codec orderBy db shorterInterval longerInterval tableCalls)

/-- A store that cleans from three picks on. -/
def sixPlaces : Construction ℕ := .backfilled { mMaximumQueueCapacity := 6 } [] 0

def tenSeconds : RetentionDuration := ⟨10, by decide⟩

def fifteenSeconds : RetentionDuration := ⟨15, by decide⟩

/-- With ten seconds the fourth pick finds three stored ones and two of them are removed, so that
the fifth finds two; with fifteen seconds it is the fifth that finds too many. -/
def fiveEnqueues : List (Call ℕ) :=
  [.enqueue 0 1 0, .enqueue 0 2 0, .enqueue 5000000000 3 5000000000,
    .enqueue 11000000000 4 11000000000, .enqueue 21000000000 5 21000000000]

def tenSecondInterval : BrokerOptions := { mPickRetention := 10000 }

def fifteenSecondInterval : BrokerOptions := { mPickRetention := 15000 }

/-- The pick is deleted after ten seconds but not after fifteen, and published again. -/
def deletedThenPublishedAgain : List TableCall :=
  [.add 0 primaryPick {}, .cleanDatabase 11000000000 {}, .add 12000000000 primaryPick {},
    .cleanDatabase 20000000000 {}]

/-- The pick of five seconds is kept with ten seconds and purged with fifteen, since only the second
store is half full at the end; the pick that was published again is kept with an interval of ten
seconds and deleted with one of fifteen. -/
theorem retention_cutoffs_iff_fiveEnqueues :
    ((pickStore (Sorting.stable Int64 ℕ)).final
          ((sixPlaces.retaining tenSeconds).build (Sorting.stable Int64 ℕ)) fiveEnqueues).mDeque =
        [(5000000000, 3), (11000000000, 4), (21000000000, 5)] ∧
      ((pickStore (Sorting.stable Int64 ℕ)).final
          ((sixPlaces.retaining fifteenSeconds).build (Sorting.stable Int64 ℕ))
          fiveEnqueues).mDeque = [(11000000000, 4), (21000000000, 5)] ∧
      (tableAfter Codec.plain (Sorting.stable Int64 V1.Pick) tenSecondInterval {}
        deletedThenPublishedAgain).picks.rows = [(12000000000, primaryPick)] ∧
      (tableAfter Codec.plain (Sorting.stable Int64 V1.Pick) fifteenSecondInterval {}
        deletedThenPublishedAgain).picks.rows = [] ∧
      (StoreRetains (Sorting.stable Int64 ℕ) sixPlaces tenSeconds fifteenSeconds fiveEnqueues ∧
          DatabaseRetains Codec.plain (Sorting.stable Int64 V1.Pick) {} tenSecondInterval
            fifteenSecondInterval deletedThenPublishedAgain ↔
        ((∀ now ∈ cleaningClocks sixPlaces fiveEnqueues,
            (sixPlaces.retaining tenSeconds).InRange now ∧
              (sixPlaces.retaining fifteenSeconds).InRange now) ∧
          (tenSeconds.1 ≤ fifteenSeconds.1 → CleanTogether (Sorting.stable Int64 ℕ) sixPlaces
            tenSeconds fifteenSeconds fiveEnqueues)) ∧
        (∀ now ∈ cleanerClocks deletedThenPublishedAgain,
            tenSecondInterval.InRange now ∧ fifteenSecondInterval.InRange now) ∧
          (tenSecondInterval.retention ≤ fifteenSecondInterval.retention →
            CleanAlike Codec.plain (Sorting.stable Int64 V1.Pick) {} tenSecondInterval
              fifteenSecondInterval deletedThenPublishedAgain)) := by
  refine ⟨by decide, by decide, rfl, rfl, ?_⟩
  exact retention_cutoffs_iff _ _ _ _ _ (List.forall_iff_forall_mem.mp (by decide)) _ _ _ _ _ _

/-- Four centuries, in seconds. -/
def longRetention : RetentionDuration := ⟨12622780800, by decide⟩

def quarterHour : RetentionDuration := ⟨900, by decide⟩

/-- A store whose constructor is given a pick of this moment. -/
def roomForOne : Construction ℕ :=
  .backfilled { mMaximumQueueCapacity := 1 } [(1750000000000000000, 7)] 1750000000000000000

def longInterval : BrokerOptions := { mPickRetention := 12622780800000 }

/-- A pick received this moment is kept for a quarter of an hour, but not for four centuries. -/
theorem longRetention_keeps_nothing :
    ((roomForOne.retaining quarterHour).build (Sorting.stable Int64 ℕ)).mDeque =
        [(1750000000000000000, 7)] ∧
      ((roomForOne.retaining longRetention).build (Sorting.stable Int64 ℕ)).mDeque = [] ∧
      ¬ StoreRetains (Sorting.stable Int64 ℕ) roomForOne quarterHour longRetention [] ∧
      ¬ DatabaseRetains Codec.plain (Sorting.stable Int64 V1.Pick) {} {} longInterval
        [.cleanDatabase 1750000000000000000 {}] := by
  refine ⟨by decide, by decide, ?_, ?_⟩
  · intro h
    have hkept := h.keeps (by decide) [] (List.nil_prefix)
    revert hkept
    decide
  · intro h
    have hcutoff := h.longer_cutoff 1750000000000000000 (by simp [cleanerClocks])
    have hrange := (databaseCutoff_iff V1.Pick longInterval 1750000000000000000).mp hcutoff
    revert hrange
    show ¬ longInterval.retention ≤ _
    decide

end PickBroker
