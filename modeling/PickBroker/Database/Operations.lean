import PickBroker.Database.Database

namespace PickBroker

open Framework

/-- All the calls of the statement succeed. -/
def Statement.completes (stmt : Statement) : Bool :=
  stmt.prepare && stmt.bindInt64 && stmt.bindBlob && stmt.step

/-- The statement of `deletePicksBefore` completes; it binds no blob. -/
def Statement.deletes (stmt : Statement) : Bool := stmt.prepare && stmt.bindInt64 && stmt.step

namespace Database

variable {Bytes : Type*}

/-- What `add` needs to get as far as the table, with these bytes. -/
structure Ready (codec : Codec Bytes) (db : Database Bytes) (pick : V1.Pick) (stmt : Statement)
    (proto : Bytes) : Prop where
  stream_identifier : pick.stream_identifier.isNone = false
  time : pick.time.isNone = false
  algorithm : pick.algorithm.isNone = false
  isOpen : db.mIsOpen = true
  serialize : codec.serialize pick = some proto
  completes : stmt.completes = true

section Add

variable [DecidableEq Bytes] {codec : Codec Bytes} {db : Database Bytes} {pick : V1.Pick}
  {stmt : Statement}

theorem add_ready {proto : Bytes} (h : Ready codec db pick stmt proto) (receivedTime : Int64) :
    db.add codec receivedTime pick stmt =
      if proto ∈ db.picks.values then
        (.error (.DuplicatePickException "Pick already exists in database"),
          { db with changes := 0 })
      else (.ok (),
        { db with picks := db.picks.insertOrIgnore (receivedTime, proto), changes := 1 }) := by
  obtain ⟨hidentifier, htime, halgorithm, hopen, hproto, hstmt⟩ := h
  simp only [Statement.completes, Bool.and_eq_true] at hstmt
  obtain ⟨⟨⟨hprepare, hint⟩, hblob⟩, hstep⟩ := hstmt
  have hadd : db.add codec receivedTime pick stmt = db.addImpl codec receivedTime pick stmt := by
    simp only [add, hidentifier, htime, halgorithm, hopen, Bool.false_eq_true, Bool.not_true,
      if_false]
  rw [hadd, addImpl]
  simp only [hproto, hprepare, hint, hblob, hstep, Bool.not_true, Bool.false_eq_true, if_false]
  split
  · rename_i hold
    rw [UniqueTable.insertOrIgnore_of_mem hold]
    rfl
  · rfl

/-- Otherwise nothing changes, and what is thrown is not about a duplicate. -/
theorem add_not_ready (h : ∀ proto, ¬ Ready codec db pick stmt proto) (receivedTime : Int64) :
    ∃ e, (∀ what, e ≠ .DuplicatePickException what) ∧
      db.add codec receivedTime pick stmt = (.error e, db) := by
  unfold add
  split
  · exact ⟨_, by simp, rfl⟩
  rename_i hidentifier
  split
  · exact ⟨_, by simp, rfl⟩
  rename_i htime
  split
  · exact ⟨_, by simp, rfl⟩
  rename_i halgorithm
  split
  · exact ⟨_, by simp, rfl⟩
  rename_i hopen
  unfold addImpl
  cases hproto : codec.serialize pick with
  | none => exact ⟨_, by simp, rfl⟩
  | some proto =>
    have hcompletes : stmt.completes = false := by
      by_contra hstmt
      exact h proto ⟨Bool.eq_false_iff.mpr hidentifier, Bool.eq_false_iff.mpr htime,
        Bool.eq_false_iff.mpr halgorithm, by simpa using hopen, hproto, by simpa using hstmt⟩
    dsimp only
    split
    · exact ⟨_, by simp, rfl⟩
    split
    · exact ⟨_, by simp, rfl⟩
    split
    · exact ⟨_, by simp, rfl⟩
    split
    · exact ⟨_, by simp, rfl⟩
    · exact absurd hcompletes (by simp_all [Statement.completes])

/-- The three ways `add` ends: a new row, a duplicate, or no statement that completed. -/
theorem add_cases (codec : Codec Bytes) (db : Database Bytes) (receivedTime : Int64)
    (pick : V1.Pick) (stmt : Statement) :
    (∃ proto, codec.serialize pick = some proto ∧ proto ∉ db.picks.values ∧
      db.add codec receivedTime pick stmt = (.ok (),
        { db with picks := db.picks.insertOrIgnore (receivedTime, proto), changes := 1 })) ∨
    (∃ proto, codec.serialize pick = some proto ∧ proto ∈ db.picks.values ∧
      db.add codec receivedTime pick stmt =
        (.error (.DuplicatePickException "Pick already exists in database"),
          { db with changes := 0 })) ∨
    ∃ e, (∀ what, e ≠ .DuplicatePickException what) ∧
      db.add codec receivedTime pick stmt = (.error e, db) := by
  by_cases hready : ∃ proto, Ready codec db pick stmt proto
  · obtain ⟨proto, hready⟩ := hready
    have hadd := add_ready hready receivedTime
    by_cases hold : proto ∈ db.picks.values
    · rw [if_pos hold] at hadd
      exact .inr (.inl ⟨proto, hready.serialize, hold, hadd⟩)
    · rw [if_neg hold] at hadd
      exact .inl ⟨proto, hready.serialize, hold, hadd⟩
  · exact .inr (.inr (add_not_ready (not_exists.mp hready) receivedTime))

end Add

theorem deletePicksBefore_completes {db : Database Bytes} (hopen : db.mIsOpen = true)
    {stmt : Statement} (hstmt : stmt.deletes = true) (time : Int64) :
    db.deletePicksBefore time stmt =
      (.ok (db.picks.rows.filter fun row => row.1 < time).length,
        { db with
          picks := db.picks.deleteBefore time
          changes := (db.picks.rows.filter fun row => row.1 < time).length }) := by
  simp only [Statement.deletes, Bool.and_eq_true] at hstmt
  obtain ⟨⟨hprepare, hint⟩, hstep⟩ := hstmt
  simp [deletePicksBefore, hopen, hprepare, hint, hstep]

/-- The two ways `deletePicksBefore` ends, apart from what it returns. -/
theorem deletePicksBefore_cases (db : Database Bytes) (time : Int64) (stmt : Statement) :
    (∃ n, (db.deletePicksBefore time stmt).1 = .ok n ∧
      (db.deletePicksBefore time stmt).2.picks =
        if stmt.step then db.picks.deleteBefore time else db.picks) ∨
    ∃ e, db.deletePicksBefore time stmt = (.error e, db) := by
  unfold deletePicksBefore
  split
  · exact .inr ⟨_, rfl⟩
  split
  · exact .inr ⟨_, rfl⟩
  split
  · exact .inr ⟨_, rfl⟩
  · refine .inl ⟨_, rfl, ?_⟩
    cases stmt.step <;> rfl

/-- Every row holds the bytes of a pick: `add` inserts no other. -/
def Written (codec : Codec Bytes) (db : Database Bytes) : Prop :=
  ∀ row ∈ db.picks.rows, ∃ pick, codec.serialize pick = some row.2

theorem written_empty (codec : Codec Bytes) : Written codec {} := by
  intro row hrow
  cases hrow

/-- Rows that were written are read back with their received times. -/
theorem parseRows_written {codec : Codec Bytes} {rows : List (Int64 × Bytes)}
    (h : ∀ row ∈ rows, ∃ pick, codec.serialize pick = some row.2) :
    ∃ picks, parseRows codec rows = .ok picks ∧
      picks.map (fun e => (e.1, codec.serialize e.2)) =
        rows.map fun row => (row.1, some row.2) := by
  induction rows with
  | nil => exact ⟨[], rfl, rfl⟩
  | cons row rows ih =>
    obtain ⟨pick, hpick⟩ := h row (by simp)
    obtain ⟨picks, hpicks, hmap⟩ := ih fun row hrow => h row (by simp [hrow])
    refine ⟨(row.1, pick) :: picks, ?_, ?_⟩
    · rw [parseRows, codec.parse_serialize hpick, hpicks]
      rfl
    · rw [List.map_cons, List.map_cons, hmap, hpick]

/-- A load that ends early yields the first rows. -/
theorem load_written {codec : Codec Bytes} {orderBy : Sorting Int64 Bytes} {db : Database Bytes}
    {stmt : LoadStatement} {picks : List (Int64 × V1.Pick)} (h : db.Written codec)
    (hload : db.load codec orderBy stmt = .ok picks) :
    (picks.map fun e => (e.1, codec.serialize e.2)).Sublist
      ((orderBy.sort db.picks.rows).map fun row => (row.1, some row.2)) := by
  unfold load at hload
  split at hload
  · cases hload
  split at hload
  · cases hload
  dsimp only at hload
  have hrows : ∀ row ∈ (orderBy.sort db.picks.rows).take
      (stmt.yields.getD (orderBy.sort db.picks.rows).length),
      ∃ pick, codec.serialize pick = some row.2 := by
    intro row hrow
    exact h row ((orderBy.perm _).mem_iff.mp (List.mem_of_mem_take hrow))
  obtain ⟨picks', hpicks, hmap⟩ := parseRows_written hrows
  rw [hpicks] at hload
  cases hload
  rw [hmap]
  exact (List.take_sublist _ _).map _

/-- A load that goes through yields the rows in their order. -/
theorem load_sorted {codec : Codec Bytes} (orderBy : Sorting Int64 Bytes) {db : Database Bytes}
    (h : db.Written codec) (hopen : db.mIsOpen = true) :
    ∃ picks, db.load codec orderBy {} = .ok picks ∧
      picks.map (fun e => (e.1, codec.serialize e.2)) =
        (orderBy.sort db.picks.rows).map fun row => (row.1, some row.2) := by
  have hrows : ∀ row ∈ orderBy.sort db.picks.rows, ∃ pick, codec.serialize pick = some row.2 :=
    fun row hrow => h row ((orderBy.perm _).mem_iff.mp hrow)
  obtain ⟨picks, hpicks, hmap⟩ := parseRows_written hrows
  exact ⟨picks, by simp [load, hopen, hpicks], hmap⟩

/-- So it yields every row once. -/
theorem load_complete {codec : Codec Bytes} (orderBy : Sorting Int64 Bytes) {db : Database Bytes}
    (h : db.Written codec) (hopen : db.mIsOpen = true) :
    ∃ picks, db.load codec orderBy {} = .ok picks ∧
      (picks.map fun e => (e.1, codec.serialize e.2)).Perm
        (db.picks.rows.map fun row => (row.1, some row.2)) := by
  obtain ⟨picks, hload, hmap⟩ := load_sorted orderBy h hopen
  refine ⟨picks, hload, ?_⟩
  rw [hmap]
  exact (orderBy.perm _).map _

end Database

end PickBroker
