import PickBroker.Database.Statements

namespace PickBroker

open Framework

variable {Bytes : Type}

namespace Sqlite3

/-- The connection with one statement more. -/
def live (db : Sqlite3 Bytes) (stmt : SqliteStatement Bytes) : Sqlite3 Bytes :=
  { db with statements := db.statements.acquire stmt }

/-- The statement is finalized again. -/
def dropped (db : Sqlite3 Bytes) (stmt : SqliteStatement Bytes) : Sqlite3 Bytes :=
  { db with statements := (db.statements.acquire stmt).release db.statements.fresh }

/-- The table as the statement leaves it. -/
def edited [DecidableEq Bytes] (db : Sqlite3 Bytes) (stmt : SqliteStatement Bytes) :
    Sqlite3 Bytes :=
  { db with picks := (stmt.run db.picks).1, changes := (stmt.run db.picks).2 }

/-- Nothing is left to be finalized, and the connection may be used. -/
structure Clean (db : Sqlite3 Bytes) : Prop where
  settled : db.statements.Settled
  usable : db.closed = false

theorem Clean.dropped {db : Sqlite3 Bytes} (h : db.Clean) (stmt : SqliteStatement Bytes) :
    (db.dropped stmt).Clean :=
  ⟨h.settled.release_acquire stmt, h.usable⟩

theorem Clean.edited [DecidableEq Bytes] {db : Sqlite3 Bytes} (h : db.Clean)
    (stmt : SqliteStatement Bytes) : (db.edited stmt).Clean := ⟨h.settled, h.usable⟩

end Sqlite3

section Live

variable (db : Sqlite3 Bytes) (stmt : SqliteStatement Bytes)

theorem prepare_live (h : db.closed = false) (sql : Sql) :
    sqlite3_prepare_v2 sql true db = some (.ok (some db.statements.fresh), db.live { sql := sql }) :=
  by
  simp [sqlite3_prepare_v2, h, Sqlite3.live]

theorem prepare_fails (h : db.closed = false) (sql : Sql) :
    sqlite3_prepare_v2 sql false db = some (.ok none, db) := by
  simp [sqlite3_prepare_v2, h]

theorem finalize_live :
    sqlite3_finalize db.statements.fresh (db.live stmt) = some (.ok (), db.dropped stmt) := by
  simp [sqlite3_finalize, Sqlite3.live, Sqlite3.dropped]

/-- Binding a parameter that the statement has. -/
theorem bind_live (sql : Sql) {bound : List (Option (SqlValue Bytes))}
    (bound' : List (Option (SqlValue Bytes))) {index : ℕ} {value : SqlValue Bytes}
    (hindex : 0 < index ∧ index ≤ sql.parameters)
    (hset : bound.set (index - 1) (some value) = bound') :
    sqlite3_bind db.statements.fresh index value true (db.live { sql := sql, bound := bound }) =
      some (.ok true, db.live { sql := sql, bound := bound' }) := by
  simp [sqlite3_bind, Sqlite3.live, hindex, hset]

theorem bind_fails (index : ℕ) (value : SqlValue Bytes) :
    sqlite3_bind db.statements.fresh index value false (db.live stmt) =
      some (.ok false, db.live stmt) := by
  simp [sqlite3_bind, Sqlite3.live]

theorem bindInt64_live (sql : Sql) {bound : List (Option (SqlValue Bytes))}
    (bound' : List (Option (SqlValue Bytes))) {index : ℕ} {value : Int64} {label : String}
    (hindex : 0 < index ∧ index ≤ sql.parameters)
    (hset : bound.set (index - 1) (some (.int64 value)) = bound') :
    bindInt64 value index db.statements.fresh label true
        (db.live { sql := sql, bound := bound }) =
      some (.ok (), db.live { sql := sql, bound := bound' }) := by
  rw [bindInt64, Program.bind_ok (bind_live db sql bound' hindex hset)]
  rfl

theorem bindInt64_fails (index : ℕ) (value : Int64) (label : String) :
    bindInt64 value index db.statements.fresh label false (db.live stmt) =
      some (.error (.runtime_error ("Failed to bind int64 for " ++ label)), db.dropped stmt) := by
  rw [bindInt64, Program.bind_ok (bind_fails db stmt index _)]
  exact Program.bind_ok (finalize_live db stmt) _

theorem bindBlob_live (sql : Sql) {bound : List (Option (SqlValue Bytes))}
    (bound' : List (Option (SqlValue Bytes))) {index : ℕ} {data : Bytes} {label : String}
    (hindex : 0 < index ∧ index ≤ sql.parameters)
    (hset : bound.set (index - 1) (some (.blob data)) = bound') :
    bindBlob data index db.statements.fresh label true (db.live { sql := sql, bound := bound }) =
      some (.ok (), db.live { sql := sql, bound := bound' }) := by
  rw [bindBlob, Program.bind_ok (bind_live db sql bound' hindex hset)]
  rfl

theorem bindBlob_fails (index : ℕ) (data : Bytes) (label : String) :
    bindBlob data index db.statements.fresh label false (db.live stmt) =
      some (.error (.runtime_error ("Failed to bind blob for " ++ label)), db.dropped stmt) := by
  rw [bindBlob, Program.bind_ok (bind_fails db stmt index _)]
  exact Program.bind_ok (finalize_live db stmt) _

theorem step_fails [DecidableEq Bytes] (orderBy : Sorting Int64 Bytes) :
    sqlite3_step orderBy db.statements.fresh false (db.live stmt) =
      some (.ok .SQLITE_ERROR, db.live stmt) := by
  simp [sqlite3_step, Sqlite3.live]

theorem step_edits [DecidableEq Bytes] (orderBy : Sorting Int64 Bytes)
    (hsql : stmt.sql ≠ .selectOrdered) :
    sqlite3_step orderBy db.statements.fresh true (db.live stmt) =
      some (.ok .SQLITE_DONE, (db.edited stmt).live stmt) := by
  simp [sqlite3_step, Sqlite3.live, Sqlite3.edited, hsql]

theorem step_yields [DecidableEq Bytes] (orderBy : Sorting Int64 Bytes)
    (hsql : stmt.sql = .selectOrdered) {rows : List (Int64 × Bytes)}
    (hrows : stmt.advance orderBy db.picks = rows) :
    sqlite3_step orderBy db.statements.fresh true (db.live stmt) =
      some (.ok (if rows.isEmpty then .SQLITE_DONE else .SQLITE_ROW),
        db.live { stmt with cursor := some rows }) := by
  subst hrows
  simp [sqlite3_step, Sqlite3.live, hsql]

theorem changes_live (h : db.closed = false) :
    sqlite3_changes (db.live stmt) = some (.ok db.changes, db.live stmt) := by
  simp [sqlite3_changes, Sqlite3.live, h]

/-- The end of a statement that changes the table. -/
theorem changes_finalize {α : Type} (h : db.closed = false) {n : ℕ} (hn : n = db.statements.fresh)
    (rest : ℤ → Calls Bytes α) :
    (do
      let changes ← sqlite3_changes
      sqlite3_finalize n
      rest changes) (db.live stmt) = rest db.changes (db.dropped stmt) := by
  subst hn
  exact (Program.bind_ok (changes_live db stmt h) _).trans (Program.bind_ok (finalize_live db stmt) _)

theorem column_live {row : Int64 × Bytes} {rows : List (Int64 × Bytes)}
    (hcursor : stmt.cursor = some (row :: rows)) :
    sqlite3_column db.statements.fresh (db.live stmt) = some (.ok row, db.live stmt) := by
  simp [sqlite3_column, Sqlite3.live, hcursor]

end Live

/-- The calls end in `outcome`, and whatever they have prepared is finalized. -/
def Completes {α : Type} (calls : Calls Bytes α) (db : Sqlite3 Bytes)
    (outcome : Except Exception α × Database Bytes) : Prop :=
  ∃ db', calls db = some (outcome.1, db') ∧ db'.picks = outcome.2.picks ∧
    db'.changes = outcome.2.changes ∧ db'.Clean

/-- The rows that are still yielded when `k` have been. -/
def LoadStatement.yielded {α : Type} (stmt : LoadStatement) (k : ℕ) (rows : List α) : List α :=
  match stmt.yields with
  | none => rows
  | some n => rows.take (n - k)

section Yielded

variable {α : Type} (stmt : LoadStatement) (k : ℕ) (row : α) (rows : List α)

theorem yielded_zero : stmt.yielded 0 rows = rows.take (stmt.yields.getD rows.length) := by
  unfold LoadStatement.yielded
  cases stmt.yields <;> simp

@[simp] theorem yielded_nil : stmt.yielded k ([] : List α) = [] := by
  unfold LoadStatement.yielded
  cases stmt.yields <;> simp

theorem yielded_cons (hyields : stmt.yields.all (k < ·) = true) :
    stmt.yielded k (row :: rows) = row :: stmt.yielded (k + 1) rows := by
  unfold LoadStatement.yielded
  cases hstmt : stmt.yields with
  | none => rfl
  | some n =>
    have hlt : k < n := by simpa [hstmt] using hyields
    have hsub : n - k = n - (k + 1) + 1 := by omega
    simp only [hsub, List.take_succ_cons]

theorem yielded_stopped (hyields : stmt.yields.all (k < ·) = false) : stmt.yielded k rows = [] := by
  unfold LoadStatement.yielded
  cases hstmt : stmt.yields with
  | none => simp [hstmt] at hyields
  | some n =>
    have hle : n ≤ k := by simpa [hstmt] using hyields
    simp [Nat.sub_eq_zero_of_le hle]

end Yielded

section Methods

variable [DecidableEq Bytes] {db : Sqlite3 Bytes} {D : Database Bytes}

theorem addCalls_completes (codec : Codec Bytes) (orderBy : Sorting Int64 Bytes)
    (receivedTime : Int64) (pick : V1.Pick) (stmt : Statement) (h : db.Clean)
    (hpicks : db.picks = D.picks) (hchanges : db.changes = D.changes) :
    Completes (addCalls codec orderBy receivedTime pick stmt) db
      (D.addImpl codec receivedTime pick stmt) := by
  obtain ⟨prepare, int, blob, step⟩ := stmt
  unfold addCalls Database.addImpl
  cases codec.serialize pick with
  | none => exact ⟨db, rfl, hpicks, hchanges, h⟩
  | some proto =>
    let bound : SqliteStatement Bytes := { sql := .insertOrIgnore, bound :=
      [some (.int64 receivedTime), some (.blob proto)] }
    cases prepare with
    | false => exact ⟨db, Program.bind_ok (prepare_fails db h.usable _) _, hpicks, hchanges, h⟩
    | true =>
      dsimp only
      rw [Completes, Program.bind_ok (prepare_live db h.usable _)]
      simp only [Bool.not_true, Bool.false_eq_true, if_false]
      cases int with
      | false =>
        exact ⟨db.dropped _, Program.bind_error (bindInt64_fails db _ 1 receivedTime _) _, hpicks,
          hchanges, h.dropped _⟩
      | true =>
        rw [Program.bind_ok (bindInt64_live db .insertOrIgnore [some (.int64 receivedTime), none]
          (by decide) rfl)]
        cases blob with
        | false =>
          exact ⟨db.dropped _, Program.bind_error (bindBlob_fails db _ 2 proto _) _, hpicks,
            hchanges, h.dropped _⟩
        | true =>
          rw [Program.bind_ok (bindBlob_live db .insertOrIgnore bound.bound (by decide) rfl)]
          cases step with
          | false =>
            rw [Program.bind_ok (step_fails db _ orderBy)]
            exact ⟨db.dropped _, Program.bind_ok (finalize_live db _) _, hpicks, hchanges,
              h.dropped _⟩
          | true =>
            have hsql : bound.sql ≠ .selectOrdered := by
              intro hsql
              cases hsql
            have hstep := step_edits db bound orderBy hsql
            rw [Program.bind_ok hstep]
            simp only [ne_eq, not_true_eq_false, if_false, Bool.not_true, Bool.false_eq_true]
            have hn : db.statements.fresh = (db.edited bound).statements.fresh := rfl
            rw [changes_finalize (db.edited bound) bound h.usable hn]
            have hrun : bound.run db.picks = (D.picks.insertOrIgnore (receivedTime, proto),
                if proto ∈ D.picks.values then 0 else 1) := by
              rw [← hpicks]
              rfl
            have hinserted : ((db.edited bound).dropped bound).picks =
                D.picks.insertOrIgnore (receivedTime, proto) := congrArg Prod.fst hrun
            have hcount : (db.edited bound).changes =
                if proto ∈ D.picks.values then 0 else 1 := congrArg Prod.snd hrun
            rw [← hcount]
            refine ⟨(db.edited bound).dropped bound, ?_, ?_, ?_, (h.edited bound).dropped bound⟩
            · split <;> rfl
            · split <;> exact hinserted
            · split <;> rfl

theorem deleteCalls_completes (orderBy : Sorting Int64 Bytes) (time : Int64) (stmt : Statement)
    (h : db.Clean) (hpicks : db.picks = D.picks) (hchanges : db.changes = D.changes)
    (hopen : D.mIsOpen = true) :
    Completes (deleteCalls orderBy time stmt) db (D.deletePicksBefore time stmt) := by
  obtain ⟨prepare, int, blob, step⟩ := stmt
  unfold deleteCalls Database.deletePicksBefore
  let bound : SqliteStatement Bytes := { sql := .deleteBefore, bound := [some (.int64 time)] }
  rw [hopen]
  cases prepare with
  | false => exact ⟨db, Program.bind_ok (prepare_fails db h.usable _) _, hpicks, hchanges, h⟩
  | true =>
    rw [Completes, Program.bind_ok (prepare_live db h.usable _)]
    simp only [Bool.not_true, Bool.false_eq_true, if_false]
    cases int with
    | false =>
      exact ⟨db.dropped _, Program.bind_error (bindInt64_fails db _ 1 time _) _, hpicks, hchanges,
        h.dropped _⟩
    | true =>
      rw [Program.bind_ok (bindInt64_live db .deleteBefore bound.bound (by decide) rfl)]
      cases step with
      | false =>
        rw [Program.bind_ok (step_fails db _ orderBy), changes_finalize db _ h.usable rfl]
        refine ⟨db.dropped bound, ?_, hpicks, hchanges, h.dropped bound⟩
        rw [hchanges]
        rfl
      | true =>
        have hsql : bound.sql ≠ .selectOrdered := by
          intro hsql
          cases hsql
        have hstep := step_edits db bound orderBy hsql
        have hn : db.statements.fresh = (db.edited bound).statements.fresh := rfl
        rw [Program.bind_ok hstep, changes_finalize (db.edited bound) bound h.usable hn]
        have hrun : bound.run db.picks = (D.picks.deleteBefore time,
            ((D.picks.rows.filter fun row => row.1 < time).length : ℤ)) := by
          rw [← hpicks]
          rfl
        refine ⟨(db.edited bound).dropped bound, ?_, congrArg Prod.fst hrun, congrArg Prod.snd hrun,
          (h.edited bound).dropped bound⟩
        have hcount : (db.edited bound).changes =
            (D.picks.rows.filter fun row => row.1 < time).length := congrArg Prod.snd hrun
        rw [hcount]
        rfl

/-- The loop ends as soon as no row is left, and parses what it is yielded until then. -/
theorem loadRows_completes (codec : Codec Bytes) (orderBy : Sorting Int64 Bytes)
    (stmt : LoadStatement) {rows : List (Int64 × Bytes)} {s : SqliteStatement Bytes}
    (hsql : s.sql = .selectOrdered) (hrows : s.advance orderBy db.picks = rows) {fuel : ℕ}
    (hfuel : rows.length < fuel) (result : List (Int64 × V1.Pick)) :
    ∃ s', loadRows codec orderBy db.statements.fresh stmt fuel result (db.live s) =
      match Database.parseRows codec (stmt.yielded result.length rows) with
      | .ok more => some (.ok (result ++ more), db.live s')
      | .error e => some (.error e, db.dropped s') := by
  induction rows generalizing s fuel result with
  | nil =>
    obtain ⟨fuel, rfl⟩ := Nat.exists_eq_succ_of_ne_zero (Nat.ne_of_gt hfuel)
    rw [loadRows, yielded_nil]
    cases stmt.yields.all (result.length < ·) with
    | false =>
      rw [Program.bind_ok (step_fails db s orderBy)]
      exact ⟨s, by simp [Database.parseRows]⟩
    | true =>
      rw [Program.bind_ok (step_yields db s orderBy hsql hrows)]
      exact ⟨{ s with cursor := some [] }, by simp [Database.parseRows]⟩
  | cons row rows ih =>
    obtain ⟨fuel, rfl⟩ := Nat.exists_eq_succ_of_ne_zero (Nat.ne_of_gt (Nat.zero_lt_of_lt hfuel))
    obtain ⟨loadTime, blobData⟩ := row
    rw [loadRows]
    cases hyields : stmt.yields.all (result.length < ·) with
    | false =>
      rw [Program.bind_ok (step_fails db s orderBy), yielded_stopped _ _ _ hyields]
      exact ⟨s, by simp [Database.parseRows]⟩
    | true =>
      let fetched : SqliteStatement Bytes := { s with cursor := some ((loadTime, blobData) :: rows) }
      have hstep := step_yields db s orderBy hsql hrows
      rw [Program.bind_ok hstep, yielded_cons _ _ _ _ hyields, Database.parseRows]
      simp only [List.isEmpty_cons, Bool.false_eq_true, if_false, if_true]
      have hcolumn : sqlite3_column db.statements.fresh (db.live fetched) =
          some (.ok (loadTime, blobData), db.live fetched) := column_live db fetched rfl
      rw [Program.bind_ok hcolumn]
      dsimp only
      cases codec.parse blobData with
      | none => exact ⟨fetched, Program.bind_ok (finalize_live db fetched) _⟩
      | some pick =>
        have hshort : rows.length < fuel := by simpa using hfuel
        obtain ⟨s', hloaded⟩ := ih (s := fetched) hsql rfl hshort (result ++ [(loadTime, pick)])
        refine ⟨s', hloaded.trans ?_⟩
        rw [List.length_append, List.length_singleton]
        cases Database.parseRows codec (stmt.yielded (result.length + 1) rows) with
        | error e => rfl
        | ok more => simp [Except.map]

theorem loadCalls_completes (codec : Codec Bytes) (orderBy : Sorting Int64 Bytes)
    (stmt : LoadStatement) (h : db.Clean) (hpicks : db.picks = D.picks)
    (hchanges : db.changes = D.changes) (hopen : D.mIsOpen = true) :
    Completes (loadCalls codec orderBy stmt (db.picks.rows.length + 1)) db
      (D.load codec orderBy stmt, D) := by
  unfold loadCalls Database.load
  rw [hopen]
  cases hprepare : stmt.prepare with
  | false => exact ⟨db, Program.bind_ok (prepare_fails db h.usable _) _, hpicks, hchanges, h⟩
  | true =>
    rw [Completes, Program.bind_ok (prepare_live db h.usable _)]
    have hlength : (orderBy.sort db.picks.rows).length < db.picks.rows.length + 1 := by
      rw [(orderBy.perm db.picks.rows).length_eq]
      exact Nat.lt_succ_self _
    have hrows : SqliteStatement.advance orderBy { sql := .selectOrdered } db.picks =
        orderBy.sort db.picks.rows := rfl
    obtain ⟨s, hloaded⟩ := loadRows_completes codec orderBy stmt rfl hrows hlength []
    simp only [Bool.not_true, Bool.false_eq_true, if_false, ← hpicks, ← yielded_zero]
    simp only [List.length_nil, List.nil_append] at hloaded
    cases hparse : Database.parseRows codec (stmt.yielded 0 (orderBy.sort db.picks.rows)) with
    | error e =>
      rw [hparse] at hloaded
      exact ⟨db.dropped s, Program.bind_error hloaded _, rfl, hchanges, h.dropped s⟩
    | ok more =>
      rw [hparse] at hloaded
      refine ⟨db.dropped s, (Program.bind_ok hloaded _).trans ?_, rfl, hchanges, h.dropped s⟩
      exact Program.bind_ok (finalize_live db s) _

end Methods

theorem addImpl_isOpen [DecidableEq Bytes] (codec : Codec Bytes) (D : Database Bytes)
    (receivedTime : Int64) (pick : V1.Pick) (stmt : Statement) :
    (D.addImpl codec receivedTime pick stmt).2.mIsOpen = D.mIsOpen := by
  unfold Database.addImpl
  dsimp only
  repeat' split
  all_goals rfl

theorem deletePicksBefore_isOpen (D : Database Bytes) (time : Int64) (stmt : Statement) :
    (D.deletePicksBefore time stmt).2.mIsOpen = D.mIsOpen := by
  unfold Database.deletePicksBefore
  repeat' split
  all_goals rfl

namespace SqliteDatabase

/-- The handle is usable while the database is open, and every statement is finalized. -/
structure Tidy (S : SqliteDatabase Bytes) : Prop where
  settled : S.mHandle.statements.Settled
  usable : S.mHandle.closed = !S.mIsOpen

/-- A file with this table has been opened. -/
def opened (picks : UniqueTable Int64 Bytes) : SqliteDatabase Bytes :=
  { mHandle := { picks := picks } }

theorem opened_tidy (picks : UniqueTable Int64 Bytes) : (opened picks).Tidy :=
  ⟨Handles.settled_empty, rfl⟩

variable {S : SqliteDatabase Bytes}

theorem Tidy.run {α : Type} (h : S.Tidy) (hopen : S.mIsOpen = true) {calls : Calls Bytes α}
    {outcome : Except Exception α × Database Bytes}
    (hcompletes : S.mHandle.Clean → Completes calls S.mHandle outcome)
    (hstays : outcome.2.mIsOpen = true) :
    ∃ S', S.run calls = some (outcome.1, S') ∧ S'.database = outcome.2 ∧ S'.Tidy := by
  have husable : S.mHandle.closed = false := by
    rw [h.usable, hopen]
    rfl
  obtain ⟨db, hcalls, hpicks, hchanges, hclean⟩ := hcompletes ⟨h.settled, husable⟩
  refine ⟨{ S with mHandle := db }, by rw [SqliteDatabase.run, hcalls]; rfl, ?_, hclean.settled, ?_⟩
  · rw [database, hpicks, hchanges, hopen, ← hstays]
  · rw [hclean.usable, hopen]
    rfl

/-- Closing closes, as no statement is left. -/
theorem Tidy.close (h : S.Tidy) :
    ∃ S', S.close = some S' ∧ S'.mHandle.closed = true ∧ S'.mIsOpen = false := by
  have husable := h.usable
  cases hopen : S.mIsOpen with
  | false =>
    refine ⟨S, by simp [SqliteDatabase.close, hopen], ?_, hopen⟩
    rw [husable, hopen]
    rfl
  | true =>
    have hnone : S.mHandle.statements.entries.all Option.isNone = true := by
      rw [List.all_eq_true]
      intro entry hentry
      rw [h.settled entry hentry]
      rfl
    refine ⟨{ mHandle := { S.mHandle with closed := true }, mIsOpen := false }, ?_, rfl, rfl⟩
    have hlive : S.mHandle.closed = false := by
      rw [husable, hopen]
      rfl
    simp [SqliteDatabase.close, sqlite3_close, hopen, hlive, hnone]

variable [DecidableEq Bytes] (codec : Codec Bytes) (orderBy : Sorting Int64 Bytes)

/-- Call by call of sqlite, a call does what the database does in one step, and tidies up. -/
theorem call_refines (h : S.Tidy) (request : DatabaseCall) :
    ∃ S', S.call codec orderBy request =
        some ((pickDatabase codec orderBy).answer S.database request, S') ∧
      S'.database = (pickDatabase codec orderBy).next S.database request ∧ S'.Tidy := by
  cases request with
  | add receivedTime pick stmt =>
    simp only [call, SqliteDatabase.add, Machine.answer, Machine.next, pickDatabase, Database.add]
    split
    · exact ⟨S, rfl, rfl, h⟩
    split
    · exact ⟨S, rfl, rfl, h⟩
    split
    · exact ⟨S, rfl, rfl, h⟩
    cases hopen : S.mIsOpen with
    | false =>
      simp only [database, hopen, Bool.not_false, if_true]
      exact ⟨S, rfl, by rw [← hopen], h⟩
    | true =>
      obtain ⟨S', hrun, hdatabase, htidy⟩ := h.run hopen
        (fun hclean => addCalls_completes codec orderBy receivedTime pick stmt hclean rfl rfl)
        ((addImpl_isOpen codec S.database receivedTime pick stmt).trans hopen)
      simp only [database, hopen, Bool.not_true, Bool.false_eq_true, if_false] at hrun hdatabase ⊢
      exact ⟨S', by rw [hrun]; rfl, hdatabase, htidy⟩
  | deletePicksBefore time stmt =>
    simp only [call, SqliteDatabase.deletePicksBefore, Machine.answer, Machine.next, pickDatabase]
    cases hopen : S.mIsOpen with
    | false =>
      have hrefused : S.database.deletePicksBefore time stmt =
          (.error (.runtime_error "Database not open"), S.database) := by
        simp [Database.deletePicksBefore, database, hopen]
      rw [hrefused]
      exact ⟨S, rfl, rfl, h⟩
    | true =>
      obtain ⟨S', hrun, hdatabase, htidy⟩ := h.run hopen
        (fun hclean => deleteCalls_completes orderBy time stmt hclean rfl rfl hopen)
        ((deletePicksBefore_isOpen S.database time stmt).trans hopen)
      simp only [Bool.not_true, Bool.false_eq_true, if_false]
      exact ⟨S', by rw [hrun]; rfl, hdatabase, htidy⟩
  | load stmt =>
    simp only [call, SqliteDatabase.load, Machine.answer, Machine.next, pickDatabase]
    cases hopen : S.mIsOpen with
    | false =>
      have hrefused : S.database.load codec orderBy stmt =
          .error (.runtime_error "Database not open") := by
        simp [Database.load, database, hopen]
      rw [hrefused]
      exact ⟨S, rfl, rfl, h⟩
    | true =>
      obtain ⟨S', hrun, hdatabase, htidy⟩ := h.run hopen
        (fun hclean => loadCalls_completes codec orderBy stmt hclean (D := S.database) rfl rfl hopen)
        hopen
      simp only [Bool.not_true, Bool.false_eq_true, if_false]
      exact ⟨S', by rw [hrun]; rfl, hdatabase, htidy⟩

theorem calls_refine (h : S.Tidy) (requests : List DatabaseCall) :
    ∃ S', S.calls codec orderBy requests =
        some ((pickDatabase codec orderBy).answers S.database requests, S') ∧
      S'.database = (pickDatabase codec orderBy).final S.database requests ∧ S'.Tidy := by
  induction requests generalizing S with
  | nil => exact ⟨S, rfl, rfl, h⟩
  | cons request requests ih =>
    obtain ⟨S₁, hcall, hdatabase, htidy⟩ := call_refines codec orderBy h request
    obtain ⟨S₂, hcalls, hfinal, hlast⟩ := ih htidy
    rw [hdatabase] at hcalls hfinal
    exact ⟨S₂, by rw [calls, hcall, Option.bind_some, hcalls]; rfl, hfinal, hlast⟩

end SqliteDatabase

/-- Whatever calls of the database follow each other and whichever calls of sqlite fail in them:
no statement is used that is not live, each that is prepared is finalized once, closing closes the
handle, and what is answered and left in the table is what the database does in single steps. -/
theorem statements_finalized [DecidableEq Bytes] (codec : Codec Bytes)
    (orderBy : Sorting Int64 Bytes) (picks : UniqueTable Int64 Bytes)
    (requests : List DatabaseCall) :
    ∃ S closed, (SqliteDatabase.opened picks).calls codec orderBy requests =
        some ((pickDatabase codec orderBy).answers { picks := picks } requests, S) ∧
      S.database = (pickDatabase codec orderBy).final { picks := picks } requests ∧
      S.mHandle.statements.Settled ∧
      S.close = some closed ∧ closed.mHandle.closed = true ∧ closed.mIsOpen = false := by
  obtain ⟨S, hcalls, hdatabase, htidy⟩ :=
    SqliteDatabase.calls_refine codec orderBy (SqliteDatabase.opened_tidy picks) requests
  obtain ⟨closed, hclose, hclosed, hisOpen⟩ := htidy.close
  exact ⟨S, closed, hcalls, hdatabase, htidy.settled, hclose, hclosed, hisOpen⟩

end PickBroker
