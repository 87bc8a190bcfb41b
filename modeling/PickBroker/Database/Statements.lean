import PickBroker.Database.Table
import PickBroker.Framework.Handles

namespace PickBroker

open Framework

variable {Bytes : Type}

/-- The three statements that are prepared. The number of parameters is that of the question
marks. -/
inductive Sql where
  /-- INSERT OR IGNORE INTO picks(received_time, proto) VALUES(?, ?); -/
  | insertOrIgnore
  /-- SELECT received_time, proto FROM picks ORDER BY received_time ASC; -/
  | selectOrdered
  /-- DELETE FROM picks WHERE received_time < ?; -/
  | deleteBefore
  deriving DecidableEq

def Sql.parameters : Sql → ℕ
  | .insertOrIgnore => 2
  | .selectOrdered => 0
  | .deleteBefore => 1

inductive SqlValue (Bytes : Type) where
  | int64 (value : Int64)
  | blob (data : Bytes)

/-- A prepared statement: what is bound to its parameters, and once it runs the rows it has still to
yield, the current one in front. -/
structure SqliteStatement (Bytes : Type) where
  sql : Sql
  bound : List (Option (SqlValue Bytes)) := List.replicate sql.parameters none
  cursor : Option (List (Int64 × Bytes)) := none

inductive SqliteResult where
  | SQLITE_ROW
  | SQLITE_DONE
  | SQLITE_ERROR
  deriving DecidableEq

/-- A connection with the table of its file, and the statements it has prepared. What is assumed of
sqlite stands at the calls below; it is what its documentation says of a rowid table that no other
connection writes to while a statement of this one runs. -/
structure Sqlite3 (Bytes : Type) where
  picks : UniqueTable Int64 Bytes := {}
  changes : ℤ := 0
  statements : Handles (SqliteStatement Bytes) := {}
  closed : Bool := false

/-- A part of the code that calls sqlite. -/
abbrev Calls (Bytes : Type) := Program (Sqlite3 Bytes) Exception

/-- A call of sqlite is told whether it succeeds. It may not be handed a connection that is closed,
or a statement that has been finalized. `sqlite3_prepare_v2` that fails leaves a null statement,
for which nothing has to be finalized. -/
def sqlite3_prepare_v2 (sql : Sql) (succeeds : Bool) : Calls Bytes (Option ℕ) := fun db =>
  if db.closed then none
  else if succeeds then
    some (.ok (some db.statements.fresh),
      { db with statements := db.statements.acquire { sql := sql } })
  else some (.ok none, db)

/-- Parameters count from one. A value stays bound until the statement is finalized, and a number
that is no parameter of the statement is SQLITE_RANGE. -/
def sqlite3_bind (statement index : ℕ) (value : SqlValue Bytes) (succeeds : Bool) :
    Calls Bytes Bool := fun db =>
  (db.statements.get? statement).bind fun stmt =>
    if succeeds && 0 < index && index ≤ stmt.sql.parameters then
      some (.ok true, { db with
        statements := db.statements.put statement
          { stmt with bound := stmt.bound.set (index - 1) (some value) } })
    else some (.ok false, db)

/-- The first step of a query is on the first of the rows in their order, each later one on the
next row. -/
def SqliteStatement.advance (orderBy : Sorting Int64 Bytes) (stmt : SqliteStatement Bytes)
    (picks : UniqueTable Int64 Bytes) : List (Int64 × Bytes) :=
  match stmt.cursor with
  | none => orderBy.sort picks.rows
  | some rows => rows.tail

/-- The table after a statement has run, and the number of rows it has changed. A parameter that is
not bound is NULL: it violates NOT NULL, and nothing is below it. -/
def SqliteStatement.run [DecidableEq Bytes] (stmt : SqliteStatement Bytes)
    (picks : UniqueTable Int64 Bytes) : UniqueTable Int64 Bytes × ℤ :=
  match stmt.sql, stmt.bound with
  | .insertOrIgnore, [some (.int64 received_time), some (.blob proto)] =>
    (picks.insertOrIgnore (received_time, proto), if proto ∈ picks.values then 0 else 1)
  | .deleteBefore, [some (.int64 received_time)] =>
    (picks.deleteBefore received_time,
      (picks.rows.filter fun row => row.1 < received_time).length)
  | _, _ => (picks, 0)

/-- A step that fails has no effect: sqlite takes the statement back. INSERT and DELETE are done in
one step, and set the number of changes; a query leaves that alone. -/
def sqlite3_step [DecidableEq Bytes] (orderBy : Sorting Int64 Bytes) (statement : ℕ)
    (succeeds : Bool) : Calls Bytes SqliteResult := fun db =>
  (db.statements.get? statement).bind fun stmt =>
    if !succeeds then some (.ok .SQLITE_ERROR, db)
    else if stmt.sql = .selectOrdered then
      let rows := stmt.advance orderBy db.picks
      some (.ok (if rows.isEmpty then .SQLITE_DONE else .SQLITE_ROW), { db with
        statements := db.statements.put statement { stmt with cursor := some rows } })
    else
      let (picks, changes) := stmt.run db.picks
      some (.ok .SQLITE_DONE, { db with picks := picks, changes := changes })

/-- Both columns of the current row; there must be one. The blob is valid until the next step. -/
def sqlite3_column (statement : ℕ) : Calls Bytes (Int64 × Bytes) := fun db =>
  match (db.statements.get? statement).bind SqliteStatement.cursor with
  | some (row :: _) => some (.ok row, db)
  | _ => none

/-- The rows changed by the last INSERT or DELETE that completed on the connection. -/
def sqlite3_changes : Calls Bytes ℤ := fun db =>
  if db.closed then none else some (.ok db.changes, db)

/-- Whatever the statement has done before, it is given back. -/
def sqlite3_finalize (statement : ℕ) : Calls Bytes Unit := fun db =>
  (db.statements.get? statement).map fun _ =>
    (.ok (), { db with statements := db.statements.release statement })

/-- SQLITE_BUSY while a statement is left that is not finalized: the connection stays open. -/
def sqlite3_close : Calls Bytes Unit := fun db =>
  if db.closed then none
  else some (.ok (), { db with closed := db.statements.entries.all Option.isNone })

def bindInt64 (value : Int64) (index statement : ℕ) (label : String) (succeeds : Bool) :
    Calls Bytes Unit := do
  if !(← sqlite3_bind statement index (.int64 value) succeeds) then
    sqlite3_finalize statement
    .throws (.runtime_error ("Failed to bind int64 for " ++ label))

def bindBlob (data : Bytes) (index statement : ℕ) (label : String) (succeeds : Bool) :
    Calls Bytes Unit := do
  if !(← sqlite3_bind statement index (.blob data) succeeds) then
    sqlite3_finalize statement
    .throws (.runtime_error ("Failed to bind blob for " ++ label))

/-- `DatabaseImpl::add`. -/
def addCalls [DecidableEq Bytes] (codec : Codec Bytes) (orderBy : Sorting Int64 Bytes)
    (receivedTime : Int64) (pick : V1.Pick) (stmt : Statement) : Calls Bytes Unit := do
  match codec.serialize pick with
  | none => .throws (.runtime_error "Failed to serialize pick")
  | some proto =>
    match ← sqlite3_prepare_v2 .insertOrIgnore stmt.prepare with
    | none => .throws (.runtime_error "Failed to prepare pick insert statement")
    | some statement =>
      bindInt64 receivedTime 1 statement "received_time" stmt.bindInt64
      bindBlob proto 2 statement "proto" stmt.bindBlob
      if (← sqlite3_step orderBy statement stmt.step) ≠ .SQLITE_DONE then
        sqlite3_finalize statement
        .throws (.runtime_error "Failed to insert pick")
      else
        let changes ← sqlite3_changes
        sqlite3_finalize statement
        if 0 < changes then pure ()
        else .throws (.DuplicatePickException "Pick already exists in database")

/-- The loop of `DatabaseImpl::load`, up to `fuel` turns of it. -/
def loadRows [DecidableEq Bytes] (codec : Codec Bytes) (orderBy : Sorting Int64 Bytes)
    (statement : ℕ) (stmt : LoadStatement) :
    ℕ → List (Int64 × V1.Pick) → Calls Bytes (List (Int64 × V1.Pick))
  | 0, _ => .undefined
  | fuel + 1, result => do
    if (← sqlite3_step orderBy statement (stmt.yields.all (result.length < ·))) = .SQLITE_ROW then
      let (loadTime, blobData) ← sqlite3_column statement
      match codec.parse blobData with
      | none =>
        sqlite3_finalize statement
        .throws (.runtime_error "Failed to parse pick proto from database")
      | some pick => loadRows codec orderBy statement stmt fuel (result ++ [(loadTime, pick)])
    else pure result

/-- `DatabaseImpl::load`. -/
def loadCalls [DecidableEq Bytes] (codec : Codec Bytes) (orderBy : Sorting Int64 Bytes)
    (stmt : LoadStatement) (fuel : ℕ) : Calls Bytes (List (Int64 × V1.Pick)) := do
  match ← sqlite3_prepare_v2 .selectOrdered stmt.prepare with
  | none => .throws (.runtime_error "Failed to prepare load statement")
  | some statement =>
    let result ← loadRows codec orderBy statement stmt fuel []
    sqlite3_finalize statement
    pure result

/-- `DatabaseImpl::deletePicksBefore`. A step that fails is only logged. -/
def deleteCalls [DecidableEq Bytes] (orderBy : Sorting Int64 Bytes) (time : Int64)
    (stmt : Statement) : Calls Bytes ℤ := do
  match ← sqlite3_prepare_v2 .deleteBefore stmt.prepare with
  | none => .throws (.runtime_error "Failed to prepare delete statement")
  | some statement =>
    bindInt64 time 1 statement "received_time" stmt.bindInt64
    let _ ← sqlite3_step orderBy statement stmt.step
    let nDeleted ← sqlite3_changes
    sqlite3_finalize statement
    pure nDeleted

/-- The class with its handle. -/
structure SqliteDatabase (Bytes : Type) where
  mHandle : Sqlite3 Bytes := {}
  mIsOpen : Bool := true

namespace SqliteDatabase

def run {α : Type} (S : SqliteDatabase Bytes) (calls : Calls Bytes α) :
    Option (Except Exception α × SqliteDatabase Bytes) :=
  (calls S.mHandle).map fun result => (result.1, { S with mHandle := result.2 })

def add [DecidableEq Bytes] (codec : Codec Bytes) (orderBy : Sorting Int64 Bytes)
    (S : SqliteDatabase Bytes) (receivedTime : Int64) (pick : V1.Pick) (stmt : Statement) :
    Option (Except Exception Unit × SqliteDatabase Bytes) :=
  if pick.stream_identifier.isNone then
    some (.error (.invalid_argument "Stream identifier not set"), S)
  else if pick.time.isNone then
    some (.error (.invalid_argument "Pick time not set"), S)
  else if pick.algorithm.isNone then
    some (.error (.invalid_argument "Algorithm not set"), S)
  else if !S.mIsOpen then
    some (.error (.runtime_error "Database not open"), S)
  else S.run (addCalls codec orderBy receivedTime pick stmt)

def load [DecidableEq Bytes] (codec : Codec Bytes) (orderBy : Sorting Int64 Bytes)
    (S : SqliteDatabase Bytes) (stmt : LoadStatement) :
    Option (Except Exception (List (Int64 × V1.Pick)) × SqliteDatabase Bytes) :=
  if !S.mIsOpen then some (.error (.runtime_error "Database not open"), S)
  else S.run (loadCalls codec orderBy stmt (S.mHandle.picks.rows.length + 1))

def deletePicksBefore [DecidableEq Bytes] (orderBy : Sorting Int64 Bytes)
    (S : SqliteDatabase Bytes) (time : Int64) (stmt : Statement) :
    Option (Except Exception ℤ × SqliteDatabase Bytes) :=
  if !S.mIsOpen then some (.error (.runtime_error "Database not open"), S)
  else S.run (deleteCalls orderBy time stmt)

def close (S : SqliteDatabase Bytes) : Option (SqliteDatabase Bytes) :=
  if S.mIsOpen then
    (sqlite3_close S.mHandle).map fun result => { mHandle := result.2, mIsOpen := false }
  else some S

def call [DecidableEq Bytes] (codec : Codec Bytes) (orderBy : Sorting Int64 Bytes)
    (S : SqliteDatabase Bytes) : DatabaseCall → Option (DatabaseAnswer × SqliteDatabase Bytes)
  | .add receivedTime pick stmt =>
    (S.add codec orderBy receivedTime pick stmt).map fun r => (.added r.1, r.2)
  | .deletePicksBefore time stmt =>
    (S.deletePicksBefore orderBy time stmt).map fun r => (.deleted r.1, r.2)
  | .load stmt => (S.load codec orderBy stmt).map fun r => (.loaded r.1, r.2)

/-- One call after the other. -/
def calls [DecidableEq Bytes] (codec : Codec Bytes) (orderBy : Sorting Int64 Bytes) :
    SqliteDatabase Bytes → List DatabaseCall → Option (List DatabaseAnswer × SqliteDatabase Bytes)
  | S, [] => some ([], S)
  | S, call :: later =>
    (S.call codec orderBy call).bind fun r =>
      (calls codec orderBy r.2 later).map fun rs => (r.1 :: rs.1, rs.2)

/-- What the database is when one looks at no statement. -/
def database (S : SqliteDatabase Bytes) : Database Bytes where
  mIsOpen := S.mIsOpen
  picks := S.mHandle.picks
  changes := S.mHandle.changes

end SqliteDatabase

end PickBroker
