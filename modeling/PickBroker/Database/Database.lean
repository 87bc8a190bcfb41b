import PickBroker.Api.Messages
import PickBroker.Framework.Int64Order
import PickBroker.Framework.TimedLog
import PickBroker.Framework.UniqueTable

namespace PickBroker

open Framework

/-- Serialisation of picks; parsing inverts it. -/
structure Codec (Bytes : Type*) where
  serialize : V1.Pick → Option Bytes
  parse : Bytes → Option V1.Pick
  parse_serialize : ∀ {pick proto}, serialize pick = some proto → parse proto = some pick

/-- A field list stands for its bytes. -/
def Codec.plain : Codec V1.Pick where
  serialize := some
  parse := some
  parse_serialize h := h.symm

theorem Codec.serialize_inj {Bytes : Type*} (codec : Codec Bytes) {p q : V1.Pick} {proto : Bytes}
    (hp : codec.serialize p = some proto) (hq : codec.serialize q = some proto) : p = q :=
  Option.some.inj ((codec.parse_serialize hp).symm.trans (codec.parse_serialize hq))

/-- Which of the sqlite calls of a statement succeed; `step` succeeds with SQLITE_DONE. -/
structure Statement where
  prepare : Bool := true
  bindInt64 : Bool := true
  bindBlob : Bool := true
  step : Bool := true
  deriving DecidableEq

def Statement.ok : Statement := {}

/-- How often the loading statement yields SQLITE_ROW; `none` is until there is no row left. -/
structure LoadStatement where
  prepare : Bool := true
  yields : Option ℕ := none

/-- The database handle with the picks table of its file. `changes` is what `sqlite3_changes`
says: the number of rows the last completed statement has changed, which sqlite tells as an `int`
as long as there are fewer than 2^31 of them. -/
structure Database (Bytes : Type*) where
  mIsOpen : Bool := true
  picks : UniqueTable Int64 Bytes := {}
  changes : ℤ := 0

namespace Database

variable {Bytes : Type*}

/-- `DatabaseImpl::add`. A statement that fails changes no row. -/
def addImpl [DecidableEq Bytes] (codec : Codec Bytes) (db : Database Bytes) (receivedTime : Int64)
    (pick : V1.Pick) (stmt : Statement) : Except Exception Unit × Database Bytes :=
  match codec.serialize pick with
  | none => (.error (.runtime_error "Failed to serialize pick"), db)
  | some proto =>
    if !stmt.prepare then
      (.error (.runtime_error "Failed to prepare pick insert statement"), db)
    else if !stmt.bindInt64 then
      (.error (.runtime_error "Failed to bind int64 for received_time"), db)
    else if !stmt.bindBlob then
      (.error (.runtime_error "Failed to bind blob for proto"), db)
    else if !stmt.step then
      (.error (.runtime_error "Failed to insert pick"), db)
    else
      let db := { db with
        picks := db.picks.insertOrIgnore (receivedTime, proto)
        changes := if proto ∈ db.picks.values then 0 else 1 }
      if 0 < db.changes then (.ok (), db)
      else (.error (.DuplicatePickException "Pick already exists in database"), db)

def add [DecidableEq Bytes] (codec : Codec Bytes) (db : Database Bytes) (receivedTime : Int64)
    (pick : V1.Pick) (stmt : Statement) : Except Exception Unit × Database Bytes :=
  if pick.stream_identifier.isNone then
    (.error (.invalid_argument "Stream identifier not set"), db)
  else if pick.time.isNone then
    (.error (.invalid_argument "Pick time not set"), db)
  else if pick.algorithm.isNone then
    (.error (.invalid_argument "Algorithm not set"), db)
  else if !db.mIsOpen then
    (.error (.runtime_error "Database not open"), db)
  else
    addImpl codec db receivedTime pick stmt

/-- The rows the statement yields are parsed until one does not parse. -/
def parseRows (codec : Codec Bytes) :
    List (Int64 × Bytes) → Except Exception (List (Int64 × V1.Pick))
  | [] => .ok []
  | (loadTime, proto) :: rows =>
    match codec.parse proto with
    | none => .error (.runtime_error "Failed to parse pick proto from database")
    | some pick => (parseRows codec rows).map fun result => (loadTime, pick) :: result

/-- `ORDER BY received_time ASC` leaves the order of ties open. -/
def load (codec : Codec Bytes) (orderBy : Sorting Int64 Bytes) (db : Database Bytes)
    (stmt : LoadStatement) : Except Exception (List (Int64 × V1.Pick)) :=
  if !db.mIsOpen then .error (.runtime_error "Database not open")
  else if !stmt.prepare then .error (.runtime_error "Failed to prepare load statement")
  else
    let rows := orderBy.sort db.picks.rows
    parseRows codec (rows.take (stmt.yields.getD rows.length))

/-- A step that fails is only logged; the number is then the one of the statement before. -/
def deletePicksBefore (db : Database Bytes) (time : Int64) (stmt : Statement) :
    Except Exception ℤ × Database Bytes :=
  if !db.mIsOpen then (.error (.runtime_error "Database not open"), db)
  else if !stmt.prepare then (.error (.runtime_error "Failed to prepare delete statement"), db)
  else if !stmt.bindInt64 then
    (.error (.runtime_error "Failed to bind int64 for received_time"), db)
  else
    let db := if stmt.step then
        { db with
          picks := db.picks.deleteBefore time
          changes := (db.picks.rows.filter fun row => row.1 < time).length }
      else db
    (.ok db.changes, db)

def close (db : Database Bytes) : Database Bytes := { db with mIsOpen := false }

/-- Opening the file anew: the table is in the file, and no statement has been run. -/
def reopened (db : Database Bytes) : Database Bytes := { picks := db.picks }

end Database

end PickBroker
