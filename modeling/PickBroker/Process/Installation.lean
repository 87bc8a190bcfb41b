import PickBroker.Broker.Broker
import PickBroker.Database.File

namespace PickBroker

open Framework

/-- A construction of the process: its options, how its calls go, and what its clock says. -/
structure ProcessConstruction where
  deleteDatabaseIfExists : Bool := false
  brokerOptions : BrokerOptions
  readings : OpenReadings := {}
  stmt : LoadStatement := {}
  now : Int64 := 0
  isSecured : Bool

/-- The database between and during the lifetimes of processes. While there is one, the table is
that of its broker: what a statement has done is in the file when the statement is done. -/
inductive Installation (Bytes : Type*) where
  | stopped (path : Path Bytes)
  | running (B : Broker Bytes)

/-- A process is constructed, its broker takes a step, or it ends, however that comes. One that is
killed in its constructor counts as one whose constructor throws at the call it did not come to: it
leaves the same file. -/
inductive InstallationEvent where
  | construct (construction : ProcessConstruction)
  | broker (event : BrokerEvent)
  | ends

inductive LifetimeAction where
  | removed
  | constructed
  | notConstructed (e : Exception)
  | broker (action : Action)
  deriving DecidableEq

namespace Installation

variable {Bytes : Type*}

/-- `databaseOpenMode` in the constructor of the process. -/
def databaseOpenMode (path : Path Bytes) (deleteDatabaseIfExists : Bool) : Mode :=
  if path.fileExists && deleteDatabaseIfExists then .Create else .ReadWrite

/-- Whether the constructor of the database gets rid of a file. -/
def removes (name : FileName) (path : Path Bytes) (construction : ProcessConstruction) : Bool :=
  path.fileExists && !(Database.deleteExisting name path
    (databaseOpenMode path construction.deleteDatabaseIfExists) construction.readings).2.fileExists

/-- The constructor of the process: its database, and then its broker, which loads the picks. Where
there is no picks table, the loading statement cannot be prepared. -/
def construct (codec : Codec Bytes) (sorting : Sorting Int64 V1.Pick)
    (orderBy : Sorting Int64 Bytes) (name : FileName) (path : Path Bytes)
    (construction : ProcessConstruction) : Installation Bytes × List LifetimeAction :=
  let removed := if removes name path construction then [LifetimeAction.removed] else []
  match Database.construct name path
      (databaseOpenMode path construction.deleteDatabaseIfExists) construction.readings with
  | (.error e, path) => (.stopped path, removed ++ [.notConstructed e])
  | (.ok opened, path) =>
    let stmt : LoadStatement :=
      { construction.stmt with prepare := construction.stmt.prepare && opened.hasTable }
    match Broker.new codec sorting orderBy construction.brokerOptions (some opened.database) stmt
        construction.now construction.isSecured with
    | .error e => (.stopped path, removed ++ [.notConstructed e])
    | .ok B => (.running B, removed ++ [.constructed])

def rows : Installation Bytes → List (Int64 × Bytes)
  | .stopped path => path.rows
  | .running B => B.mDatabase.object.picks.rows

end Installation

/-- The lifetimes of processes that share a database, one after the other. -/
def installation {Bytes : Type*} [DecidableEq Bytes] (codec : Codec Bytes)
    (sorting : Sorting Int64 V1.Pick) (orderBy : Sorting Int64 Bytes) (name : FileName) :
    Machine (Installation Bytes) InstallationEvent (List LifetimeAction) where
  step
    | .stopped path, .construct construction =>
      Installation.construct codec sorting orderBy name path construction
    | .running B, .broker event =>
      let (B, actions) := (broker codec sorting).step B event
      (.running B, actions.map .broker)
    | .running B, .ends => (.stopped (.file (some B.mDatabase.object.picks)), [])
    | I, _ => (I, [])

end PickBroker
