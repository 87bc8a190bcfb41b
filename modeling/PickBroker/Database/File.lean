import PickBroker.Database.Database

namespace PickBroker

open Framework

/-- How to open the database. -/
inductive Mode where
  | Create
  | ReadWrite
  deriving DecidableEq

/-- What is at the path of the database. A file need not have a picks table. -/
inductive Path (Bytes : Type*) where
  | noDirectory
  | noFile
  | file (picks : Option (UniqueTable Int64 Bytes))

namespace Path

variable {Bytes : Type*}

def fileExists : Path Bytes → Bool
  | .file _ => true
  | .noDirectory | .noFile => false

def directoryExists : Path Bytes → Bool
  | .noDirectory => false
  | .noFile | .file _ => true

/-- The rows of the picks table, where there is one. -/
def rows : Path Bytes → List (Int64 × Bytes)
  | .file (some picks) => picks.rows
  | .noDirectory | .noFile | .file none => []

end Path

structure FileName where
  fileName : String
  parent_path : String

/-- What the calls of the constructor come to: what `remove` and `create_directories` return or
throw, and the texts of `sqlite3_errstr` and `errMsg` when sqlite fails. -/
structure OpenReadings where
  remove : Except Exception Bool := .ok true
  create_directories : Except Exception Bool := .ok true
  open_v2 : Option String := none
  exec : Option String := none

namespace Database

variable {Bytes : Type*}

def createTables (picks : Option (UniqueTable Int64 Bytes)) (exec : Option String) :
    Except Exception (UniqueTable Int64 Bytes) :=
  match exec, picks with
  | some errMsg, _ => .error (.runtime_error ("Failed to create picks table: " ++ errMsg))
  | none, some _ =>
    .error (.runtime_error "Failed to create picks table: table picks already exists")
  | none, none => .ok {}

/-- `sqlite3_open_v2` with its flags, and what `open` does behind it. Opening with
`SQLITE_OPEN_CREATE` makes an empty file where there is none. -/
def openFile (path : Path Bytes) (createSchema : Bool) (readings : OpenReadings) :
    Except Exception (Option (UniqueTable Int64 Bytes)) × Path Bytes :=
  match readings.open_v2, path with
  | some errstr, _ => (.error (.runtime_error ("Failed to open database: " ++ errstr)), path)
  | none, .file picks =>
    if createSchema then
      match createTables picks readings.exec with
      | .error e => (.error e, .file picks)
      | .ok picks => (.ok (some picks), .file (some picks))
    else (.ok picks, .file picks)
  | none, .noDirectory | none, .noFile =>
    if createSchema && path.directoryExists then
      match createTables none readings.exec with
      | .error e => (.error e, .file none)
      | .ok picks => (.ok (some picks), .file (some picks))
    else
      (.error (.runtime_error "Failed to open database: unable to open database file"), path)

/-- `DatabaseImpl::open`, which makes the directory first. -/
def openImpl (name : FileName) (path : Path Bytes) (createSchema : Bool)
    (readings : OpenReadings) :
    Except Exception (Option (UniqueTable Int64 Bytes)) × Path Bytes :=
  if createSchema && !path.directoryExists then
    match readings.create_directories with
    | .error e => (.error e, path)
    | .ok false =>
      (.error (.runtime_error ("Failed to create directory " ++ name.parent_path)), path)
    | .ok true => openFile .noFile createSchema readings
  else openFile path createSchema readings

/-- The constructor up to `open`: it deletes the file when it is to create one, and says whether the
schema is to be created. -/
def deleteExisting (name : FileName) (path : Path Bytes) (mode : Mode) (readings : OpenReadings) :
    Except Exception Bool × Path Bytes :=
  match mode with
  | .Create =>
    if path.fileExists then
      match readings.remove with
      | .error e => (.error e, path)
      -- `remove` says no when the file is not there any more.
      | .ok false =>
        (.error (.runtime_error ("Failed to delete existing database " ++ name.fileName)), .noFile)
      | .ok true => (.ok true, .noFile)
    else (.ok true, path)
  | .ReadWrite => (.ok (!path.fileExists), path)

/-- A database that is open, and whether its file has the picks table. -/
structure Opened (Bytes : Type*) where
  database : Database Bytes
  hasTable : Bool

/-- The constructor. -/
def construct (name : FileName) (path : Path Bytes) (mode : Mode) (readings : OpenReadings) :
    Except Exception (Opened Bytes) × Path Bytes :=
  match deleteExisting name path mode readings with
  | (.error e, path) => (.error e, path)
  | (.ok createSchema, path) =>
    match openImpl name path createSchema readings with
    | (.error e, path) => (.error e, path)
    | (.ok picks, path) =>
      (.ok { database := { picks := picks.getD {} }, hasTable := picks.isSome }, path)

variable (name : FileName) (path : Path Bytes) (mode : Mode) (createSchema : Bool)
  (readings : OpenReadings)

/-- A table is created only where there is none, and then it is empty. -/
theorem createTables_ok {picks : Option (UniqueTable Int64 Bytes)} {exec : Option String}
    {created : UniqueTable Int64 Bytes} (h : createTables picks exec = .ok created) :
    picks = none ∧ created = {} := by
  unfold createTables at h
  split at h
  · cases h
  · cases h
  · cases h
    exact ⟨rfl, rfl⟩

/-- Opening the file touches no row, and finds the table that is in the file then. -/
theorem openFile_rows :
    (openFile path createSchema readings).2.rows = path.rows ∧
      ∀ picks, (openFile path createSchema readings).1 = .ok picks →
        (openFile path createSchema readings).2 = .file picks := by
  unfold openFile
  split
  · exact ⟨rfl, nofun⟩
  · split
    · split
      · exact ⟨rfl, nofun⟩
      · rename_i created hcreated
        obtain ⟨rfl, rfl⟩ := createTables_ok hcreated
        exact ⟨rfl, fun picks h => congrArg _ (Except.ok.inj h)⟩
    · exact ⟨rfl, fun picks h => congrArg _ (Except.ok.inj h)⟩
  all_goals
    split
    · split
      · exact ⟨rfl, nofun⟩
      · rename_i created hcreated
        obtain ⟨-, rfl⟩ := createTables_ok hcreated
        exact ⟨rfl, fun picks h => congrArg _ (Except.ok.inj h)⟩
    · exact ⟨rfl, nofun⟩

theorem openImpl_rows :
    (openImpl name path createSchema readings).2.rows = path.rows ∧
      ∀ picks, (openImpl name path createSchema readings).1 = .ok picks →
        (openImpl name path createSchema readings).2 = .file picks := by
  unfold openImpl
  split
  · rename_i hdirectory
    have hnone : path.rows = [] := by
      cases path with
      | noDirectory => rfl
      | noFile | file picks => simp [Path.directoryExists] at hdirectory
    split
    · exact ⟨rfl, nofun⟩
    · exact ⟨rfl, nofun⟩
    · obtain ⟨hrows, hpicks⟩ := openFile_rows (.noFile : Path Bytes) createSchema readings
      exact ⟨hrows.trans hnone.symm, hpicks⟩
  · exact openFile_rows path createSchema readings

/-- Only the deletion of the file takes its rows. -/
theorem deleteExisting_cases :
    (deleteExisting name path mode readings).2 = path ∨
      path.fileExists = true ∧ (deleteExisting name path mode readings).2 = .noFile := by
  unfold deleteExisting
  split
  · split
    · split
      · exact Or.inl rfl
      · exact Or.inr ⟨‹_›, rfl⟩
      · exact Or.inr ⟨‹_›, rfl⟩
    · exact Or.inl rfl
  · exact Or.inl rfl

theorem construct_rows :
    (construct name path mode readings).2.rows =
        (deleteExisting name path mode readings).2.rows ∧
      ∀ opened, (construct name path mode readings).1 = .ok opened →
        opened.database.mIsOpen = true ∧
          (construct name path mode readings).2 =
            .file (if opened.hasTable then some opened.database.picks else none) := by
  unfold construct
  split
  · rename_i e kept hdelete
    rw [hdelete]
    exact ⟨rfl, nofun⟩
  · rename_i createSchema kept hdelete
    rw [hdelete]
    obtain ⟨hrows, hpicks⟩ := openImpl_rows name kept createSchema readings
    split
    · rename_i e after hopen
      rw [hopen] at hrows
      exact ⟨hrows, nofun⟩
    · rename_i picks after hopen
      rw [hopen] at hrows hpicks
      refine ⟨hrows, ?_⟩
      intro opened h
      cases h
      refine ⟨rfl, (hpicks picks rfl).trans ?_⟩
      cases picks <;> rfl

end Database

end PickBroker
