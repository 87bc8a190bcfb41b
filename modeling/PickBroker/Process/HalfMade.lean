import PickBroker.Process.Lifetimes

namespace PickBroker

open Framework

namespace Database

variable {Bytes : Type*} (name : FileName) (path : Path Bytes) (createSchema : Bool)
  (readings : OpenReadings)

/-- Where no table is left, there was none, or it could not be created. -/
def LeftWithoutTable (path : Path Bytes) (readings : OpenReadings) {α : Type*}
    (result : Except Exception α) : Prop :=
  path = .file none ∨ ∃ errMsg, readings.exec = some errMsg ∧
    result = .error (.runtime_error ("Failed to create picks table: " ++ errMsg))

theorem createTables_error {exec : Option String} {e : Exception}
    (h : createTables (none : Option (UniqueTable Int64 Bytes)) exec = .error e) :
    ∃ errMsg, exec = some errMsg ∧
      e = .runtime_error ("Failed to create picks table: " ++ errMsg) := by
  unfold createTables at h
  split at h
  · cases h
    exact ⟨_, rfl, rfl⟩
  · rename_i hnone
    cases hnone
  · cases h

theorem openFile_none (h : (openFile path createSchema readings).2 = .file none) :
    LeftWithoutTable path readings (openFile path createSchema readings).1 := by
  unfold openFile at h ⊢
  split at h
  · exact Or.inl h
  · split at h
    · split at h
      · cases h
        exact Or.inl rfl
      · cases h
    · exact Or.inl h
  all_goals
    split at h
    · split at h
      · rename_i hfailed
        obtain ⟨errMsg, hexec, rfl⟩ := createTables_error hfailed
        exact Or.inr ⟨errMsg, hexec, by simp_all⟩
      · cases h
    · cases h

theorem openImpl_none (h : (openImpl name path createSchema readings).2 = .file none) :
    LeftWithoutTable path readings (openImpl name path createSchema readings).1 := by
  unfold openImpl at h ⊢
  split
  · rename_i hdirectory
    rw [if_pos hdirectory] at h
    split at h
    · exact Or.inl h
    · exact Or.inl h
    · rcases openFile_none (.noFile : Path Bytes) createSchema readings h with habsurd | hfailed
      · cases habsurd
      · exact Or.inr hfailed
  · rename_i hdirectory
    rw [if_neg hdirectory] at h
    exact openFile_none path createSchema readings h

theorem construct_none {mode : Mode} (h : (construct name path mode readings).2 = .file none)
    (hpath : path ≠ .file none) {opened : Except Exception (Opened Bytes)}
    (hopened : (construct name path mode readings).1 = opened) :
    ∃ errMsg, readings.exec = some errMsg ∧
      opened = .error (.runtime_error ("Failed to create picks table: " ++ errMsg)) := by
  have hkept : (deleteExisting name path mode readings).2 ≠ .file none := by
    rcases deleteExisting_cases name path mode readings with hsame | ⟨-, hgone⟩
    · rwa [hsame]
    · rw [hgone]
      exact nofun
  unfold construct at h hopened
  split at hopened
  · rename_i e kept hdelete
    rw [hdelete] at h hkept
    exact absurd h hkept
  · rename_i createSchema kept hdelete
    rw [hdelete] at h hkept
    have hopen := openImpl_none name kept createSchema readings
    split at hopened
    · rename_i e after himpl
      simp only [himpl] at h hopen
      rcases hopen h with habsurd | ⟨errMsg, hexec, hfailed⟩
      · exact absurd habsurd hkept
      · exact ⟨errMsg, hexec, hopened.symm.trans (congrArg _ (Except.error.inj hfailed))⟩
    · rename_i picks after himpl
      simp only [himpl] at h hopen
      rcases hopen h with habsurd | ⟨errMsg, -, hfailed⟩
      · exact absurd habsurd hkept
      · cases hfailed

/-- The schema is not created in a file that is kept. -/
theorem deleteExisting_kept {mode : Mode} (h : path.fileExists = true)
    (hkept : (deleteExisting name path mode readings).2 = path) :
    (deleteExisting name path mode readings).1 = .ok false ∨
      ∃ e, (deleteExisting name path mode readings).1 = .error e := by
  cases mode with
  | ReadWrite =>
    left
    simp [deleteExisting, h]
  | Create =>
    right
    have hgone : path ≠ .noFile := by
      intro hnone
      rw [hnone] at h
      cases h
    simp only [deleteExisting, h, if_true] at hkept ⊢
    split at hkept
    · exact ⟨_, rfl⟩
    · exact absurd hkept.symm hgone
    · exact absurd hkept.symm hgone

theorem openImpl_kept (h : path.fileExists = true) :
    (openImpl name path false readings).2 = path := by
  cases path with
  | noDirectory | noFile => cases h
  | file picks =>
    simp only [openImpl, Bool.false_and, Bool.false_eq_true, if_false, openFile]
    split <;> simp_all

/-- A file that is not deleted is left as it is. -/
theorem construct_kept {mode : Mode} (h : path.fileExists = true)
    (hkept : (deleteExisting name path mode readings).2 = path) :
    (construct name path mode readings).2 = path := by
  have hresult := deleteExisting_kept name path readings h hkept
  unfold construct
  split
  · rename_i e kept hdelete
    rw [hdelete] at hkept
    exact hkept
  · rename_i createSchema kept hdelete
    rw [hdelete] at hkept hresult
    have hsame : kept = path := hkept
    have hfalse : createSchema = false := by
      rcases hresult with hok | ⟨e, he⟩
      · exact Except.ok.inj hok
      · cases he
    have hopen := openImpl_kept name path readings h
    rw [hsame, hfalse]
    split
    · rename_i himpl
      rwa [himpl] at hopen
    · rename_i himpl
      rwa [himpl] at hopen

end Database

namespace Installation

variable {Bytes : Type*} (codec : Codec Bytes) (sorting : Sorting Int64 V1.Pick)
  (orderBy : Sorting Int64 Bytes) (name : FileName) (construction : ProcessConstruction)

/-- On a file without the table, no process is constructed, and none is created unless the file is
removed. -/
theorem construct_of_none (h : removes name (.file none : Path Bytes) construction = false) :
    ∃ e, construct codec sorting orderBy name (.file none) construction =
      (.stopped (.file none), [.notConstructed e]) := by
  have hremoval : removal name (.file none : Path Bytes) construction = [] := by
    rw [removal, h]
    rfl
  have hkept : (Database.deleteExisting name (.file none : Path Bytes)
      (databaseOpenMode (.file none : Path Bytes) construction.deleteDatabaseIfExists)
      construction.readings).2 = .file none := by
    rcases Database.deleteExisting_cases name (.file none : Path Bytes)
      (databaseOpenMode (.file none : Path Bytes) construction.deleteDatabaseIfExists)
      construction.readings with hsame | ⟨-, hgone⟩
    · exact hsame
    · rw [removes, hgone] at h
      cases h
  have hfile := Database.construct_kept name (.file none : Path Bytes) construction.readings rfl
    hkept
  rcases construct_cases codec sorting orderBy name (.file none) construction with
    ⟨path', e, hconstruct, hpath, -⟩ | ⟨B, opened, -, hdatabase, hbroker⟩
  · refine ⟨e, ?_⟩
    rw [hconstruct, hpath, hfile, hremoval]
    rfl
  · obtain ⟨-, htable⟩ := new_hasTable hbroker
    have hsome := ((Database.construct_rows name (.file none : Path Bytes) _ _).2 opened
      hdatabase).2
    rw [hfile, htable] at hsome
    cases hsome

end Installation

section Runs

variable {Bytes : Type*} [DecidableEq Bytes] (codec : Codec Bytes)
  (sorting : Sorting Int64 V1.Pick) (orderBy : Sorting Int64 Bytes) (name : FileName)

/-- The database has a file without the picks table. -/
def HalfMade (I : Installation Bytes) : Prop := I = .stopped (.file none)

theorem HalfMade.next {I : Installation Bytes} (h : HalfMade I) (event : InstallationEvent)
    (hkept : .removed ∉ (installation codec sorting orderBy name).answer I event) :
    HalfMade ((installation codec sorting orderBy name).next I event) ∧
      ∀ action ∈ (installation codec sorting orderBy name).answer I event,
        ∃ e, action = .notConstructed e := by
  rw [h] at hkept ⊢
  cases event with
  | construct construction =>
    have hnot : Installation.removes name (.file none : Path Bytes) construction = false := by
      by_contra hremoves
      rw [Bool.not_eq_false] at hremoves
      apply hkept
      rcases Installation.construct_cases codec sorting orderBy name (.file none) construction with
        ⟨path', e, hconstruct, -⟩ | ⟨B, opened, hconstruct, -⟩ <;>
        simp [Machine.answer, installation, hconstruct, Installation.removal, hremoves]
    obtain ⟨e, hconstruct⟩ :=
      Installation.construct_of_none codec sorting orderBy name construction hnot
    simp only [Machine.next, Machine.answer, installation, hconstruct]
    refine ⟨rfl, fun action haction => ⟨e, ?_⟩⟩
    simpa using haction
  | broker _ | ends => exact ⟨rfl, fun _ haction => absurd haction List.not_mem_nil⟩

/-- The construction in which the picks table cannot be created. -/
def CreationFails (I : Installation Bytes) (event : InstallationEvent) : Prop :=
  ∃ construction errMsg, event = .construct construction ∧
    construction.readings.exec = some errMsg ∧
    .notConstructed (.runtime_error ("Failed to create picks table: " ++ errMsg)) ∈
      (installation codec sorting orderBy name).answer I event

theorem HalfMade.of_next {I : Installation Bytes} (h : ¬ HalfMade I) {event : InstallationEvent}
    (hnext : HalfMade ((installation codec sorting orderBy name).next I event)) :
    CreationFails codec sorting orderBy name I event := by
  cases I with
  | running B => cases event <;> cases hnext
  | stopped path =>
    cases event with
    | broker event => exact absurd hnext h
    | ends => exact absurd hnext h
    | construct construction =>
      have hpath : path ≠ .file none := fun heq => h (congrArg Installation.stopped heq)
      rcases Installation.construct_cases codec sorting orderBy name path construction with
        ⟨path', e, hconstruct, hpath', herror⟩ | ⟨B, opened, hconstruct, -⟩
      · have hmade : path' = .file none := by
          simp only [HalfMade, Machine.next, installation, hconstruct] at hnext
          exact Installation.stopped.inj hnext
        obtain ⟨errMsg, hexec, hfailed⟩ := Database.construct_none name path
          construction.readings (hpath' ▸ hmade) hpath rfl
        have he := herror _ hfailed
        refine ⟨construction, errMsg, rfl, hexec, ?_⟩
        simp [Machine.answer, installation, hconstruct, he]
      · simp only [HalfMade, Machine.next, installation, hconstruct] at hnext
        cases hnext

/-- A file without the picks table comes of a failed creation of the table and of nothing else; and
as long as nobody has the file deleted, no process is constructed on it, however often that is
tried. A process that is killed between `sqlite3_open_v2` and CREATE TABLE leaves the same file, and
counts as one whose creation of the table has failed. -/
theorem half_made_database (I : Installation Bytes) (events : List InstallationEvent) :
    (HalfMade I → .removed ∉ (installation codec sorting orderBy name).trace I events →
      HalfMade ((installation codec sorting orderBy name).final I events) ∧
        ∀ action ∈ (installation codec sorting orderBy name).trace I events,
          ∃ e, action = .notConstructed e) ∧
      (¬ HalfMade I → HalfMade ((installation codec sorting orderBy name).final I events) →
        ∃ before event after, events = before ++ event :: after ∧
          CreationFails codec sorting orderBy name
            ((installation codec sorting orderBy name).final I before) event) := by
  constructor
  · intro h hkept
    induction events generalizing I with
    | nil => exact ⟨h, fun _ haction => absurd haction List.not_mem_nil⟩
    | cons event events ih =>
      rw [Machine.trace_cons, List.mem_append, not_or] at hkept
      obtain ⟨hnext, hfirst⟩ := h.next codec sorting orderBy name event hkept.1
      obtain ⟨hfinal, hlater⟩ := ih _ hnext hkept.2
      exact ⟨hfinal, List.forall_mem_append.mpr ⟨hfirst, hlater⟩⟩
  · intro h hfinal
    induction events generalizing I with
    | nil => exact absurd hfinal h
    | cons event events ih =>
      by_cases hnext : HalfMade ((installation codec sorting orderBy name).next I event)
      · exact ⟨[], event, events, rfl, HalfMade.of_next codec sorting orderBy name h hnext⟩
      · obtain ⟨before, later, after, rfl, hfails⟩ := ih _ hnext hfinal
        exact ⟨event :: before, later, after, rfl, hfails⟩

end Runs

/-- The disk is full when the table is to be created, and is not any more the next day. -/
theorem half_made_database_diskFull :
    let firstTry : InstallationEvent := .construct
      { bothConstructed with readings := { exec := some "database or disk is full" } }
    let I := sampleInstallation.final (.stopped .noFile) [firstTry]
    HalfMade I ∧ HalfMade (sampleInstallation.final I [.construct bothConstructed]) := by
  intro firstTry I
  have hI : HalfMade I := rfl
  exact ⟨hI, ((half_made_database Codec.plain (Sorting.stable Int64 V1.Pick)
    (Sorting.stable Int64 V1.Pick) sampleFile I [.construct bothConstructed]).1 hI (by decide)).1⟩

end PickBroker
