import PickBroker.Options.Configuration
import PickBroker.Options.IniKeys
import PickBroker.Process.Lifetimes
import PickBroker.Process.Process

namespace PickBroker

open Framework

/-- What the calls of `main` out of the source come to: boost's reading of the command line, what
spdlog and the exporters of OpenTelemetry throw when they are set up, the calls of the database, and
the clocks. -/
structure MainCalls where
  parse_command_line : Except Exception VariablesMap
  exporters : Except Exception Unit := .ok ()
  setMeterProvider : Except Exception Unit := .ok ()
  createInstruments : Except Exception Unit := .ok ()
  parent_path : String → String := fun _ => ""
  readings : OpenReadings := {}
  stmt : LoadStatement := {}
  now : Int64 := 0
  mLastReport : Int64 := 0

/-- Logs that are not exported over HTTP are exported over gRPC, where the build can. -/
def Logger.initialize (env : Environment) (options : ProgramOptions)
    (exporters : Except Exception Unit) : Except Exception Unit :=
  if options.exportLogsWithHTTP then exporters
  else if env.withOTLPGRPC then exporters
  else .error (.runtime_error "Recompile with Conan and OTLP_GRPC")

def Metrics.initialize (env : Environment) (options : ProgramOptions)
    (setMeterProvider : Except Exception Unit) : Except Exception Unit :=
  if options.exportMetricsWithHTTP then
    if !options.exportMetrics then .ok () else setMeterProvider
  else if env.withOTLPGRPC then
    if !options.exportMetrics then .ok () else setMeterProvider
  else .error (.runtime_error "Recompile with Conan and OTLP_GRPC")

/-- `main` before it constructs the process. There are no options when it is asked for help. -/
def readOptions (env : Environment) (calls : MainCalls) :
    Except Exception (Option ProgramOptions) := do
  let vm ← calls.parse_command_line
  let (iniFileName, isHelp) ← parseCommandLineOptions env vm
  if isHelp then .ok none
  else if iniFileName = "" then .error (.runtime_error "No initialization file specified")
  else do
    let programOptions ← parseIniFile env iniFileName
    Logger.initialize env programOptions calls.exporters
    Metrics.initialize env programOptions calls.setMeterProvider
    .ok (some programOptions)

/-- `main` returns, or the thread of the process starts, with its broker. -/
inductive MainOutcome (Bytes : Type*) where
  | returned (code : ExitCode)
  | starts (P : Process) (B : Broker Bytes)

section Main

variable {Bytes : Type*} (codec : Codec Bytes) (sorting : Sorting Int64 V1.Pick)
  (orderBy : Sorting Int64 Bytes) (env : Environment) (calls : MainCalls)

/-- The construction that the options ask for. -/
def MainCalls.construction (options : ProgramOptions) : ProcessConstruction where
  deleteDatabaseIfExists := options.deleteDatabaseIfExists
  brokerOptions := options.brokerOptions
  readings := calls.readings
  stmt := calls.stmt
  now := calls.now
  isSecured := (options.brokerOptions.mSubscribeServiceOptions.getD {}).mGRPCOptions.secures

def MainCalls.fileName (options : ProgramOptions) : FileName where
  fileName := options.sqlite3File
  parent_path := calls.parent_path options.sqlite3File

/-- `main` from the construction of the process on. The instruments come last in the constructor,
and when they throw, the broker is destroyed again. -/
def launch (options : ProgramOptions) (path : Path Bytes) : MainOutcome Bytes × Path Bytes :=
  match (Installation.construct codec sorting orderBy (calls.fileName options) path
    (calls.construction options)).1 with
  | .stopped path => (.returned .EXIT_FAILURE, path)
  | .running B =>
    let path := .file (some B.mDatabase.object.picks)
    match if options.exportMetrics then calls.createInstruments else .ok () with
    | .error _ => (.returned .EXIT_FAILURE, path)
    | .ok _ => (.starts (Process.new options.printSummaryInterval calls.mLastReport) B, path)

/-- `main`, and the databases it leaves. Every exception ends it with a failure. -/
def main (disk : String → Path Bytes) : MainOutcome Bytes × (String → Path Bytes) :=
  match readOptions env calls with
  | .error _ => (.returned .EXIT_FAILURE, disk)
  | .ok none => (.returned .EXIT_SUCCESS, disk)
  | .ok (some options) =>
    let (outcome, path) := launch codec sorting orderBy calls options (disk options.sqlite3File)
    (outcome, Function.update disk options.sqlite3File path)

end Main

/-- The table a constructor of the database can come to: that of the file, or an empty one where
there is no file, or where there is none any more. -/
inductive Attainable {Bytes : Type*} (readings : OpenReadings) (deleteDatabaseIfExists : Bool) :
    Path Bytes → UniqueTable Int64 Bytes → Prop
  | kept (picks : UniqueTable Int64 Bytes) : deleteDatabaseIfExists = false →
    readings.open_v2 = none → Attainable readings deleteDatabaseIfExists (.file (some picks)) picks
  | replaced (picks : Option (UniqueTable Int64 Bytes)) : deleteDatabaseIfExists = true →
    readings.remove = .ok true → readings.open_v2 = none → readings.exec = none →
      Attainable readings deleteDatabaseIfExists (.file picks) {}
  | created : readings.open_v2 = none → readings.exec = none →
    Attainable readings deleteDatabaseIfExists .noFile {}
  | createdBelow : readings.create_directories = .ok true → readings.open_v2 = none →
    readings.exec = none → Attainable readings deleteDatabaseIfExists .noDirectory {}

/-- The ini file asks for metrics to be exported: over HTTP or, if it has no such section, over
gRPC, and in either case to a host. -/
def ExportsMetrics (tree : PropertyTree) : Prop :=
  (tree.data "OTelHTTPMetricsOptions").isSome ∧
      tree.getString "OTelHTTPMetricsOptions.host" "" ≠ "" ∨
    tree.data "OTelHTTPMetricsOptions" = none ∧ (tree.data "OTelGRPCMetricsOptions").isSome ∧
      tree.getString "OTelGRPCMetricsOptions.host" "" ≠ ""

/-- The command line names an ini file that is there and holds a configuration, and the exporters
can be set up. -/
structure Launchable (env : Environment) (calls : MainCalls) (tree : PropertyTree) : Prop where
  ini : ∃ iniFile, calls.parse_command_line = .ok { ini := some iniFile } ∧ iniFile ≠ "" ∧
    env.fileExists iniFile = true ∧ env.read_ini iniFile = .ok tree
  configured : Configured env tree
  exporters : calls.exporters = .ok ()
  metrics : ExportsMetrics tree → calls.setMeterProvider = .ok ()

section Exporters

variable {env : Environment} {tree : PropertyTree} {options options' : ProgramOptions}

/-- An exporter over gRPC is asked for only where it has been built, and asking is to export. -/
theorem parseLogging_exports (h : options.parseLogging env tree = .ok options') :
    (options.exportLogsWithHTTP = true →
        options'.exportLogsWithHTTP = false → env.withOTLPGRPC = true) ∧
      options'.exportMetrics = options.exportMetrics ∧
      options'.exportMetricsWithHTTP = options.exportMetricsWithHTTP := by
  unfold ProgramOptions.parseLogging at h
  dsimp only at h
  split at h
  · split at h
    all_goals
      obtain rfl := Except.ok.inj h
      simp_all
  · split at h
    · split at h
      · cases h
      · rename_i hbuilt
        split at h
        all_goals
          obtain rfl := Except.ok.inj h
          simp_all
    · obtain rfl := Except.ok.inj h
      simp_all

theorem parseMetrics_exports (h : options.parseMetrics env tree = .ok options')
    (hdefault : options.exportMetricsWithHTTP = true) :
    (options'.exportMetricsWithHTTP = false → env.withOTLPGRPC = true) ∧
      (options'.exportMetrics = true ↔ ExportsMetrics tree) ∧
      options'.exportLogsWithHTTP = options.exportLogsWithHTTP := by
  have hhttp : getOTelCollectorURL env tree "OTelHTTPMetricsOptions" = "" ↔
      tree.getString "OTelHTTPMetricsOptions.host" "" = "" := getOTelCollectorURL_eq_empty
  have hgrpc : getOTelCollectorURL env tree "OTelGRPCMetricsOptions" = "" ↔
      tree.getString "OTelGRPCMetricsOptions.host" "" = "" := getOTelCollectorURL_eq_empty
  unfold ProgramOptions.parseMetrics at h
  unfold ExportsMetrics
  simp only [get_optional_some] at h
  cases hdata : tree.data "OTelHTTPMetricsOptions" with
  | some text =>
    simp only [hdata, Option.isSome_some, if_true] at h
    split at h
    · rename_i hurl
      obtain rfl := Except.ok.inj h
      simp [hdefault, hhttp.mp hurl]
    · rename_i hurl
      obtain ⟨times, -, rfl⟩ := map_eq_ok_iff.mp h
      have hhost : tree.getString "OTelHTTPMetricsOptions.host" "" ≠ "" :=
        fun he => hurl (hhttp.mpr he)
      simp [hhost]
  | none =>
    simp only [hdata, Option.isSome_none, Bool.false_eq_true, if_false] at h
    cases hgrpcData : tree.data "OTelGRPCMetricsOptions" with
    | none =>
      simp only [hgrpcData, Option.isSome_none, Bool.false_eq_true, if_false] at h
      obtain rfl := Except.ok.inj h
      simp [hdefault]
    | some text =>
      simp only [hgrpcData, Option.isSome_some, if_true] at h
      split at h
      · cases h
      · rename_i hbuilt
        obtain ⟨times, -, rfl⟩ := map_eq_ok_iff.mp h
        split
        · rename_i hurl
          simp [hdefault, hgrpc.mp hurl]
        · rename_i hurl
          have hhost : tree.getString "OTelGRPCMetricsOptions.host" "" ≠ "" :=
            fun he => hurl (hgrpc.mpr he)
          simpa [hhost] using hbuilt

theorem parsePropertyTree_exports (h : ProgramOptions.parsePropertyTree env tree = .ok options) :
    (options.exportLogsWithHTTP = false → env.withOTLPGRPC = true) ∧
      (options.exportMetricsWithHTTP = false → env.withOTLPGRPC = true) ∧
      (options.exportMetrics = true ↔ ExportsMetrics tree) := by
  unfold ProgramOptions.parsePropertyTree at h
  obtain ⟨stored, hdatabase, h⟩ := bind_eq_ok_iff.mp h
  obtain ⟨logged, hlogging, h⟩ := bind_eq_ok_iff.mp h
  obtain ⟨metered, hmetrics, h⟩ := bind_eq_ok_iff.mp h
  obtain ⟨brokerOptions, -, hlast⟩ := bind_eq_ok_iff.mp h
  obtain rfl := Except.ok.inj hlast
  unfold ProgramOptions.parseDatabase at hdatabase
  dsimp only at hdatabase
  split at hdatabase
  · cases hdatabase
  · obtain rfl := Except.ok.inj hdatabase
    obtain ⟨hlogs, -, hwithHTTP⟩ := parseLogging_exports hlogging
    obtain ⟨hbuilt, hexports, hsame⟩ := parseMetrics_exports hmetrics hwithHTTP
    refine ⟨?_, hbuilt, hexports⟩
    intro hgrpc
    exact hlogs rfl (hsame ▸ hgrpc)

end Exporters

section Reading

variable {env : Environment} {calls : MainCalls} {options : ProgramOptions}

/-- With options that were read from a file the loggers do not ask for a build they are not in. -/
theorem initialize_iff {tree : PropertyTree}
    (h : ProgramOptions.parsePropertyTree env tree = .ok options) :
    Logger.initialize env options calls.exporters = calls.exporters ∧
      ((ExportsMetrics tree → calls.setMeterProvider = .ok ()) ↔
        Metrics.initialize env options calls.setMeterProvider = .ok ()) := by
  obtain ⟨hlogs, hmetrics, hexports⟩ := parsePropertyTree_exports h
  rw [← hexports]
  constructor
  · unfold Logger.initialize
    cases hhttp : options.exportLogsWithHTTP with
    | true => rfl
    | false => simp [hlogs hhttp]
  · unfold Metrics.initialize
    cases hhttp : options.exportMetricsWithHTTP with
    | true => cases options.exportMetrics <;> simp
    | false => cases options.exportMetrics <;> simp [hmetrics hhttp]

theorem parseCommandLineOptions_ok_iff {vm : VariablesMap} {iniFile : String} :
    parseCommandLineOptions env vm = .ok (iniFile, false) ∧ iniFile ≠ "" ↔
      vm = { ini := some iniFile } ∧ iniFile ≠ "" ∧ env.fileExists iniFile = true := by
  obtain ⟨help, ini⟩ := vm
  unfold parseCommandLineOptions
  cases help with
  | true => simp
  | false =>
    cases ini with
    | none =>
      simp only [Bool.false_eq_true, if_false]
      constructor
      · intro h
        exact absurd (Prod.mk.inj (Except.ok.inj h.1)).1.symm h.2
      · intro h
        cases h.1
    | some name =>
      cases hexists : env.fileExists name with
      | false =>
        simp only [Bool.false_eq_true, if_false, hexists, Bool.not_false, if_true]
        constructor
        · intro h
          cases h.1
        · rintro ⟨heq, -, hthere⟩
          cases heq
          rw [hexists] at hthere
          cases hthere
      | true =>
        simp only [Bool.false_eq_true, if_false, hexists, Bool.not_true]
        constructor
        · rintro ⟨heq, hne⟩
          obtain rfl := (Prod.mk.inj (Except.ok.inj heq)).1
          exact ⟨rfl, hne, hexists⟩
        · rintro ⟨heq, hne, -⟩
          cases heq
          exact ⟨rfl, hne⟩

/-- `main` comes to options exactly when an ini file holds a configuration that can be launched. -/
theorem readOptions_some_iff :
    readOptions env calls = .ok (some options) ↔
      ∃ tree, Launchable env calls tree ∧
        ProgramOptions.parsePropertyTree env tree = .ok options := by
  constructor
  · intro h
    obtain ⟨vm, hvm, h⟩ := bind_eq_ok_iff.mp h
    obtain ⟨⟨iniFileName, isHelp⟩, hparse, h⟩ := bind_eq_ok_iff.mp h
    dsimp only at h
    split at h
    · cases h
    · rename_i hhelp
      obtain rfl : isHelp = false := by simpa using hhelp
      split at h
      · cases h
      · rename_i hne
        obtain ⟨hcommand, -, hexists⟩ := parseCommandLineOptions_ok_iff.mp ⟨hparse, hne⟩
        obtain ⟨options', hini, h⟩ := bind_eq_ok_iff.mp h
        obtain ⟨_, hlogger, h⟩ := bind_eq_ok_iff.mp h
        obtain ⟨_, hmetrics, h⟩ := bind_eq_ok_iff.mp h
        obtain rfl := Option.some.inj (Except.ok.inj h)
        unfold parseIniFile at hini
        rw [hexists] at hini
        obtain ⟨tree, hread, htree⟩ := bind_eq_ok_iff.mp hini
        obtain ⟨hsame, hiff⟩ := @initialize_iff env calls _ _ htree
        refine ⟨tree, ⟨⟨iniFileName, ?_, hne, hexists, hread⟩,
          accepts_parsePropertyTree.mp ⟨_, htree⟩, hsame ▸ hlogger, hiff.mpr hmetrics⟩, htree⟩
        rw [hvm, hcommand]
  · rintro ⟨tree, hlaunch, htree⟩
    obtain ⟨iniFile, hvm, hne, hexists, hread⟩ := hlaunch.ini
    obtain ⟨hsame, hiff⟩ := @initialize_iff env calls _ _ htree
    have hparse := (@parseCommandLineOptions_ok_iff env _ _).mpr ⟨rfl, hne, hexists⟩
    have hini : parseIniFile env iniFile = .ok options := by
      unfold parseIniFile
      rw [hexists]
      exact bind_eq_ok_iff.mpr ⟨tree, hread, htree⟩
    refine bind_eq_ok_iff.mpr ⟨_, hvm, bind_eq_ok_iff.mpr ⟨_, hparse.1, ?_⟩⟩
    simp only [Bool.false_eq_true, if_false, if_neg hne]
    refine bind_eq_ok_iff.mpr ⟨options, hini, bind_eq_ok_iff.mpr ⟨(), ?_, ?_⟩⟩
    · rw [hsame]
      exact hlaunch.exporters
    · exact bind_eq_ok_iff.mpr ⟨(), hiff.mp hlaunch.metrics, rfl⟩

theorem Launchable.readOptions {tree : PropertyTree} (h : Launchable env calls tree) :
    ∃ options, readOptions env calls = .ok (some options) := by
  obtain ⟨options, hparse⟩ := accepts_parsePropertyTree.mpr h.configured
  exact ⟨options, readOptions_some_iff.mpr ⟨tree, h, hparse⟩⟩

theorem not_launchable_of_readOptions {tree : PropertyTree}
    (h : ∀ options, readOptions env calls ≠ .ok (some options)) : ¬ Launchable env calls tree := by
  intro hlaunch
  obtain ⟨options, hoptions⟩ := hlaunch.readOptions
  exact h options hoptions

/-- There is nothing to launch exactly when help is asked for. -/
theorem readOptions_none_iff :
    readOptions env calls = .ok none ↔
      ∃ vm, calls.parse_command_line = .ok vm ∧ vm.help = true := by
  constructor
  · intro h
    obtain ⟨vm, hvm, h⟩ := bind_eq_ok_iff.mp h
    refine ⟨vm, hvm, ?_⟩
    by_contra hhelp
    obtain ⟨⟨iniFileName, isHelp⟩, hparse, h⟩ := bind_eq_ok_iff.mp h
    have hnot : isHelp = false := by
      unfold parseCommandLineOptions at hparse
      rw [if_neg hhelp] at hparse
      split at hparse
      · exact (Prod.mk.inj (Except.ok.inj hparse)).2.symm
      · split at hparse
        · cases hparse
        · exact (Prod.mk.inj (Except.ok.inj hparse)).2.symm
    subst hnot
    dsimp only at h
    rw [if_neg (by simp)] at h
    split at h
    · cases h
    · obtain ⟨options', -, h⟩ := bind_eq_ok_iff.mp h
      obtain ⟨_, -, h⟩ := bind_eq_ok_iff.mp h
      obtain ⟨_, -, h⟩ := bind_eq_ok_iff.mp h
      cases h
  · rintro ⟨vm, hvm, hhelp⟩
    refine bind_eq_ok_iff.mpr ⟨vm, hvm, bind_eq_ok_iff.mpr ⟨("", true), ?_, rfl⟩⟩
    rw [parseCommandLineOptions, if_pos hhelp]

end Reading

section Launching

variable {Bytes : Type*} {path : Path Bytes} {deleteDatabaseIfExists : Bool}
  {readings : OpenReadings} {picks : UniqueTable Int64 Bytes}

theorem openFile_created {opened : Option (UniqueTable Int64 Bytes)} :
    (Database.openFile (.noFile : Path Bytes) true readings).1 = .ok opened ↔
      readings.open_v2 = none ∧ readings.exec = none ∧ opened = some {} := by
  unfold Database.openFile Database.createTables
  cases readings.open_v2 with
  | some errstr => simp
  | none => cases readings.exec <;> simp [Path.directoryExists, eq_comm]

theorem openFile_kept {present opened : Option (UniqueTable Int64 Bytes)} :
    (Database.openFile (.file present) false readings).1 = .ok opened ↔
      readings.open_v2 = none ∧ opened = present := by
  unfold Database.openFile
  cases readings.open_v2 <;> simp [eq_comm]

theorem openImpl_created (name : FileName) :
    (Database.openImpl name (.noFile : Path Bytes) true readings).1 = .ok (some picks) ↔
      readings.open_v2 = none ∧ readings.exec = none ∧ picks = {} := by
  rw [← Option.some_inj (b := ({} : UniqueTable Int64 Bytes))]
  exact openFile_created

theorem openImpl_createdBelow (name : FileName) :
    (Database.openImpl name (.noDirectory : Path Bytes) true readings).1 = .ok (some picks) ↔
      readings.create_directories = .ok true ∧ readings.open_v2 = none ∧ readings.exec = none ∧
        picks = {} := by
  unfold Database.openImpl
  rcases hcreate : readings.create_directories with e | created
  · simp [Path.directoryExists]
  · cases created <;> simp [Path.directoryExists, openFile_created]

/-- The constructor opens a file with this table when the file that is left when it has deleted is
opened with it. -/
theorem construct_opens_iff (name : FileName) (path : Path Bytes) (mode : Mode) :
    (∃ opened, (Database.construct name path mode readings).1 = .ok opened ∧
      opened.hasTable = true ∧ opened.database = { picks := picks }) ↔
      ∃ createSchema path', Database.deleteExisting name path mode readings =
          (.ok createSchema, path') ∧
        (Database.openImpl name path' createSchema readings).1 = .ok (some picks) := by
  unfold Database.construct
  rcases Database.deleteExisting name path mode readings with ⟨createSchema | createSchema, path'⟩
  · simp
  · rcases hopen : Database.openImpl name path' createSchema readings with ⟨e | found, path''⟩
    · simp [hopen]
    · cases found <;> simp [hopen]

/-- What is left when the constructor has deleted is all that matters to it. -/
theorem opens_after_delete {name : FileName} {path path' : Path Bytes} {mode : Mode}
    {createSchema : Bool}
    (h : Database.deleteExisting name path mode readings = (.ok createSchema, path')) :
    (∃ createSchema path', Database.deleteExisting name path mode readings =
        (.ok createSchema, path') ∧
      (Database.openImpl name path' createSchema readings).1 = .ok (some picks)) ↔
      (Database.openImpl name path' createSchema readings).1 = .ok (some picks) := by
  constructor
  · rintro ⟨_, _, heq, hok⟩
    obtain ⟨hcreate, rfl⟩ := Prod.mk.inj (h.symm.trans heq)
    obtain rfl := Except.ok.inj hcreate
    exact hok
  · intro hok
    exact ⟨createSchema, path', h, hok⟩

/-- In a constructor that is to create the database, a file gives way when it can be removed. -/
theorem deleteExisting_replaces_iff {name : FileName}
    {present : Option (UniqueTable Int64 Bytes)} {createSchema : Bool} {path' : Path Bytes} :
    Database.deleteExisting name (.file present) .Create readings = (.ok createSchema, path') ↔
      readings.remove = .ok true ∧ createSchema = true ∧ path' = .noFile := by
  unfold Database.deleteExisting
  rcases readings.remove with e | removed
  · simp [Path.fileExists]
  · cases removed <;> simp [Path.fileExists, eq_comm]

/-- The constructor of the database opens a file with a picks table exactly when there is one to
come to. -/
theorem construct_iff (name : FileName) :
    (∃ opened, (Database.construct name path
        (Installation.databaseOpenMode path deleteDatabaseIfExists) readings).1 = .ok opened ∧
      opened.hasTable = true ∧ opened.database = { picks := picks }) ↔
      Attainable readings deleteDatabaseIfExists path picks := by
  rw [construct_opens_iff]
  cases path with
  | noDirectory =>
    have hdelete : Database.deleteExisting name (.noDirectory : Path Bytes)
        (Installation.databaseOpenMode (.noDirectory : Path Bytes) deleteDatabaseIfExists)
        readings = (.ok true, .noDirectory) := rfl
    rw [opens_after_delete hdelete, openImpl_createdBelow]
    constructor
    · rintro ⟨hcreate, hv2, hexec, rfl⟩
      exact .createdBelow hcreate hv2 hexec
    · intro h
      cases h with
      | createdBelow hcreate hv2 hexec => exact ⟨hcreate, hv2, hexec, rfl⟩
  | noFile =>
    have hdelete : Database.deleteExisting name (.noFile : Path Bytes)
        (Installation.databaseOpenMode (.noFile : Path Bytes) deleteDatabaseIfExists)
        readings = (.ok true, .noFile) := rfl
    rw [opens_after_delete hdelete, openImpl_created]
    constructor
    · rintro ⟨hv2, hexec, rfl⟩
      exact .created hv2 hexec
    · intro h
      cases h with
      | created hv2 hexec => exact ⟨hv2, hexec, rfl⟩
  | file present =>
    cases deleteDatabaseIfExists with
    | false =>
      have hdelete : Database.deleteExisting name (.file present)
          (Installation.databaseOpenMode (.file present) false) readings =
            (.ok false, .file present) := rfl
      have hopen : (Database.openImpl name (.file present) false readings).1 = .ok (some picks) ↔
          readings.open_v2 = none ∧ some picks = present := openFile_kept
      rw [opens_after_delete hdelete, hopen]
      constructor
      · rintro ⟨hv2, rfl⟩
        exact .kept picks rfl hv2
      · intro h
        cases h with
        | kept _ _ hv2 => exact ⟨hv2, rfl⟩
        | replaced _ habsurd => cases habsurd
    | true =>
      have hmode : Installation.databaseOpenMode (.file present) true = .Create := rfl
      rw [hmode]
      constructor
      · rintro ⟨createSchema, path', heq, hok⟩
        obtain ⟨hremove, rfl, rfl⟩ := deleteExisting_replaces_iff.mp heq
        obtain ⟨hv2, hexec, rfl⟩ := (openImpl_created name).mp hok
        exact .replaced present rfl hremove hv2 hexec
      · intro h
        cases h with
        | kept _ habsurd => cases habsurd
        | replaced _ _ hremove hv2 hexec =>
          exact ⟨true, .noFile, deleteExisting_replaces_iff.mpr ⟨hremove, rfl, rfl⟩,
            (openImpl_created name).mpr ⟨hv2, hexec, rfl⟩⟩

theorem construct_database {name : FileName} {mode : Mode} {opened : Database.Opened Bytes}
    (h : (Database.construct name path mode readings).1 = .ok opened) :
    opened.database = { picks := opened.database.picks } := by
  unfold Database.construct at h
  split at h
  · cases h
  · split at h
    · cases h
    · obtain rfl := Except.ok.inj h
      rfl

/-- The constructor of the process comes to a broker when a table is there to come to, and a broker
can be made with it. -/
theorem construct_running_iff (codec : Codec Bytes) (sorting : Sorting Int64 V1.Pick)
    (orderBy : Sorting Int64 Bytes) (name : FileName) (path : Path Bytes)
    (construction : ProcessConstruction) (picks : UniqueTable Int64 Bytes) :
    (∃ B, (Installation.construct codec sorting orderBy name path construction).1 = .running B ∧
      B.mDatabase.object.picks = picks) ↔
      Attainable construction.readings construction.deleteDatabaseIfExists path picks ∧
        Accepts (Broker.new codec sorting orderBy construction.brokerOptions
          (some { picks := picks }) construction.stmt construction.now construction.isSecured) := by
  have hstmt {found : Bool} (hfound : found = true) : ({ construction.stmt with
      prepare := construction.stmt.prepare && found } : LoadStatement) = construction.stmt := by
    rw [hfound, Bool.and_true]
  constructor
  · rintro ⟨B, hrunning, rfl⟩
    rcases Installation.construct_cases codec sorting orderBy name path construction with
      ⟨path', e, hconstruct, -⟩ | ⟨B', opened, hconstruct, hdatabase, hnew⟩
    · rw [hconstruct] at hrunning
      cases hrunning
    · rw [hconstruct] at hrunning
      cases hrunning
      obtain ⟨-, htable⟩ := Installation.new_hasTable hnew
      have hobject := Installation.new_mDatabase hnew
      have hopened := construct_database hdatabase
      rw [hstmt htable] at hnew
      rw [hobject]
      rw [hopened] at hnew
      exact ⟨(construct_iff name).mp ⟨opened, hdatabase, htable, hopened⟩, B, hnew⟩
  · rintro ⟨hattainable, B, hnew⟩
    obtain ⟨opened, hdatabase, htable, hopened⟩ := (construct_iff name).mpr hattainable
    have hpair : Database.construct name path (Installation.databaseOpenMode path
        construction.deleteDatabaseIfExists) construction.readings = (.ok opened, _) :=
      Prod.ext hdatabase rfl
    rw [← hopened, ← hstmt htable] at hnew
    refine ⟨B, ?_, ?_⟩
    · unfold Installation.construct
      rw [hpair]
      dsimp only
      rw [hnew]
    · rw [Installation.new_mDatabase hnew, hopened]

/-- A file that the constructor of the process is not asked to delete keeps its rows. -/
theorem construct_keeps (codec : Codec Bytes) (sorting : Sorting Int64 V1.Pick)
    (orderBy : Sorting Int64 Bytes) (name : FileName) (path : Path Bytes)
    (construction : ProcessConstruction) :
    (Installation.construct codec sorting orderBy name path construction).1.rows = path.rows ∨
      construction.deleteDatabaseIfExists = true ∧
        (Installation.construct codec sorting orderBy name path construction).1.rows = [] := by
  rw [Installation.construct_rows]
  split
  · rename_i hremoves
    right
    refine ⟨?_, rfl⟩
    by_contra hnot
    have hmode : Installation.databaseOpenMode path construction.deleteDatabaseIfExists =
        .ReadWrite := by
      rw [Installation.databaseOpenMode, Bool.eq_false_iff.mpr hnot, Bool.and_false]
      rfl
    rw [Installation.removes, hmode, Database.deleteExisting, Bool.and_not_self] at hremoves
    cases hremoves
  · exact Or.inl rfl

end Launching

/-- The file of the database that the ini file names. -/
def PropertyTree.sqlite3File (tree : PropertyTree) : String :=
  tree.getString "Database.sqlite3File" "uFilterPickerMessageStore.sqlite3"

/-- The ini file asks for a new database. -/
def PropertyTree.deletes (env : Environment) (tree : PropertyTree) : Bool :=
  tree.get env.toBool "Database.deleteIfExists" false

/-- The process the ini file asks for. -/
def PropertyTree.process (env : Environment) (tree : PropertyTree) (mLastReport : Int64) :
    Process :=
  .new ((tree.get env.toInt "General.printSummaryIntervalInMinutes" 900).toInt64 * 60) mLastReport

section Outcome

variable {Bytes : Type} (codec : Codec Bytes) (sorting : Sorting Int64 V1.Pick)
  (orderBy : Sorting Int64 Bytes) {env : Environment} {calls : MainCalls}

theorem launch_starts_iff {tree : PropertyTree} {options : ProgramOptions}
    (h : ProgramOptions.parsePropertyTree env tree = .ok options) (path : Path Bytes) (P : Process)
    (picks : UniqueTable Int64 Bytes) :
    (∃ B, (launch codec sorting orderBy calls options path).1 = .starts P B ∧
      B.mDatabase.object.picks = picks) ↔
      Attainable calls.readings (tree.deletes env) path picks ∧
        Accepts (({ picks := picks } : Database Bytes).load codec orderBy calls.stmt) ∧
        (ExportsMetrics tree → calls.createInstruments = .ok ()) ∧
        P = tree.process env calls.mLastReport := by
  have hread := parsePropertyTree_read h
  obtain ⟨-, -, hexports⟩ := parsePropertyTree_exports h
  have hstartable : Startable options.brokerOptions := by
    apply (startable_iff _).mpr
    obtain ⟨publish, hpublish, -⟩ := hread.broker.publish
    obtain ⟨subscribe, hsubscribe, -⟩ := hread.broker.subscribe
    rw [hpublish, hsubscribe]
    exact ⟨rfl, rfl⟩
  have hconstruct := construct_running_iff codec sorting orderBy (calls.fileName options) path
    (calls.construction options) picks
  have hload := hstartable Bytes codec sorting orderBy { picks := picks } calls.stmt calls.now
    (calls.construction options).isSecured
  have hdelete : (calls.construction options).deleteDatabaseIfExists = tree.deletes env :=
    hread.delete
  have hprocess : Process.new options.printSummaryInterval calls.mLastReport =
      tree.process env calls.mLastReport := by
    rw [hread.summary_interval]
    rfl
  rw [hdelete] at hconstruct
  have hrunning : (∃ B, (Installation.construct codec sorting orderBy (calls.fileName options) path
        (calls.construction options)).1 = .running B ∧ B.mDatabase.object.picks = picks) ↔
      Attainable calls.readings (tree.deletes env) path picks ∧
        Accepts (({ picks := picks } : Database Bytes).load codec orderBy calls.stmt) :=
    hconstruct.trans (and_congr_right' hload)
  rw [← and_assoc, ← hrunning, ← hexports, ← hprocess]
  unfold launch
  rcases (Installation.construct codec sorting orderBy (calls.fileName options) path
    (calls.construction options)).1 with path' | B
  · simp
  · cases options.exportMetrics with
    | false => simp [eq_comm, and_comm]
    | true => rcases calls.createInstruments with e | _ <;> simp [eq_comm, and_comm]

theorem launch_rows (options : ProgramOptions) (path : Path Bytes) :
    (launch codec sorting orderBy calls options path).2.rows =
      (Installation.construct codec sorting orderBy (calls.fileName options) path
        (calls.construction options)).1.rows := by
  unfold launch
  rcases (Installation.construct codec sorting orderBy (calls.fileName options) path
    (calls.construction options)).1 with path' | B
  · rfl
  · dsimp only
    split <;> rfl

theorem launch_not_success (options : ProgramOptions) (path : Path Bytes) :
    (launch codec sorting orderBy calls options path).1 ≠ .returned .EXIT_SUCCESS := by
  unfold launch
  rcases (Installation.construct codec sorting orderBy (calls.fileName options) path
    (calls.construction options)).1 with path' | B
  · simp
  · dsimp only
    split <;> simp

variable (env calls) (disk : String → Path Bytes)

theorem main_of_options {options : ProgramOptions}
    (h : readOptions env calls = .ok (some options)) :
    main codec sorting orderBy env calls disk =
      ((launch codec sorting orderBy calls options (disk options.sqlite3File)).1,
        Function.update disk options.sqlite3File
          (launch codec sorting orderBy calls options (disk options.sqlite3File)).2) := by
  simp only [main, h]

/-- Without options no process starts, and no file is touched. -/
theorem main_without_options (h : ∀ options, readOptions env calls ≠ .ok (some options)) :
    ∃ code, main codec sorting orderBy env calls disk = (.returned code, disk) ∧
      (code = .EXIT_SUCCESS ↔ readOptions env calls = .ok none) := by
  rcases hread : readOptions env calls with e | _ | options
  · exact ⟨.EXIT_FAILURE, by simp only [main, hread], by simp⟩
  · exact ⟨.EXIT_SUCCESS, by simp only [main, hread], by simp⟩
  · exact absurd hread (h options)

theorem main_starts_iff (P : Process) (picks : UniqueTable Int64 Bytes) :
    (∃ B, (main codec sorting orderBy env calls disk).1 = .starts P B ∧
      B.mDatabase.object.picks = picks) ↔
      ∃ tree, Launchable env calls tree ∧
        Attainable calls.readings (tree.deletes env) (disk tree.sqlite3File) picks ∧
        Accepts (({ picks := picks } : Database Bytes).load codec orderBy calls.stmt) ∧
        (ExportsMetrics tree → calls.createInstruments = .ok ()) ∧
        P = tree.process env calls.mLastReport := by
  by_cases hread : ∃ options, readOptions env calls = .ok (some options)
  · obtain ⟨options, hread⟩ := hread
    rw [main_of_options codec sorting orderBy env calls disk hread]
    constructor
    · intro hstarts
      obtain ⟨tree, hlaunchable, hparse⟩ := readOptions_some_iff.mp hread
      rw [(parsePropertyTree_read hparse).sqlite3_file] at hstarts
      exact ⟨tree, hlaunchable,
        (launch_starts_iff codec sorting orderBy hparse _ P picks).mp hstarts⟩
    · rintro ⟨tree, hlaunchable, hrest⟩
      obtain ⟨options', hparse⟩ := accepts_parsePropertyTree.mpr hlaunchable.configured
      have hagain := readOptions_some_iff.mpr ⟨tree, hlaunchable, hparse⟩
      obtain rfl : options' = options :=
        Option.some.inj (Except.ok.inj (hagain.symm.trans hread))
      rw [(parsePropertyTree_read hparse).sqlite3_file]
      exact (launch_starts_iff codec sorting orderBy hparse _ P picks).mpr hrest
  · have hnone : ∀ options, readOptions env calls ≠ .ok (some options) := not_exists.mp hread
    obtain ⟨code, hmain, -⟩ := main_without_options codec sorting orderBy env calls disk hnone
    rw [hmain]
    apply iff_of_false
    · rintro ⟨B, hstarts, -⟩
      cases hstarts
    · rintro ⟨tree, hlaunchable, -⟩
      exact not_launchable_of_readOptions hnone hlaunchable

theorem main_succeeds_iff :
    (main codec sorting orderBy env calls disk).1 = .returned .EXIT_SUCCESS ↔
      ∃ vm, calls.parse_command_line = .ok vm ∧ vm.help = true := by
  rw [← readOptions_none_iff]
  by_cases hread : ∃ options, readOptions env calls = .ok (some options)
  · obtain ⟨options, hread⟩ := hread
    rw [main_of_options codec sorting orderBy env calls disk hread, hread]
    apply iff_of_false
    · exact launch_not_success codec sorting orderBy options _
    · simp
  · obtain ⟨code, hmain, hcode⟩ :=
      main_without_options codec sorting orderBy env calls disk (not_exists.mp hread)
    rw [hmain, ← hcode]
    simp

theorem main_keeps (file : String) :
    ((main codec sorting orderBy env calls disk).2 file).rows = (disk file).rows ∨
      ((main codec sorting orderBy env calls disk).2 file).rows = [] ∧
        ∃ tree, Launchable env calls tree ∧ file = tree.sqlite3File ∧
          tree.deletes env = true := by
  by_cases hread : ∃ options, readOptions env calls = .ok (some options)
  · obtain ⟨options, hread⟩ := hread
    obtain ⟨tree, hlaunchable, hparse⟩ := readOptions_some_iff.mp hread
    have hoptions := parsePropertyTree_read hparse
    rw [main_of_options codec sorting orderBy env calls disk hread]
    dsimp only
    by_cases hnamed : file = options.sqlite3File
    · subst hnamed
      rw [Function.update_self, launch_rows]
      rcases construct_keeps codec sorting orderBy (calls.fileName options)
        (disk options.sqlite3File) (calls.construction options) with hkept | ⟨hdelete, hgone⟩
      · exact Or.inl hkept
      · exact Or.inr ⟨hgone, tree, hlaunchable, hoptions.sqlite3_file,
          hoptions.delete.symm.trans hdelete⟩
    · rw [Function.update_of_ne hnamed]
      exact Or.inl rfl
  · obtain ⟨code, hmain, -⟩ :=
      main_without_options codec sorting orderBy env calls disk (not_exists.mp hread)
    rw [hmain]
    exact Or.inl rfl

/-- The program starts a process with a database exactly when the command line names an ini file
that holds a configuration, the exporters it asks for can be set up, and the file it names comes to
that database and can be loaded; it ends with success before that only when it is asked for help;
and no file loses a row but the one that a configuration with `deleteIfExists` names. -/
theorem main_starts_configured (env : Environment) (calls : MainCalls)
    (disk : String → Path Bytes) :
    let result := main codec sorting orderBy env calls disk
    (∀ P picks, (∃ B, result.1 = .starts P B ∧ B.mDatabase.object.picks = picks) ↔
      ∃ tree, Launchable env calls tree ∧
        Attainable calls.readings (tree.deletes env) (disk tree.sqlite3File) picks ∧
        Accepts (({ picks := picks } : Database Bytes).load codec orderBy calls.stmt) ∧
        (ExportsMetrics tree → calls.createInstruments = .ok ()) ∧
        P = tree.process env calls.mLastReport) ∧
      (result.1 = .returned .EXIT_SUCCESS ↔
        ∃ vm, calls.parse_command_line = .ok vm ∧ vm.help = true) ∧
      ∀ file, (result.2 file).rows = (disk file).rows ∨
        (result.2 file).rows = [] ∧ ∃ tree, Launchable env calls tree ∧
          file = tree.sqlite3File ∧ tree.deletes env = true := by
  intro result
  exact ⟨main_starts_iff codec sorting orderBy env calls disk,
    main_succeeds_iff codec sorting orderBy env calls disk,
    main_keeps codec sorting orderBy env calls disk⟩

end Outcome

-- The file of the repository, where there is no database yet.
example : ∃ B, (main Codec.plain (Sorting.stable Int64 V1.Pick) (Sorting.stable Int64 V1.Pick)
    shipped { parse_command_line := .ok { ini := some "broker.ini" } } fun _ => .noFile).1 =
      .starts (.new 900 0) B ∧ B.mDatabase.object.picks.rows = [] := ⟨_, rfl, rfl⟩

end PickBroker
