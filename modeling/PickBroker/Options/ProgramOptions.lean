import PickBroker.Options.ServiceOptions

namespace PickBroker

open Framework

namespace OTelOptions

structure GRPCMetrics where
  url : String := "localhost:4317"
  /-- Milliseconds. -/
  exportInterval : Int64 := 15 * 1000
  exportTimeOut : Int64 := 500
  certificatePath : String := ""

structure GRPCLog where
  url : String := "localhost:4317"
  exportTimeOut : Int64 := 500
  certificatePath : String := ""

structure HTTPMetrics where
  url : String := "localhost:4318"
  exportInterval : Int64 := 15 * 1000
  exportTimeOut : Int64 := 500
  suffix : String := "/v1/metrics"

structure HTTPLog where
  url : String := "localhost:4318"
  certificatePath : String := ""
  suffix : String := "/v1/logs"

end OTelOptions

def APPLICATION_NAME : String := "uFilterPickerPickBroker"

structure ProgramOptions where
  brokerOptions : BrokerOptions := {}
  otelHTTPMetricsOptions : OTelOptions.HTTPMetrics := {}
  otelHTTPLogOptions : OTelOptions.HTTPLog := {}
  otelGRPCMetricsOptions : OTelOptions.GRPCMetrics := {}
  otelGRPCLogOptions : OTelOptions.GRPCLog := {}
  applicationName : String := APPLICATION_NAME
  sqlite3File : String := "uFilterPickerMessageStore.sqlite3"
  /-- Seconds. -/
  printSummaryInterval : Int64 := 15 * 60
  verbosity : Int32 := 3
  exportLogs : Bool := false
  exportLogsWithHTTP : Bool := true
  exportMetrics : Bool := false
  exportMetricsWithHTTP : Bool := true
  deleteDatabaseIfExists : Bool := false

def getOTelMetricsIntervalAndTimeOut (env : Environment) (tree : PropertyTree) (sect : String)
    (defaultExportInterval defaultExportTimeOut : Int64) : Except Exception (Int64 × Int64) :=
  let exportInterval :=
    tree.get env.toInt64 (sect ++ ".exportIntervalInMilliSeconds") defaultExportInterval
  let exportTimeOut :=
    tree.get env.toInt64 (sect ++ ".exportTimeOutInMilliSeconds") defaultExportTimeOut
  if exportInterval ≤ 0 then .error (.runtime_error "Export interval must be positive")
  else if exportTimeOut ≤ 0 then .error (.invalid_argument "Export time out must be positive")
  else .ok (exportInterval, exportTimeOut)

/-- Empty when no host is given. -/
def getOTelCollectorURL (env : Environment) (tree : PropertyTree) (sect : String) : String :=
  let otelCollectorHost := tree.getString (sect ++ ".host") ""
  let otelCollectorPort := tree.get env.toUInt16 (sect ++ ".port") 4218
  if otelCollectorHost = "" then ""
  else otelCollectorHost ++ ":" ++ toString otelCollectorPort.toNat

/-- The suffix of an exporter that goes over HTTP, with a slash between it and the address. -/
def readSuffix (tree : PropertyTree) (sect default url : String) : String :=
  let suffix := tree.getString (sect ++ ".suffix") default
  if url ≠ "" ∧ suffix ≠ "" ∧ !url.endsWith "/" ∧ !suffix.startsWith "/" then "/" ++ suffix
  else suffix

/-- The certificate of an exporter that goes over gRPC; a file that is not there is ignored. -/
def readCertificatePath (env : Environment) (tree : PropertyTree) (sect : String) : String :=
  match tree.get_optional some (sect ++ ".certificate") with
  | none => ""
  | some certificatePath => if env.fileExists certificatePath then certificatePath else ""

namespace ProgramOptions

/-- The part of `parseIniFile` on the general section. The default of the summary interval is read
back in seconds and handed on as minutes. -/
def parseGeneral (env : Environment) (tree : PropertyTree) (options : ProgramOptions) :
    ProgramOptions :=
  let applicationName := tree.getString "General.applicationName" options.applicationName
  let summaryIntervalInMinutes := tree.get env.toInt "General.printSummaryIntervalInMinutes"
    options.printSummaryInterval.toInt32
  { options with
    applicationName := if applicationName = "" then APPLICATION_NAME else applicationName
    verbosity := tree.get env.toInt "General.verbosity" options.verbosity
    printSummaryInterval := summaryIntervalInMinutes.toInt64 * 60 }

def parseDatabase (env : Environment) (tree : PropertyTree) (options : ProgramOptions) :
    Except Exception ProgramOptions :=
  let sqlite3FileName := tree.getString "Database.sqlite3File" options.sqlite3File
  if sqlite3FileName = "" then .error (.invalid_argument "sqlite3 file is empty")
  else .ok
    { options with
      sqlite3File := sqlite3FileName
      deleteDatabaseIfExists :=
        tree.get env.toBool "Database.deleteIfExists" options.deleteDatabaseIfExists }

def parseLogging (env : Environment) (tree : PropertyTree) (options : ProgramOptions) :
    Except Exception ProgramOptions :=
  let options := { options with exportLogs := false }
  if (tree.get_optional some "OTelHTTPLogOptions").isSome then
    let url := getOTelCollectorURL env tree "OTelHTTPLogOptions"
    let suffix := readSuffix tree "OTelHTTPLogOptions" "/v1/logs" url
    if url = "" then .ok options
    else .ok
      { options with
        exportLogs := true
        exportLogsWithHTTP := true
        otelHTTPLogOptions := { url := url, suffix := suffix } }
  else if (tree.get_optional some "OTelGRPCLogOptions").isSome then
    if !env.withOTLPGRPC then
      .error (.runtime_error "Recompile with Conan to use gRPC logs exporter option")
    else
      let url := getOTelCollectorURL env tree "OTelGRPCLogOptions"
      let certificatePath := readCertificatePath env tree "OTelGRPCLogOptions"
      if url = "" then .ok options
      else .ok
        { options with
          exportLogs := true
          exportLogsWithHTTP := false
          otelGRPCLogOptions := { url := url, certificatePath := certificatePath } }
  else .ok options

/-- Over HTTP the interval and the time out are read when there is an address, over gRPC always. -/
def parseMetrics (env : Environment) (tree : PropertyTree) (options : ProgramOptions) :
    Except Exception ProgramOptions :=
  let options := { options with exportMetrics := false }
  if (tree.get_optional some "OTelHTTPMetricsOptions").isSome then
    let metricsOptions : OTelOptions.HTTPMetrics := {}
    let url := getOTelCollectorURL env tree "OTelHTTPMetricsOptions"
    let suffix := readSuffix tree "OTelHTTPMetricsOptions" "/v1/metrics" url
    if url = "" then .ok options
    else (getOTelMetricsIntervalAndTimeOut env tree "OTelHTTPMetricsOptions"
      metricsOptions.exportInterval metricsOptions.exportTimeOut).map fun times =>
      { options with
        exportMetrics := true
        exportMetricsWithHTTP := true
        otelHTTPMetricsOptions :=
          { url := url, suffix := suffix, exportInterval := times.1, exportTimeOut := times.2 } }
  else if (tree.get_optional some "OTelGRPCMetricsOptions").isSome then
    if !env.withOTLPGRPC then
      .error (.runtime_error "Recompile with Conan to use gRPC metrics exporter option")
    else
      let metricsOptions : OTelOptions.GRPCMetrics := {}
      let url := getOTelCollectorURL env tree "OTelGRPCMetricsOptions"
      (getOTelMetricsIntervalAndTimeOut env tree "OTelGRPCMetricsOptions"
        metricsOptions.exportInterval metricsOptions.exportTimeOut).map fun times =>
        let certificatePath := readCertificatePath env tree "OTelGRPCMetricsOptions"
        if url = "" then options
        else
          { options with
            exportMetrics := true
            exportMetricsWithHTTP := false
            otelGRPCMetricsOptions :=
              { url := url
                certificatePath := certificatePath
                exportInterval := times.1
                exportTimeOut := times.2 } }
  else .ok options

/-- `parseIniFile` behind the reading of the file. -/
def parsePropertyTree (env : Environment) (tree : PropertyTree) :
    Except Exception ProgramOptions := do
  let options : ProgramOptions := {}
  let options ← parseDatabase env tree (parseGeneral env tree options)
  let options ← parseLogging env tree options
  let options ← parseMetrics env tree options
  let brokerOptions ← getBrokerOptions env tree
  .ok { options with brokerOptions := brokerOptions }

end ProgramOptions

def parseIniFile (env : Environment) (iniFile : String) : Except Exception ProgramOptions :=
  if !env.fileExists iniFile then .ok {}
  else do
    let propertyTree ← env.read_ini iniFile
    ProgramOptions.parsePropertyTree env propertyTree

/-- The options of the command line, as boost has stored them. -/
structure VariablesMap where
  help : Bool := false
  ini : Option String := none

/-- The ini file, and whether help is asked for. -/
def parseCommandLineOptions (env : Environment) (vm : VariablesMap) :
    Except Exception (String × Bool) :=
  if vm.help then .ok ("", true)
  else match vm.ini with
    | none => .ok ("", false)
    | some iniFile =>
      if !env.fileExists iniFile then
        .error (.runtime_error ("Initialization file: " ++ iniFile ++ " does not exist"))
      else .ok (iniFile, false)

/-- The options outside those of the broker and of the exporters. -/
def ProgramOptions.settings (options : ProgramOptions) : String × String × Int64 × Int32 × Bool :=
  (options.applicationName, options.sqlite3File, options.printSummaryInterval, options.verbosity,
    options.deleteDatabaseIfExists)

section Parts

variable {env : Environment} {tree : PropertyTree} {options options' : ProgramOptions}

/-- The exporters touch no other option. -/
theorem parseLogging_settings (h : options.parseLogging env tree = .ok options') :
    options'.settings = options.settings := by
  unfold ProgramOptions.parseLogging at h
  dsimp only at h
  split at h
  · split at h
    all_goals
      obtain rfl := Except.ok.inj h
      rfl
  · split at h
    · split at h
      · cases h
      · split at h
        all_goals
          obtain rfl := Except.ok.inj h
          rfl
    · obtain rfl := Except.ok.inj h
      rfl

theorem parseMetrics_settings (h : options.parseMetrics env tree = .ok options') :
    options'.settings = options.settings := by
  unfold ProgramOptions.parseMetrics at h
  dsimp only at h
  split at h
  · split at h
    · obtain rfl := Except.ok.inj h
      rfl
    · obtain ⟨times, -, rfl⟩ := map_eq_ok_iff.mp h
      rfl
  · split at h
    · split at h
      · cases h
      · obtain ⟨times, -, hlast⟩ := map_eq_ok_iff.mp h
        rw [← hlast]
        split <;> rfl
    · obtain rfl := Except.ok.inj h
      rfl

end Parts

/-- What accepted options have from the tree. -/
structure OptionsRead (env : Environment) (tree : PropertyTree) (options : ProgramOptions) :
    Prop where
  application_name : options.applicationName =
    if tree.getString "General.applicationName" APPLICATION_NAME = "" then APPLICATION_NAME
    else tree.getString "General.applicationName" APPLICATION_NAME
  verbosity : options.verbosity = tree.get env.toInt "General.verbosity" 3
  /-- The default is nine hundred minutes. -/
  summary_interval : options.printSummaryInterval =
    (tree.get env.toInt "General.printSummaryIntervalInMinutes" 900).toInt64 * 60
  sqlite3_file : options.sqlite3File =
    tree.getString "Database.sqlite3File" "uFilterPickerMessageStore.sqlite3"
  delete : options.deleteDatabaseIfExists = tree.get env.toBool "Database.deleteIfExists" false
  broker : BrokerOptionsRead env tree options.brokerOptions

theorem parsePropertyTree_read {env : Environment} {tree : PropertyTree} {options : ProgramOptions}
    (h : ProgramOptions.parsePropertyTree env tree = .ok options) :
    OptionsRead env tree options := by
  unfold ProgramOptions.parsePropertyTree at h
  obtain ⟨stored, hdatabase, h⟩ := bind_eq_ok_iff.mp h
  obtain ⟨logged, hlogging, h⟩ := bind_eq_ok_iff.mp h
  obtain ⟨metered, hmetrics, h⟩ := bind_eq_ok_iff.mp h
  obtain ⟨brokerOptions, hbroker, hlast⟩ := bind_eq_ok_iff.mp h
  have hsettings : options.settings = stored.settings := by
    rw [← Except.ok.inj hlast]
    exact (parseMetrics_settings hmetrics).trans (parseLogging_settings hlogging)
  have hread : BrokerOptionsRead env tree options.brokerOptions := by
    rw [← Except.ok.inj hlast]
    exact getBrokerOptions_read hbroker
  unfold ProgramOptions.parseDatabase at hdatabase
  dsimp only at hdatabase
  split at hdatabase
  · cases hdatabase
  · obtain rfl := Except.ok.inj hdatabase
    simp only [ProgramOptions.settings, Prod.mk.injEq] at hsettings
    obtain ⟨hname, hfile, hinterval, hverbosity, hdelete⟩ := hsettings
    exact ⟨hname, hverbosity, hinterval, hfile, hdelete, hread⟩

end PickBroker
