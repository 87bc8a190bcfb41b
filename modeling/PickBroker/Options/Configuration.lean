import PickBroker.Broker.Broker
import PickBroker.Options.ProgramOptions

namespace PickBroker

open Framework

/-- The file is there, can be opened and is not empty. -/
def Usable (env : Environment) (path : String) : Prop :=
  env.fileExists path = true ∧ ∃ contents, env.fileContents path = some contents ∧ contents ≠ ""

/-- The section names both the key and the certificate of the server. -/
def NamesCredentials (tree : PropertyTree) (sect : String) : Prop :=
  tree.getString (sect ++ ".clientKey") "" ≠ "" ∧
    tree.getString (sect ++ ".serverCertificate") "" ≠ ""

/-- What a section has to say about its server. -/
structure ServerConfigured (env : Environment) (tree : PropertyTree) (sect : String) : Prop where
  host : tree.getString (sect ++ ".host") "localhost" ≠ ""
  port : tree.get env.toUInt16 (sect ++ ".port") 50000 ≠ 0
  credentials : NamesCredentials tree sect →
    Usable env (tree.getString (sect ++ ".clientKey") "") ∧
      Usable env (tree.getString (sect ++ ".serverCertificate") "")
  token : ∀ accessToken, tree.data (sect ++ ".accessToken") = some accessToken →
    accessToken ≠ "" ∧ NamesCredentials tree sect
  client_certificate : tree.getString (sect ++ ".clientCertificate") "" ≠ "" →
    Usable env (tree.getString (sect ++ ".clientCertificate") "")

section Server

variable {env : Environment} {tree : PropertyTree} {sect : String} {options : GRPCServerOptions}

theorem get_optional_some (path : String) : tree.get_optional some path = tree.data path := by
  unfold PropertyTree.get_optional
  cases tree.data path <;> rfl

theorem accepts_requireFile (what path : String) :
    Accepts (requireFile env what path) ↔ env.fileExists path = true := by
  unfold requireFile
  cases env.fileExists path <;> simp

theorem accepts_setText {what text : String} {set : text ≠ "" → GRPCServerOptions} :
    Accepts (setText what text set) ↔ text ≠ "" := accepts_check

/-- A text that is loaded to be set. -/
theorem accepts_load {α : Type} {path : String} (hexists : env.fileExists path = true)
    {set : String → Except Exception α} {p : Prop}
    (hset : ∀ text, Accepts (set text) ↔ text ≠ "" ∧ p) :
    Accepts (loadStringFromFile env path >>= set) ↔ Usable env path ∧ p := by
  unfold loadStringFromFile Usable
  simp only [hexists, Bool.not_true, Bool.false_eq_true, if_false, true_and]
  cases env.fileContents path with
  | none => simp [accepts_bind]
  | some contents => simp [accepts_bind, hset]

/-- What follows the test of a file may count on the file. -/
theorem accepts_require {α : Type} {what path : String} {x : Unit → Except Exception α} {p : Prop}
    (h : env.fileExists path = true → (Accepts (x ()) ↔ p)) :
    Accepts (requireFile env what path >>= x) ↔ env.fileExists path = true ∧ p := by
  rw [← accepts_requireFile what path]
  apply accepts_bind_of
  intro u hu
  exact h ((accepts_requireFile what path).mp ⟨u, hu⟩)

/-- A text that is loaded to be set last. -/
theorem accepts_load_last {path : String} (hexists : env.fileExists path = true)
    {set : String → Except Exception GRPCServerOptions}
    (hset : ∀ text, Accepts (set text) ↔ text ≠ "") :
    Accepts (loadStringFromFile env path >>= set) ↔ Usable env path := by
  have hload : Accepts (loadStringFromFile env path >>= set) ↔ Usable env path ∧ True := by
    apply accepts_load hexists
    intro text
    rw [hset, and_true]
  rwa [and_true] at hload

theorem accepts_loadServerCredentials :
    Accepts (loadServerCredentials env tree sect options) ↔
      (NamesCredentials tree sect →
        Usable env (tree.getString (sect ++ ".clientKey") "") ∧
          Usable env (tree.getString (sect ++ ".serverCertificate") "")) := by
  unfold loadServerCredentials
  dsimp only
  split
  · rename_i hnames
    have hnamed : NamesCredentials tree sect := hnames
    generalize tree.getString (sect ++ ".clientKey") "" = serverKey
    generalize tree.getString (sect ++ ".serverCertificate") "" = serverCertificate
    have hset (hcertificate : env.fileExists serverCertificate = true) (key : String) :
        Accepts (options.setServerKey key >>= fun options =>
            loadStringFromFile env serverCertificate >>= options.setServerCertificate) ↔
          key ≠ "" ∧ Usable env serverCertificate := by
      rw [← accepts_setText]
      apply accepts_bind_of
      intro options' _
      exact accepts_load_last hcertificate fun text => accepts_setText
    have hall : Accepts (requireFile env "gRPC server Key file " serverKey >>= fun _ =>
          requireFile env "gRPC server certificate file " serverCertificate >>= fun _ =>
          loadStringFromFile env serverKey >>= fun key =>
          options.setServerKey key >>= fun options =>
          loadStringFromFile env serverCertificate >>= options.setServerCertificate) ↔
        env.fileExists serverKey = true ∧ env.fileExists serverCertificate = true ∧
          Usable env serverKey ∧ Usable env serverCertificate := by
      apply accepts_require
      intro hkey
      apply accepts_require
      intro hcertificate
      exact accepts_load hkey (hset hcertificate)
    refine hall.trans ?_
    constructor
    · intro h _
      exact h.2.2
    · intro h
      exact ⟨(h hnamed).1.1, (h hnamed).2.1, h hnamed⟩
  · rename_i hnames
    have hnot : ¬ NamesCredentials tree sect := hnames
    simp [hnot]

theorem accepts_loadClientCertificate :
    Accepts (loadClientCertificate env tree sect options) ↔
      (tree.getString (sect ++ ".clientCertificate") "" ≠ "" →
        Usable env (tree.getString (sect ++ ".clientCertificate") "")) := by
  unfold loadClientCertificate
  dsimp only
  generalize tree.getString (sect ++ ".clientCertificate") "" = clientCertificate
  split
  · rename_i hnames
    have hall : Accepts (requireFile env "gRPC client certificate file " clientCertificate >>=
          fun _ => loadStringFromFile env clientCertificate >>= options.setClientCertificate) ↔
        env.fileExists clientCertificate = true ∧ Usable env clientCertificate := by
      apply accepts_require
      intro hexists
      exact accepts_load_last hexists fun text => accepts_setText
    refine hall.trans ?_
    constructor
    · intro h _
      exact h.2
    · intro h
      exact ⟨(h hnames).1, h hnames⟩
  · rename_i hnames
    simp [hnames]

/-- A certificate of the server is there exactly when the section names one, with its key. -/
theorem certificate_of_loadServerCredentials {options' : GRPCServerOptions}
    (h : loadServerCredentials env tree sect options = .ok options')
    (hnone : options.mServerCertificate = none) :
    options'.mServerCertificate.isNone = false ↔ NamesCredentials tree sect := by
  unfold loadServerCredentials at h
  dsimp only at h
  split at h
  · rename_i hnames
    obtain ⟨_, -, h⟩ := bind_eq_ok_iff.mp h
    obtain ⟨_, -, h⟩ := bind_eq_ok_iff.mp h
    obtain ⟨key, -, h⟩ := bind_eq_ok_iff.mp h
    obtain ⟨keyed, hkey, h⟩ := bind_eq_ok_iff.mp h
    obtain ⟨certificate, -, hcertificate⟩ := bind_eq_ok_iff.mp h
    obtain ⟨_, rfl⟩ := setText_ok hcertificate
    exact ⟨fun _ => hnames, fun _ => rfl⟩
  · rename_i hnames
    obtain rfl := Except.ok.inj h
    have hnot : ¬ NamesCredentials tree sect := hnames
    simp [hnone, hnot]

theorem accepts_loadAccessToken :
    Accepts (loadAccessToken tree sect options) ↔
      ∀ accessToken, tree.data (sect ++ ".accessToken") = some accessToken →
        accessToken ≠ "" ∧ options.mServerCertificate.isNone = false := by
  unfold loadAccessToken
  rw [get_optional_some]
  cases tree.data (sect ++ ".accessToken") with
  | none => simp
  | some accessToken =>
    have hset : Accepts (options.setAccessToken accessToken) ↔ ¬ accessToken = "" := accepts_check
    cases hcertificate : options.mServerCertificate.isNone with
    | true => simp
    | false => simp [hset]

/-- From the credentials of the server on. -/
theorem accepts_loadAll (hnone : options.mServerCertificate = none)
    {rest : GRPCServerOptions → Except Exception GRPCServerOptions}
    (hrest : ∀ options, Accepts (rest options)) :
    Accepts (loadServerCredentials env tree sect options >>= fun options =>
        loadAccessToken tree sect options >>= fun options =>
        loadClientCertificate env tree sect options >>= rest) ↔
      (NamesCredentials tree sect →
        Usable env (tree.getString (sect ++ ".clientKey") "") ∧
          Usable env (tree.getString (sect ++ ".serverCertificate") "")) ∧
      (∀ accessToken, tree.data (sect ++ ".accessToken") = some accessToken →
        accessToken ≠ "" ∧ NamesCredentials tree sect) ∧
      (tree.getString (sect ++ ".clientCertificate") "" ≠ "" →
        Usable env (tree.getString (sect ++ ".clientCertificate") "")) := by
  rw [← accepts_loadServerCredentials]
  apply accepts_bind_of
  intro credentialed hcredentials
  have hcertificate := certificate_of_loadServerCredentials hcredentials hnone
  rw [← hcertificate, ← accepts_loadAccessToken]
  apply accepts_bind_of
  intro tokened _
  rw [← accepts_loadClientCertificate, accepts_bind_of (p := True), and_true]
  intro certified _
  exact iff_true_intro (hrest certified)

/-- A section is accepted exactly when it says what it has to. -/
theorem accepts_getGRPCServerOptions :
    Accepts (getGRPCServerOptions env tree sect) ↔ ServerConfigured env tree sect := by
  unfold getGRPCServerOptions
  dsimp only
  split
  · rename_i hhost
    constructor
    · intro h
      exact absurd h (not_accepts_error _)
    · intro h
      exact absurd hhost h.host
  · rename_i hhost
    let port := tree.get env.toUInt16 (sect ++ ".port") 50000
    let Rest : Prop := (NamesCredentials tree sect →
        Usable env (tree.getString (sect ++ ".clientKey") "") ∧
          Usable env (tree.getString (sect ++ ".serverCertificate") "")) ∧
      (∀ accessToken, tree.data (sect ++ ".accessToken") = some accessToken →
        accessToken ≠ "" ∧ NamesCredentials tree sect) ∧
      (tree.getString (sect ++ ".clientCertificate") "" ≠ "" →
        Usable env (tree.getString (sect ++ ".clientCertificate") ""))
    have hdefault (options : GRPCServerOptions) : Accepts (options.setPort 50000) := ⟨_, rfl⟩
    refine (accepts_bind_of (p := port ≠ 0 ∧ Rest) ?_).trans ?_
    · intro hosted hset
      obtain ⟨_, rfl⟩ := setText_ok hset
      refine (accepts_bind_of (p := port ≠ 0 ∧ Rest) ?_).trans (and_iff_right (hdefault _))
      intro ported hset
      obtain ⟨_, rfl⟩ := setPort_ok hset
      refine (accepts_bind_of (p := Rest) ?_).trans (and_congr_left' accepts_check)
      intro addressed hset
      obtain ⟨_, rfl⟩ := setPort_ok hset
      exact accepts_loadAll rfl fun options => accepts_ok _
    · refine (and_iff_right (accepts_setText.mpr hhost)).trans ?_
      constructor
      · intro h
        exact ⟨hhost, h.1, h.2.1, h.2.2.1, h.2.2.2⟩
      · intro h
        exact ⟨h.port, h.credentials, h.token, h.client_certificate⟩

end Server

/-- What the file has to say about the broker and its two services, which may not share a port. -/
structure BrokerConfigured (env : Environment) (tree : PropertyTree) : Prop where
  subscribe : ServerConfigured env tree "SubscribeService"
  subscribers : 1 ≤ tree.get env.toInt "SubscribeService.maximumNumberOfSubscribers" 64
  publish : ServerConfigured env tree "PublishService"
  publishers : 1 ≤ tree.get env.toInt "PublishService.maximumNumberOfPublishers" 2048
  message_size : ∀ size, tree.get_optional env.toInt "PublishService.maximumMessageSizeInBytes" =
    some size → 1 ≤ size
  ports : tree.get env.toUInt16 "PublishService.port" 50000 ≠
    tree.get env.toUInt16 "SubscribeService.port" 50000
  queue_capacity : 1 ≤ tree.get env.toInt "Broker.queueCapacity" 8192

section Services

variable {env : Environment} {tree : PropertyTree}

theorem accepts_getSubscribeServiceOptions :
    Accepts (getSubscribeServiceOptions env tree) ↔
      ServerConfigured env tree "SubscribeService" ∧
        1 ≤ tree.get env.toInt "SubscribeService.maximumNumberOfSubscribers" 64 := by
  unfold getSubscribeServiceOptions
  rw [← accepts_getGRPCServerOptions, ← Int32.not_lt]
  apply accepts_bind_of
  intro grpcOptions _
  exact accepts_check

theorem accepts_loadMaximumMessageSize {options : PublishServiceOptions} :
    Accepts (loadMaximumMessageSize env tree options) ↔
      ∀ size, tree.get_optional env.toInt "PublishService.maximumMessageSizeInBytes" = some size →
        1 ≤ size := by
  unfold loadMaximumMessageSize
  cases tree.get_optional env.toInt "PublishService.maximumMessageSizeInBytes" with
  | none => simp
  | some size =>
    have hset : Accepts (options.setMaximumMessageSizeInBytes size) ↔ ¬ size < 1 := accepts_check
    simp [hset, Int32.not_lt]

theorem accepts_getPublishServiceOptions :
    Accepts (getPublishServiceOptions env tree) ↔
      ServerConfigured env tree "PublishService" ∧
        1 ≤ tree.get env.toInt "PublishService.maximumNumberOfPublishers" 2048 ∧
        ∀ size, tree.get_optional env.toInt "PublishService.maximumMessageSizeInBytes" =
          some size → 1 ≤ size := by
  unfold getPublishServiceOptions
  rw [← accepts_getGRPCServerOptions, ← Int32.not_lt]
  apply accepts_bind_of
  intro grpcOptions _
  refine (accepts_bind_of (p := ∀ size, tree.get_optional env.toInt
    "PublishService.maximumMessageSizeInBytes" = some size → 1 ≤ size) ?_).trans
    (and_congr_left' accepts_check)
  intro limited _
  refine (accepts_bind_of (p := True) ?_).trans ?_
  · intro sized _
    exact iff_true_intro (accepts_ok _)
  · rw [and_true]
    exact accepts_loadMaximumMessageSize

/-- From the options of both services on. -/
theorem accepts_setBoth {subscribe : SubscribeServiceOptions} {publish : PublishServiceOptions}
    {options : BrokerOptions} (hsubscribe : options.mSubscribeServiceOptions = some subscribe)
    (hcapacity : options.mQueueCapacity = 8192) :
    Accepts (options.setPublishServiceOptions publish >>= fun options =>
        options.setQueueCapacity
          (tree.get env.toInt "Broker.queueCapacity" options.mQueueCapacity) >>= fun options =>
        if options.mSubscribeServiceOptions.isNone then
          .error (.invalid_argument "Frontend options not set")
        else if options.mPublishServiceOptions.isNone then
          .error (.invalid_argument "Backend options not set")
        else .ok options) ↔
      publish.mGRPCOptions.mPort ≠ subscribe.mGRPCOptions.mPort ∧
        1 ≤ tree.get env.toInt "Broker.queueCapacity" 8192 := by
  have hset : Accepts (options.setPublishServiceOptions publish) ↔
      publish.mGRPCOptions.mPort ≠ subscribe.mGRPCOptions.mPort := by
    unfold BrokerOptions.setPublishServiceOptions
    rw [hsubscribe]
    exact accepts_check
  rw [← hset]
  apply accepts_bind_of
  intro published hpublished
  obtain rfl := setPublishServiceOptions_ok hpublished
  rw [← Int32.not_lt, ← hcapacity]
  refine (accepts_bind_of (p := True) ?_).trans ?_
  · intro sized hsized
    obtain ⟨_, rfl⟩ := setQueueCapacity_ok hsized
    rw [hsubscribe]
    exact iff_true_intro (accepts_ok _)
  · rw [and_true]
    exact accepts_check

theorem accepts_getBrokerOptions :
    Accepts (getBrokerOptions env tree) ↔ BrokerConfigured env tree := by
  have hall : Accepts (getBrokerOptions env tree) ↔
      Accepts (getSubscribeServiceOptions env tree) ∧ Accepts (getPublishServiceOptions env tree) ∧
        tree.get env.toUInt16 "PublishService.port" 50000 ≠
          tree.get env.toUInt16 "SubscribeService.port" 50000 ∧
        1 ≤ tree.get env.toInt "Broker.queueCapacity" 8192 := by
    unfold getBrokerOptions
    apply accepts_bind_of
    intro subscribe hsubscribe
    have hport : subscribe.mGRPCOptions.mPort =
        tree.get env.toUInt16 "SubscribeService.port" 50000 :=
      (getSubscribeServiceOptions_read hsubscribe).grpc.port
    refine (accepts_bind_of (p := Accepts (getPublishServiceOptions env tree) ∧
      tree.get env.toUInt16 "PublishService.port" 50000 ≠
        tree.get env.toUInt16 "SubscribeService.port" 50000 ∧
      1 ≤ tree.get env.toInt "Broker.queueCapacity" 8192) ?_).trans ?_
    · intro options hset
      obtain rfl := setSubscribeServiceOptions_ok hset
      apply accepts_bind_of
      intro publish hpublish
      have hport' : publish.mGRPCOptions.mPort =
          tree.get env.toUInt16 "PublishService.port" 50000 :=
        (getPublishServiceOptions_read hpublish).grpc.port
      rw [← hport, ← hport']
      exact accepts_setBoth rfl rfl
    · exact and_iff_right (accepts_ok _)
  rw [hall, accepts_getSubscribeServiceOptions, accepts_getPublishServiceOptions]
  constructor
  · intro h
    obtain ⟨⟨hsubscribe, hsubscribers⟩, ⟨hpublish, hpublishers, hsize⟩, hports, hcapacity⟩ := h
    exact ⟨hsubscribe, hsubscribers, hpublish, hpublishers, hsize, hports, hcapacity⟩
  · intro h
    exact ⟨⟨h.subscribe, h.subscribers⟩, ⟨h.publish, h.publishers, h.message_size⟩, h.ports,
      h.queue_capacity⟩

end Services

/-- What the section of an exporter of metrics has to say about its times. -/
structure TimesConfigured (env : Environment) (tree : PropertyTree) (sect : String) : Prop where
  interval : 0 < tree.get env.toInt64 (sect ++ ".exportIntervalInMilliSeconds") (15 * 1000)
  time_out : 0 < tree.get env.toInt64 (sect ++ ".exportTimeOutInMilliSeconds") 500

/-- What an ini file has to say: a database file, exporters that the build has and whose times are
positive, and the broker. A section over HTTP takes precedence, and is read when it has a host. -/
structure Configured (env : Environment) (tree : PropertyTree) : Prop where
  database : tree.getString "Database.sqlite3File" "uFilterPickerMessageStore.sqlite3" ≠ ""
  logs : tree.data "OTelHTTPLogOptions" = none → (tree.data "OTelGRPCLogOptions").isSome →
    env.withOTLPGRPC = true
  metrics_http : (tree.data "OTelHTTPMetricsOptions").isSome →
    tree.getString "OTelHTTPMetricsOptions.host" "" ≠ "" →
    TimesConfigured env tree "OTelHTTPMetricsOptions"
  metrics_grpc : tree.data "OTelHTTPMetricsOptions" = none →
    (tree.data "OTelGRPCMetricsOptions").isSome →
    env.withOTLPGRPC = true ∧ TimesConfigured env tree "OTelGRPCMetricsOptions"
  broker : BrokerConfigured env tree

section Program

variable {env : Environment} {tree : PropertyTree}

theorem accepts_times {sect : String} :
    Accepts (getOTelMetricsIntervalAndTimeOut env tree sect (15 * 1000) 500) ↔
      TimesConfigured env tree sect := by
  unfold getOTelMetricsIntervalAndTimeOut
  dsimp only
  split
  · rename_i hinterval
    constructor
    · intro h
      exact absurd h (not_accepts_error _)
    · intro h
      exact absurd hinterval (Int64.not_le.mpr h.interval)
  · rename_i hinterval
    split
    · rename_i htimeOut
      constructor
      · intro h
        exact absurd h (not_accepts_error _)
      · intro h
        exact absurd htimeOut (Int64.not_le.mpr h.time_out)
    · rename_i htimeOut
      constructor
      · intro _
        exact ⟨Int64.not_le.mp hinterval, Int64.not_le.mp htimeOut⟩
      · intro _
        exact accepts_ok _

/-- There is an address exactly when there is a host. -/
theorem getOTelCollectorURL_eq_empty {sect : String} :
    getOTelCollectorURL env tree sect = "" ↔ tree.getString (sect ++ ".host") "" = "" := by
  unfold getOTelCollectorURL
  dsimp only
  split
  · rename_i hhost
    exact iff_of_true rfl hhost
  · rename_i hhost
    refine iff_of_false ?_ hhost
    intro h
    have hlength := congrArg String.length h
    simp at hlength

theorem accepts_parseLogging (options : ProgramOptions) :
    Accepts (options.parseLogging env tree) ↔
      (tree.data "OTelHTTPLogOptions" = none → (tree.data "OTelGRPCLogOptions").isSome →
        env.withOTLPGRPC = true) := by
  unfold ProgramOptions.parseLogging
  simp only [get_optional_some]
  cases hhttp : tree.data "OTelHTTPLogOptions" with
  | some text =>
    simp only [Option.isSome_some, if_true, reduceCtorEq, false_implies, iff_true]
    split <;> exact accepts_ok _
  | none =>
    cases hgrpc : tree.data "OTelGRPCLogOptions" with
    | none => simp
    | some text =>
      cases env.withOTLPGRPC with
      | false => simp
      | true =>
        simp only [Option.isSome_none, Bool.false_eq_true, if_false, Option.isSome_some, if_true,
          Bool.not_true, implies_true, iff_true]
        split <;> exact accepts_ok _

theorem accepts_parseMetrics (options : ProgramOptions) :
    Accepts (options.parseMetrics env tree) ↔
      ((tree.data "OTelHTTPMetricsOptions").isSome →
        tree.getString "OTelHTTPMetricsOptions.host" "" ≠ "" →
        TimesConfigured env tree "OTelHTTPMetricsOptions") ∧
      (tree.data "OTelHTTPMetricsOptions" = none →
        (tree.data "OTelGRPCMetricsOptions").isSome →
        env.withOTLPGRPC = true ∧ TimesConfigured env tree "OTelGRPCMetricsOptions") := by
  have hhost : getOTelCollectorURL env tree "OTelHTTPMetricsOptions" = "" ↔
      tree.getString "OTelHTTPMetricsOptions.host" "" = "" := getOTelCollectorURL_eq_empty
  unfold ProgramOptions.parseMetrics
  simp only [get_optional_some]
  cases hhttp : tree.data "OTelHTTPMetricsOptions" with
  | some text =>
    simp only [Option.isSome_some, if_true, reduceCtorEq, false_implies, and_true, forall_const]
    rw [← not_iff_not] at hhost
    split
    · rename_i hurl
      refine iff_of_true (accepts_ok _) ?_
      intro hne
      exact absurd hurl (hhost.mpr hne)
    · rename_i hurl
      rw [accepts_map, accepts_times]
      constructor
      · intro htimes _
        exact htimes
      · intro htimes
        exact htimes (hhost.mp hurl)
  | none =>
    cases hgrpc : tree.data "OTelGRPCMetricsOptions" with
    | none => simp
    | some text =>
      cases env.withOTLPGRPC with
      | false => simp
      | true =>
        simp only [Option.isSome_none, Bool.false_eq_true, if_false, Option.isSome_some, if_true,
          Bool.not_true, accepts_map, false_implies, true_and, forall_const]
        exact accepts_times

/-- The parser accepts exactly the configurations. -/
theorem accepts_parsePropertyTree :
    Accepts (ProgramOptions.parsePropertyTree env tree) ↔ Configured env tree := by
  have hall : Accepts (ProgramOptions.parsePropertyTree env tree) ↔
      tree.getString "Database.sqlite3File" "uFilterPickerMessageStore.sqlite3" ≠ "" ∧
      (tree.data "OTelHTTPLogOptions" = none → (tree.data "OTelGRPCLogOptions").isSome →
        env.withOTLPGRPC = true) ∧
      (((tree.data "OTelHTTPMetricsOptions").isSome →
        tree.getString "OTelHTTPMetricsOptions.host" "" ≠ "" →
        TimesConfigured env tree "OTelHTTPMetricsOptions") ∧
      (tree.data "OTelHTTPMetricsOptions" = none →
        (tree.data "OTelGRPCMetricsOptions").isSome →
        env.withOTLPGRPC = true ∧ TimesConfigured env tree "OTelGRPCMetricsOptions")) ∧
      BrokerConfigured env tree := by
    unfold ProgramOptions.parsePropertyTree
    have hdatabase (options : ProgramOptions)
        (hfile : options.sqlite3File = "uFilterPickerMessageStore.sqlite3") :
        Accepts (options.parseDatabase env tree) ↔
          tree.getString "Database.sqlite3File" "uFilterPickerMessageStore.sqlite3" ≠ "" := by
      unfold ProgramOptions.parseDatabase
      rw [hfile]
      dsimp only
      split <;> simp_all
    rw [← hdatabase (ProgramOptions.parseGeneral env tree {}) rfl]
    apply accepts_bind_of
    intro stored _
    rw [← accepts_parseLogging stored]
    apply accepts_bind_of
    intro logged _
    rw [← accepts_parseMetrics logged]
    apply accepts_bind_of
    intro metered _
    rw [← accepts_getBrokerOptions]
    rw [accepts_bind_of (p := True), and_true]
    intro brokerOptions _
    exact iff_true_intro (accepts_ok _)
  rw [hall]
  constructor
  · intro h
    obtain ⟨hdatabase, hlogs, ⟨hhttp, hgrpc⟩, hbroker⟩ := h
    exact ⟨hdatabase, hlogs, hhttp, hgrpc, hbroker⟩
  · intro h
    exact ⟨h.database, h.logs, ⟨h.metrics_http, h.metrics_grpc⟩, h.broker⟩

end Program

/-- A broker is constructed with the options wherever the picks of the database can be loaded. -/
def Startable (options : BrokerOptions) : Prop :=
  ∀ (Bytes : Type) (codec : Codec Bytes) (sorting : Sorting Int64 V1.Pick)
    (orderBy : Sorting Int64 Bytes) (database : Database Bytes) (stmt : LoadStatement)
    (now : Int64) (isSecured : Bool),
    Accepts (Broker.new codec sorting orderBy options (some database) stmt now isSecured) ↔
      Accepts (database.load codec orderBy stmt)

theorem startable_iff (options : BrokerOptions) :
    Startable options ↔
      options.mPublishServiceOptions.isSome ∧ options.mSubscribeServiceOptions.isSome := by
  constructor
  · intro h
    have hempty : Accepts (Database.load Codec.plain (Sorting.stable Int64 V1.Pick) {} {}) :=
      ⟨[], rfl⟩
    have hnew := (h V1.Pick Codec.plain (Sorting.stable Int64 V1.Pick)
      (Sorting.stable Int64 V1.Pick) {} {} 0 false).mpr hempty
    unfold Broker.new at hnew
    cases hpublish : options.mPublishServiceOptions with
    | none => simp [hpublish] at hnew
    | some publish =>
      cases hsubscribe : options.mSubscribeServiceOptions with
      | none => simp [hpublish, hsubscribe] at hnew
      | some subscribe => exact ⟨rfl, rfl⟩
  · intro h Bytes codec sorting orderBy database stmt now isSecured
    obtain ⟨publish, hpublish⟩ := Option.isSome_iff_exists.mp h.1
    obtain ⟨subscribe, hsubscribe⟩ := Option.isSome_iff_exists.mp h.2
    unfold Broker.new
    simp only [hpublish, hsubscribe]
    cases hopen : database.mIsOpen with
    | false => simp [Database.load, hopen]
    | true =>
      cases database.load codec orderBy stmt with
      | error e => simp
      | ok loadedPicks => simp

/-- The parser takes an ini file to options that a broker starts with exactly when the file is
there, can be read and holds a configuration. Where there is no file, the options it falls back
to start none. -/
theorem configuration_accepted (env : Environment) (iniFile : String) :
    (∃ options, parseIniFile env iniFile = .ok options ∧ Startable options.brokerOptions) ↔
      env.fileExists iniFile = true ∧
        ∃ tree, env.read_ini iniFile = .ok tree ∧ Configured env tree := by
  unfold parseIniFile
  cases hexists : env.fileExists iniFile with
  | false =>
    constructor
    · intro h
      obtain ⟨options, hparse, hstarts⟩ := h
      cases hparse
      have hboth := (startable_iff _).mp hstarts
      cases hboth.1
    · intro h
      cases h.1
  | true =>
    simp only [Bool.not_true, Bool.false_eq_true, if_false, true_and]
    constructor
    · intro h
      obtain ⟨options, hparse, -⟩ := h
      obtain ⟨tree, hread, htree⟩ := bind_eq_ok_iff.mp hparse
      exact ⟨tree, hread, accepts_parsePropertyTree.mp ⟨options, htree⟩⟩
    · intro h
      obtain ⟨tree, hread, hconfigured⟩ := h
      obtain ⟨options, hparse⟩ := accepts_parsePropertyTree.mpr hconfigured
      refine ⟨options, bind_eq_ok_iff.mpr ⟨tree, hread, hparse⟩, (startable_iff _).mpr ?_⟩
      have hbroker := (parsePropertyTree_read hparse).broker
      obtain ⟨publish, hpublish, -⟩ := hbroker.publish
      obtain ⟨subscribe, hsubscribe, -⟩ := hbroker.subscribe
      rw [hpublish, hsubscribe]
      exact ⟨rfl, rfl⟩

end PickBroker
