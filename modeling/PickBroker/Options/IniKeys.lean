import PickBroker.Framework.Int64Range
import PickBroker.Options.ProgramOptions

namespace PickBroker

open Framework

/-- The keys that broker.ini explains. -/
inductive IniKey where
  | applicationName
  | verbosity
  | printSummaryIntervalInMinutes
  | sqlite3File
  | deleteIfExists
  | queueCapacity
  | maximumPickAgeInMinutes
  | publishHost
  | publishPort
  | maximumNumberOfPublishers
  | maximumMessageSizeInBytes
  | maximumNumberOfConsecutiveInvalidMessages
  | subscribeHost
  | subscribePort
  | maximumQueueSize
  deriving DecidableEq

/-- The value of an option; a time is a number in the unit of the option. -/
inductive Setting where
  | unset
  | text (value : String)
  | number (value : ℤ)
  | flag (value : Bool)
  deriving DecidableEq

/-- The options of a service as they are held while none are set. -/
def ProgramOptions.publish (options : ProgramOptions) : PublishServiceOptions :=
  options.brokerOptions.mPublishServiceOptions.getD {}

def ProgramOptions.subscribe (options : ProgramOptions) : SubscribeServiceOptions :=
  options.brokerOptions.mSubscribeServiceOptions.getD {}

namespace IniKey

def path : IniKey → String
  | .applicationName => "General.applicationName"
  | .verbosity => "General.verbosity"
  | .printSummaryIntervalInMinutes => "General.printSummaryIntervalInMinutes"
  | .sqlite3File => "Database.sqlite3File"
  | .deleteIfExists => "Database.deleteIfExists"
  | .queueCapacity => "Broker.queueCapacity"
  | .maximumPickAgeInMinutes => "Broker.maximumPickAgeInMinutes"
  | .publishHost => "PublishService.host"
  | .publishPort => "PublishService.port"
  | .maximumNumberOfPublishers => "PublishService.maximumNumberOfPublishers"
  | .maximumMessageSizeInBytes => "PublishService.maximumMessageSizeInBytes"
  | .maximumNumberOfConsecutiveInvalidMessages =>
    "PublishService.maximumNumberOfConsecutiveInvalidMessages"
  | .subscribeHost => "SubscribeService.host"
  | .subscribePort => "SubscribeService.port"
  | .maximumQueueSize => "SubscribeService.maximumQueueSize"

/-- The value a text gives for the key, if it gives one. An application without a name has none. -/
def given (env : Environment) (key : IniKey) (text : String) : Option Setting :=
  match key with
  | .applicationName => if text = "" then none else some (.text text)
  | .sqlite3File | .publishHost | .subscribeHost => some (.text text)
  | .deleteIfExists => (env.toBool text).map .flag
  | .publishPort | .subscribePort => (env.toUInt16 text).map fun port => .number port.toNat
  | .printSummaryIntervalInMinutes => (env.toInt text).map fun minutes => .number (minutes.toInt * 60)
  | .maximumPickAgeInMinutes => (env.toInt text).map fun minutes => .number (minutes.toInt * 60000)
  | .verbosity | .queueCapacity | .maximumNumberOfPublishers | .maximumMessageSizeInBytes
  | .maximumNumberOfConsecutiveInvalidMessages | .maximumQueueSize =>
    (env.toInt text).map fun n => .number n.toInt

/-- The option of the key. -/
def held (key : IniKey) (options : ProgramOptions) : Setting :=
  match key with
  | .applicationName => .text options.applicationName
  | .verbosity => .number options.verbosity.toInt
  | .printSummaryIntervalInMinutes => .number options.printSummaryInterval.toInt
  | .sqlite3File => .text options.sqlite3File
  | .deleteIfExists => .flag options.deleteDatabaseIfExists
  | .queueCapacity => .number options.brokerOptions.mQueueCapacity.toInt
  | .maximumPickAgeInMinutes => .number options.brokerOptions.mPickRetention.toInt
  | .publishHost => .text options.publish.mGRPCOptions.mHost
  | .publishPort => .number options.publish.mGRPCOptions.mPort.toNat
  | .maximumNumberOfPublishers => .number options.publish.mMaximumPublishers.toInt
  | .maximumMessageSizeInBytes =>
    options.publish.mMaximumMessageSizeInBytes.elim .unset fun size => .number size.toInt
  | .maximumNumberOfConsecutiveInvalidMessages =>
    .number options.publish.mMaximumConsecutiveInvalidMessages.toNat
  | .subscribeHost => .text options.subscribe.mGRPCOptions.mHost
  | .subscribePort => .number options.subscribe.mGRPCOptions.mPort.toNat
  | .maximumQueueSize => .number options.subscribe.mPickStoreOptions.mMaximumQueueCapacity.toInt

/-- What the parser makes of the node of the key. -/
def taken (env : Environment) (key : IniKey) (node : Option String) : Setting :=
  match key with
  | .applicationName =>
    .text (if node.getD APPLICATION_NAME = "" then APPLICATION_NAME else node.getD APPLICATION_NAME)
  | .verbosity => .number ((node.bind env.toInt).getD 3).toInt
  | .printSummaryIntervalInMinutes =>
    .number (((node.bind env.toInt).getD 900).toInt64 * 60).toInt
  | .sqlite3File => .text (node.getD "uFilterPickerMessageStore.sqlite3")
  | .deleteIfExists => .flag ((node.bind env.toBool).getD false)
  | .queueCapacity => .number ((node.bind env.toInt).getD 8192).toInt
  | .maximumPickAgeInMinutes => .number 1800000
  | .publishHost | .subscribeHost => .text (node.getD "localhost")
  | .publishPort | .subscribePort => .number ((node.bind env.toUInt16).getD 50000).toNat
  | .maximumNumberOfPublishers => .number ((node.bind env.toInt).getD 2048).toInt
  | .maximumMessageSizeInBytes =>
    (node.bind env.toInt).elim .unset fun size => .number size.toInt
  | .maximumNumberOfConsecutiveInvalidMessages =>
    .number ((node.bind env.toInt).getD 8).toUInt32.toNat
  | .maximumQueueSize => .number 8192

/-- The node is one the parser does justice to: the summary interval is given, what is not read is
given as it is, and no number without a sign is given one. -/
def Fair (env : Environment) (key : IniKey) (node : Option String) : Prop :=
  match key with
  | .printSummaryIntervalInMinutes => (node.bind env.toInt).isSome
  | .maximumPickAgeInMinutes => ∀ minutes ∈ node.bind env.toInt, minutes = 30
  | .maximumNumberOfConsecutiveInvalidMessages => ∀ n ∈ node.bind env.toInt, 0 ≤ n
  | .maximumQueueSize => ∀ n ∈ node.bind env.toInt, n = 8192
  | _ => True

end IniKey

/-- Every key has its option: the value the file gives for it, or else the default one; and a file
that differs in one key changes the option of no other. -/
structure IniHonoured (env : Environment) (tree : PropertyTree) (options : ProgramOptions) :
    Prop where
  holds : ∀ key : IniKey,
    key.held options = ((tree.data key.path).bind (key.given env)).getD (key.held {})
  isolated : ∀ (key : IniKey) iniFile' tree' options', env.fileExists iniFile' = true →
    env.read_ini iniFile' = .ok tree' → parseIniFile env iniFile' = .ok options' →
    (∀ path, path ≠ key.path → tree'.data path = tree.data path) →
      ∀ key' : IniKey, key' ≠ key → key'.held options' = key'.held options

namespace IniKey

theorem path_inj {key key' : IniKey} (h : key.path = key'.path) : key = key' := by
  cases key <;> cases key' <;> first | rfl | exact absurd h (by decide)

/-- The parser makes the option of a key from the node of the key alone. -/
theorem held_eq_taken {env : Environment} {tree : PropertyTree} {options : ProgramOptions}
    (h : OptionsRead env tree options) (key : IniKey) :
    key.held options = key.taken env (tree.data key.path) := by
  obtain ⟨publish, hsome, hpublish⟩ := h.broker.publish
  obtain ⟨subscribe, hsome', hsubscribe⟩ := h.broker.subscribe
  have hservice : options.publish = publish := by rw [ProgramOptions.publish, hsome]; rfl
  have hservice' : options.subscribe = subscribe := by rw [ProgramOptions.subscribe, hsome']; rfl
  cases key with
  | applicationName =>
    simp only [held, taken, path, h.application_name, PropertyTree.getString_eq]
    rfl
  | verbosity => exact congrArg (fun n => Setting.number n.toInt) h.verbosity
  | printSummaryIntervalInMinutes =>
    exact congrArg (fun n => Setting.number n.toInt) h.summary_interval
  | sqlite3File => simp only [held, taken, path, h.sqlite3_file, PropertyTree.getString_eq]
  | deleteIfExists => exact congrArg Setting.flag h.delete
  | queueCapacity => exact congrArg (fun n => Setting.number n.toInt) h.broker.queue_capacity
  | maximumPickAgeInMinutes =>
    simp only [held, taken, h.broker.retention]
    decide
  | publishHost =>
    have hpath : "PublishService" ++ ".host" = "PublishService.host" := by decide
    simp only [held, taken, path, hservice, hpublish.grpc.host, hpath, PropertyTree.getString_eq]
  | publishPort =>
    have hpath : "PublishService" ++ ".port" = "PublishService.port" := by decide
    simp only [held, taken, path, hservice, hpublish.grpc.port, hpath]
    rfl
  | maximumNumberOfPublishers =>
    rw [held, hservice]
    exact congrArg (fun n => Setting.number n.toInt) hpublish.publishers
  | maximumMessageSizeInBytes =>
    simp only [held, taken, path, hservice, hpublish.message_size]
    rfl
  | maximumNumberOfConsecutiveInvalidMessages =>
    rw [held, hservice]
    exact congrArg (fun n => Setting.number n.toNat) hpublish.invalid_messages
  | subscribeHost =>
    have hpath : "SubscribeService" ++ ".host" = "SubscribeService.host" := by decide
    simp only [held, taken, path, hservice', hsubscribe.grpc.host, hpath,
      PropertyTree.getString_eq]
  | subscribePort =>
    have hpath : "SubscribeService" ++ ".port" = "SubscribeService.port" := by decide
    simp only [held, taken, path, hservice', hsubscribe.grpc.port, hpath]
    rfl
  | maximumQueueSize =>
    simp only [held, taken, hservice', hsubscribe.store]
    decide

/-- Reading with a default, and then what the number stands for, or the other way round. -/
theorem read_map {α : Type*} (translate : String → Option α) (f : α → Setting) (default : α)
    (node : Option String) :
    f ((node.bind translate).getD default) =
      (node.bind fun text => (translate text).map f).getD (f default) := by
  cases node with
  | none => rfl
  | some text => cases h : translate text <;> simp [h]

theorem interval_taken_iff (env : Environment) (node : Option String) :
    taken env .printSummaryIntervalInMinutes node =
        (node.bind (given env .printSummaryIntervalInMinutes)).getD
          (held .printSummaryIntervalInMinutes {}) ↔ (node.bind env.toInt).isSome := by
  have hgiven : node.bind (given env .printSummaryIntervalInMinutes) =
      (node.bind env.toInt).map fun minutes => .number (minutes.toInt * 60) := by
    rw [Option.map_bind]
    rfl
  rw [hgiven, taken]
  cases node.bind env.toInt with
  | none => decide
  | some minutes =>
    have hunit : (60 : Int64).toInt = 60 := rfl
    have hvalue := toInt_toInt64_mul minutes 60 (by decide) (by decide)
    rw [hunit] at hvalue
    simp [hvalue]

/-- An option that is not read has what is given for it when that is the default. -/
theorem unread_iff {f : Int32 → Setting} (hf : Function.Injective f) (default : Int32)
    (read : Option Int32) :
    f default = (read.map f).getD (f default) ↔ ∀ n ∈ read, n = default := by
  cases read with
  | none => simp
  | some n => simp [hf.eq_iff, eq_comm]

theorem number_injective {unit : ℤ} (hunit : 0 < unit) :
    Function.Injective fun n : Int32 => Setting.number (n.toInt * unit) := by
  intro n n' h
  have hmul := Setting.number.inj h
  exact Int32.toInt_inj.mp (Int.eq_of_mul_eq_mul_right hunit.ne' hmul)

theorem age_taken_iff (env : Environment) (node : Option String) :
    taken env .maximumPickAgeInMinutes node =
        (node.bind (given env .maximumPickAgeInMinutes)).getD (held .maximumPickAgeInMinutes {}) ↔
      ∀ minutes ∈ node.bind env.toInt, minutes = 30 := by
  have hgiven : node.bind (given env .maximumPickAgeInMinutes) =
      (node.bind env.toInt).map fun minutes => .number (minutes.toInt * 60000) := by
    rw [Option.map_bind]
    rfl
  have hdefault : held .maximumPickAgeInMinutes {} = .number ((30 : Int32).toInt * 60000) := by
    decide
  have hunit : (0 : ℤ) < 60000 := by decide
  rw [hgiven, hdefault]
  exact unread_iff (number_injective hunit) 30 (node.bind env.toInt)

theorem queueSize_taken_iff (env : Environment) (node : Option String) :
    taken env .maximumQueueSize node =
        (node.bind (given env .maximumQueueSize)).getD (held .maximumQueueSize {}) ↔
      ∀ n ∈ node.bind env.toInt, n = 8192 := by
  have hgiven : node.bind (given env .maximumQueueSize) =
      (node.bind env.toInt).map fun n => .number (n.toInt * 1) := by
    simp only [Option.map_bind, Int.mul_one]
    rfl
  rw [hgiven]
  exact unread_iff (number_injective Int.one_pos) 8192 (node.bind env.toInt)

theorem invalidMessages_taken_iff (env : Environment) (node : Option String) :
    taken env .maximumNumberOfConsecutiveInvalidMessages node =
        (node.bind (given env .maximumNumberOfConsecutiveInvalidMessages)).getD
          (held .maximumNumberOfConsecutiveInvalidMessages {}) ↔
      ∀ n ∈ node.bind env.toInt, 0 ≤ n := by
  have hgiven : node.bind (given env .maximumNumberOfConsecutiveInvalidMessages) =
      (node.bind env.toInt).map fun n => .number n.toInt := by
    rw [Option.map_bind]
    rfl
  rw [hgiven, taken]
  cases node.bind env.toInt with
  | none =>
    simp only [Option.map_none, Option.getD_none, Option.not_mem_none, false_implies, implies_true,
      iff_true]
    decide
  | some n => simp [toNat_toUInt32_iff]

/-- The parser takes from a node what it gives, or else the default, exactly when the node is
fair. -/
theorem taken_iff (env : Environment) (key : IniKey) (node : Option String) :
    key.taken env node = (node.bind (key.given env)).getD (key.held {}) ↔ key.Fair env node := by
  cases key with
  | printSummaryIntervalInMinutes => exact interval_taken_iff env node
  | maximumPickAgeInMinutes => exact age_taken_iff env node
  | maximumQueueSize => exact queueSize_taken_iff env node
  | maximumNumberOfConsecutiveInvalidMessages => exact invalidMessages_taken_iff env node
  | applicationName =>
    refine iff_of_true ?_ trivial
    cases node with
    | none =>
      show Setting.text (if APPLICATION_NAME = "" then _ else _) = Setting.text APPLICATION_NAME
      rw [if_neg (by decide)]
      rfl
    | some text => by_cases h : text = "" <;> simp [taken, given, held, h]
  | verbosity => exact iff_of_true (read_map env.toInt (fun n => .number n.toInt) 3 node) trivial
  | queueCapacity =>
    exact iff_of_true (read_map env.toInt (fun n => .number n.toInt) 8192 node) trivial
  | maximumNumberOfPublishers =>
    exact iff_of_true (read_map env.toInt (fun n => .number n.toInt) 2048 node) trivial
  | deleteIfExists => exact iff_of_true (read_map env.toBool .flag false node) trivial
  | publishPort | subscribePort =>
    exact iff_of_true (read_map env.toUInt16 (fun port => .number port.toNat) 50000 node) trivial
  | sqlite3File | publishHost | subscribeHost =>
    refine iff_of_true ?_ trivial
    cases node <;> rfl
  | maximumMessageSizeInBytes =>
    refine iff_of_true ?_ trivial
    cases node with
    | none => rfl
    | some text =>
      cases h : env.toInt text with
      | none => simp [taken, given, held, h, ProgramOptions.publish]
      | some size => simp [taken, given, h]

end IniKey

theorem parseIniFile_read {env : Environment} {iniFile : String} {tree : PropertyTree}
    {options : ProgramOptions} (hfile : env.fileExists iniFile = true)
    (htree : env.read_ini iniFile = .ok tree) (h : parseIniFile env iniFile = .ok options) :
    OptionsRead env tree options := by
  unfold parseIniFile at h
  rw [hfile] at h
  obtain ⟨tree', htree', h⟩ := bind_eq_ok_iff.mp h
  rw [htree] at htree'
  obtain rfl := Except.ok.inj htree'
  exact parsePropertyTree_read h

/-- An accepted ini file is honoured exactly when it gives the summary interval, gives what is not
read as it is by default, and gives no negative number of invalid messages. -/
theorem ini_honoured_iff {env : Environment} {iniFile : String} {tree : PropertyTree}
    {options : ProgramOptions} (hfile : env.fileExists iniFile = true)
    (htree : env.read_ini iniFile = .ok tree) (h : parseIniFile env iniFile = .ok options) :
    IniHonoured env tree options ↔ ∀ key : IniKey, key.Fair env (tree.data key.path) := by
  have hread := parseIniFile_read hfile htree h
  constructor
  · intro hhonoured key
    rw [← key.taken_iff, ← key.held_eq_taken hread]
    exact hhonoured.holds key
  · intro hfair
    constructor
    · intro key
      rw [key.held_eq_taken hread, key.taken_iff]
      exact hfair key
    · intro key iniFile' tree' options' hfile' htree' h' hsame key' hne
      have hpath : key'.path ≠ key.path := fun heq => hne (IniKey.path_inj heq)
      rw [key'.held_eq_taken (parseIniFile_read hfile' htree' h'), key'.held_eq_taken hread,
        hsame key'.path hpath]

/-- The nodes of the file run/broker.ini. -/
def brokerIni : List (String × String) :=
  [("General", ""), ("General.applicationName", "uFilterPickerPickBroker-test"),
    ("General.verbosity", "3"), ("General.printSummaryIntervalInMinutes", "15"), ("Database", ""),
    ("Database.sqlite3File", "pickStore.sqlite3"), ("Database.deleteIfExists", "false"),
    ("Broker", ""), ("Broker.queueCapacity", "2048"), ("Broker.maximumPickAgeInMinutes", "15"),
    ("PublishService", ""), ("PublishService.host", "0.0.0.0"), ("PublishService.port", "55575"),
    ("PublishService.maximumNumberOfPublishers", "64"),
    ("PublishService.maximumMessageSizeInBytes", "128"),
    ("PublishService.maximumNumberOfConsecutiveInvalidMessages", "4"), ("SubscribeService", ""),
    ("SubscribeService.host", "0.0.0.0"), ("SubscribeService.port", "55576"),
    ("SubscribeService.maximumQueueSize", "512")]

/-- A file that gives nothing but a port. -/
def portIni : List (String × String) := [("PublishService", ""), ("PublishService.port", "55575")]

def shippedTree : PropertyTree := { data := fun path => brokerIni.lookup path }

def portTree : PropertyTree := { data := fun path => portIni.lookup path }

/-- The place of these two files. Only the texts in them are translated. -/
def shipped : Environment where
  fileExists path := path == "broker.ini" || path == "port.ini"
  fileContents _ := none
  read_ini path := .ok (if path == "broker.ini" then shippedTree else portTree)
  toInt text := [("3", 3), ("15", 15), ("2048", 2048), ("64", 64), ("128", 128), ("4", 4),
    ("512", 512)].lookup text
  toUInt16 text := [("55575", 55575), ("55576", 55576)].lookup text
  toInt64 _ := none
  toBool text := [("false", false)].lookup text
  withOTLPGRPC := false

def shippedOptions : ProgramOptions where
  applicationName := "uFilterPickerPickBroker-test"
  sqlite3File := "pickStore.sqlite3"
  brokerOptions :=
    { mPublishServiceOptions := some
        { mGRPCOptions := { mHost := "0.0.0.0", mPort := 55575 }
          mMaximumPublishers := 64
          mMaximumConsecutiveInvalidMessages := 4
          mMaximumMessageSizeInBytes := some 128 }
      mSubscribeServiceOptions := some { mGRPCOptions := { mHost := "0.0.0.0", mPort := 55576 } }
      mQueueCapacity := 2048 }

theorem parseIniFile_shipped : parseIniFile shipped "broker.ini" = .ok shippedOptions := rfl

/-- All defaults, but a summary every nine hundred minutes. -/
def portOptions : ProgramOptions where
  printSummaryInterval := 54000
  brokerOptions :=
    { mPublishServiceOptions := some { mGRPCOptions := { mPort := 55575 } }
      mSubscribeServiceOptions := some {} }

theorem parseIniFile_port : parseIniFile shipped "port.ini" = .ok portOptions := rfl

theorem ini_honoured_iff_shipped :
    IniHonoured shipped shippedTree shippedOptions ↔
      ∀ key : IniKey, key.Fair shipped (shippedTree.data key.path) :=
  ini_honoured_iff (by decide) rfl parseIniFile_shipped

/-- The file of the repository asks for a retention of fifteen minutes and gets thirty; and who
gives no summary interval gets one of nine hundred minutes instead of fifteen. -/
theorem shipped_not_honoured :
    (parseIniFile shipped "broker.ini" = .ok shippedOptions ∧
        IniKey.maximumPickAgeInMinutes.held shippedOptions = .number (30 * 60000) ∧
        ¬ IniHonoured shipped shippedTree shippedOptions) ∧
      parseIniFile shipped "port.ini" = .ok portOptions ∧
        IniKey.printSummaryIntervalInMinutes.held portOptions = .number (900 * 60) ∧
        ¬ IniHonoured shipped portTree portOptions := by
  refine ⟨⟨parseIniFile_shipped, by decide, ?_⟩, parseIniFile_port, by decide, ?_⟩
  · intro h
    have hage := h.holds .maximumPickAgeInMinutes
    revert hage
    decide
  · intro h
    have hinterval := h.holds .printSummaryIntervalInMinutes
    revert hinterval
    decide

end PickBroker
