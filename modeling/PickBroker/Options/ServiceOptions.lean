import PickBroker.Broker.BrokerOptions
import PickBroker.Framework.Results
import PickBroker.Options.PropertyTree

namespace PickBroker

/-- The part of `getGRPCServerOptions` on the key and the certificate of the server: they are
loaded when both are named. -/
def loadServerCredentials (env : Environment) (tree : PropertyTree) (sect : String)
    (options : GRPCServerOptions) : Except Exception GRPCServerOptions :=
  let serverKey := tree.getString (sect ++ ".clientKey") ""
  let serverCertificate := tree.getString (sect ++ ".serverCertificate") ""
  if serverKey ≠ "" ∧ serverCertificate ≠ "" then do
    requireFile env "gRPC server Key file " serverKey
    requireFile env "gRPC server certificate file " serverCertificate
    let key ← loadStringFromFile env serverKey
    let options ← options.setServerKey key
    let certificate ← loadStringFromFile env serverCertificate
    options.setServerCertificate certificate
  else .ok options

/-- The part on the access token. -/
def loadAccessToken (tree : PropertyTree) (sect : String) (options : GRPCServerOptions) :
    Except Exception GRPCServerOptions :=
  match tree.get_optional some (sect ++ ".accessToken") with
  | none => .ok options
  | some accessToken =>
    if options.mServerCertificate.isNone then
      .error (.invalid_argument "Must set server certificate to use access token")
    else options.setAccessToken accessToken

/-- The part on the certificate of the clients. -/
def loadClientCertificate (env : Environment) (tree : PropertyTree) (sect : String)
    (options : GRPCServerOptions) : Except Exception GRPCServerOptions :=
  let clientCertificate := tree.getString (sect ++ ".clientCertificate") ""
  if clientCertificate ≠ "" then do
    requireFile env "gRPC client certificate file " clientCertificate
    let certificate ← loadStringFromFile env clientCertificate
    options.setClientCertificate certificate
  else .ok options

def getGRPCServerOptions (env : Environment) (tree : PropertyTree) (sect : String) :
    Except Exception GRPCServerOptions :=
  let options : GRPCServerOptions := {}
  let host := tree.getString (sect ++ ".host") options.mHost
  if host = "" then .error (.runtime_error (sect ++ ".host is empty"))
  else do
    let options ← options.setHost host
    let options ← options.setPort 50000
    let options ← options.setPort (tree.get env.toUInt16 (sect ++ ".port") options.mPort)
    let options ← loadServerCredentials env tree sect options
    let options ← loadAccessToken tree sect options
    let options ← loadClientCertificate env tree sect options
    let options := options.disableReflection
    .ok (if tree.get env.toBool (sect ++ ".enableReflection") false then options.enableReflection
      else options)

/-- The message size is set only when one is given. -/
def loadMaximumMessageSize (env : Environment) (tree : PropertyTree)
    (options : PublishServiceOptions) : Except Exception PublishServiceOptions :=
  match tree.get_optional env.toInt "PublishService.maximumMessageSizeInBytes" with
  | none => .ok options
  | some maximumMessageSizeInBytes =>
    options.setMaximumMessageSizeInBytes maximumMessageSizeInBytes

def getPublishServiceOptions (env : Environment) (tree : PropertyTree) :
    Except Exception PublishServiceOptions := do
  let options : PublishServiceOptions := {}
  let grpcOptions ← getGRPCServerOptions env tree "PublishService"
  let options := options.setGRPCOptions grpcOptions
  let options ← options.setMaximumNumberOfPublishers
    (tree.get env.toInt "PublishService.maximumNumberOfPublishers" options.mMaximumPublishers)
  let options ← loadMaximumMessageSize env tree options
  -- The number is read as an int and stored without a sign.
  let maximumConsecutiveInvalidMessages := tree.get env.toInt
    "PublishService.maximumNumberOfConsecutiveInvalidMessages"
    options.mMaximumConsecutiveInvalidMessages.toInt32
  .ok (options.setMaximumConsecutiveInvalidMessages maximumConsecutiveInvalidMessages.toUInt32)

def getSubscribeServiceOptions (env : Environment) (tree : PropertyTree) :
    Except Exception SubscribeServiceOptions := do
  let options : SubscribeServiceOptions := {}
  let grpcOptions ← getGRPCServerOptions env tree "SubscribeService"
  let options := options.setGRPCOptions grpcOptions
  options.setMaximumNumberOfSubscribers
    (tree.get env.toInt "SubscribeService.maximumNumberOfSubscribers"
      options.mMaximumNumberOfSubscribers)

def getBrokerOptions (env : Environment) (tree : PropertyTree) :
    Except Exception BrokerOptions := do
  let options : BrokerOptions := {}
  let subscribe ← getSubscribeServiceOptions env tree
  let options ← options.setSubscribeServiceOptions subscribe
  let publish ← getPublishServiceOptions env tree
  let options ← options.setPublishServiceOptions publish
  let options ← options.setQueueCapacity
    (tree.get env.toInt "Broker.queueCapacity" options.mQueueCapacity)
  if options.mSubscribeServiceOptions.isNone then
    .error (.invalid_argument "Frontend options not set")
  else if options.mPublishServiceOptions.isNone then
    .error (.invalid_argument "Backend options not set")
  else .ok options

open Framework

section Setters

variable {options options' : GRPCServerOptions} {text : String}

theorem setText_ok {what : String} {set : text ≠ "" → GRPCServerOptions}
    (h : setText what text set = .ok options') : ∃ hne, options' = set hne :=
  passes_check h

theorem setPort_ok {port : UInt16} (h : options.setPort port = .ok options') :
    ∃ hne, options' = { options with mPort := port, port_ne_zero := hne } :=
  passes_check h

theorem setAccessToken_ok (h : options.setAccessToken text = .ok options') :
    ∃ hne, options' = { options with mAccessToken := some text, token_ne_empty := hne } := by
  obtain ⟨_, rfl⟩ := passes_check h
  exact ⟨_, rfl⟩

end Setters

/-- Where a server listens. -/
def GRPCServerOptions.address (options : GRPCServerOptions) : String × UInt16 :=
  (options.mHost, options.mPort)

section Parts

variable {env : Environment} {tree : PropertyTree} {sect : String}
  {options options' : GRPCServerOptions}

/-- The key and the certificate are set together or left alone. -/
theorem loadServerCredentials_ok (h : loadServerCredentials env tree sect options = .ok options') :
    options'.address = options.address ∧ options'.mAccessToken = options.mAccessToken ∧
      (options' = options ∨ options'.secures = true) := by
  unfold loadServerCredentials at h
  dsimp only at h
  split at h
  · obtain ⟨_, -, h⟩ := bind_eq_ok_iff.mp h
    obtain ⟨_, -, h⟩ := bind_eq_ok_iff.mp h
    obtain ⟨key, -, h⟩ := bind_eq_ok_iff.mp h
    obtain ⟨keyed, hkey, h⟩ := bind_eq_ok_iff.mp h
    obtain ⟨certificate, -, hcertificate⟩ := bind_eq_ok_iff.mp h
    obtain ⟨_, rfl⟩ := setText_ok hkey
    obtain ⟨_, rfl⟩ := setText_ok hcertificate
    exact ⟨rfl, rfl, Or.inr rfl⟩
  · obtain rfl := Except.ok.inj h
    exact ⟨rfl, rfl, Or.inl rfl⟩

/-- A token that is given is set, and only beside a certificate. -/
theorem loadAccessToken_ok (h : loadAccessToken tree sect options = .ok options')
    (hnone : options.mAccessToken = none) :
    options'.address = options.address ∧ options'.secures = options.secures ∧
      options'.mAccessToken = tree.get_optional some (sect ++ ".accessToken") ∧
      (options'.mAccessToken.isSome → options.mServerCertificate.isSome) := by
  unfold loadAccessToken at h
  cases htoken : tree.get_optional some (sect ++ ".accessToken") with
  | none =>
    rw [htoken] at h
    obtain rfl := Except.ok.inj h
    exact ⟨rfl, rfl, hnone, by simp [hnone]⟩
  | some accessToken =>
    rw [htoken] at h
    dsimp only at h
    split at h
    · cases h
    · rename_i hcertificate
      obtain ⟨_, rfl⟩ := setAccessToken_ok h
      refine ⟨rfl, rfl, rfl, ?_⟩
      intro _
      simpa [Option.isSome_iff_ne_none] using hcertificate

theorem loadClientCertificate_ok (h : loadClientCertificate env tree sect options = .ok options') :
    options'.address = options.address ∧ options'.mAccessToken = options.mAccessToken ∧
      options'.secures = options.secures := by
  unfold loadClientCertificate at h
  dsimp only at h
  split at h
  · obtain ⟨_, -, h⟩ := bind_eq_ok_iff.mp h
    obtain ⟨certificate, -, hcertificate⟩ := bind_eq_ok_iff.mp h
    obtain ⟨_, rfl⟩ := setText_ok hcertificate
    exact ⟨rfl, rfl, rfl⟩
  · obtain rfl := Except.ok.inj h
    exact ⟨rfl, rfl, rfl⟩

end Parts

/-- What accepted server options have from the tree. A token never stands without the key and the
certificate that secure the server. -/
structure ServerOptionsRead (env : Environment) (tree : PropertyTree) (sect : String)
    (options : GRPCServerOptions) : Prop where
  host : options.mHost = tree.getString (sect ++ ".host") "localhost"
  port : options.mPort = tree.get env.toUInt16 (sect ++ ".port") 50000
  token : options.mAccessToken = tree.get_optional some (sect ++ ".accessToken")
  secured : options.mAccessToken.isSome → options.secures = true

theorem getGRPCServerOptions_read {env : Environment} {tree : PropertyTree} {sect : String}
    {options : GRPCServerOptions} (h : getGRPCServerOptions env tree sect = .ok options) :
    ServerOptionsRead env tree sect options := by
  unfold getGRPCServerOptions at h
  dsimp only at h
  split at h
  · cases h
  · obtain ⟨hosted, hhost, h⟩ := bind_eq_ok_iff.mp h
    obtain ⟨_, rfl⟩ := setText_ok hhost
    obtain ⟨ported, hdefault, h⟩ := bind_eq_ok_iff.mp h
    obtain ⟨_, rfl⟩ := setPort_ok hdefault
    obtain ⟨addressed, hport, h⟩ := bind_eq_ok_iff.mp h
    obtain ⟨_, rfl⟩ := setPort_ok hport
    obtain ⟨keyed, hcredentials, h⟩ := bind_eq_ok_iff.mp h
    obtain ⟨tokened, htoken, h⟩ := bind_eq_ok_iff.mp h
    obtain ⟨certified, hclient, hlast⟩ := bind_eq_ok_iff.mp h
    obtain ⟨haddress₁, htoken₁, hsecured⟩ := loadServerCredentials_ok hcredentials
    obtain ⟨haddress₂, hsecures₂, htoken₂, hneeds⟩ := loadAccessToken_ok htoken htoken₁
    obtain ⟨haddress₃, htoken₃, hsecures₃⟩ := loadClientCertificate_ok hclient
    have haddress := haddress₃.trans (haddress₂.trans haddress₁)
    have htoken := htoken₃.trans htoken₂
    have hsecures : certified.mAccessToken.isSome → certified.secures = true := by
      intro hsome
      rw [htoken₃] at hsome
      rw [hsecures₃, hsecures₂]
      rcases hsecured with rfl | hsecured
      -- Without the two files there is no certificate, so a token has not been accepted.
      · cases hneeds hsome
      · exact hsecured
    have hsame : options.address = certified.address ∧
        options.mAccessToken = certified.mAccessToken ∧ options.secures = certified.secures := by
      rw [← Except.ok.inj hlast]
      split <;> exact ⟨rfl, rfl, rfl⟩
    have hread := hsame.1.trans haddress
    refine ⟨congrArg Prod.fst hread, congrArg Prod.snd hread, hsame.2.1.trans htoken, ?_⟩
    rw [hsame.2.1, hsame.2.2]
    exact hsecures

/-- What accepted options of the publish service have from the tree. -/
structure PublishOptionsRead (env : Environment) (tree : PropertyTree)
    (options : PublishServiceOptions) : Prop where
  grpc : ServerOptionsRead env tree "PublishService" options.mGRPCOptions
  publishers : options.mMaximumPublishers =
    tree.get env.toInt "PublishService.maximumNumberOfPublishers" 2048
  message_size : options.mMaximumMessageSizeInBytes =
    tree.get_optional env.toInt "PublishService.maximumMessageSizeInBytes"
  invalid_messages : options.mMaximumConsecutiveInvalidMessages =
    (tree.get env.toInt "PublishService.maximumNumberOfConsecutiveInvalidMessages" 8).toUInt32

structure SubscribeOptionsRead (env : Environment) (tree : PropertyTree)
    (options : SubscribeServiceOptions) : Prop where
  grpc : ServerOptionsRead env tree "SubscribeService" options.mGRPCOptions
  /-- Nothing is read for the store. -/
  store : options.mPickStoreOptions = {}

/-- What accepted options of the broker have from the tree; nothing is read for the retention. -/
structure BrokerOptionsRead (env : Environment) (tree : PropertyTree) (options : BrokerOptions) :
    Prop where
  publish : ∃ publish, options.mPublishServiceOptions = some publish ∧
    PublishOptionsRead env tree publish
  subscribe : ∃ subscribe, options.mSubscribeServiceOptions = some subscribe ∧
    SubscribeOptionsRead env tree subscribe
  queue_capacity : options.mQueueCapacity = tree.get env.toInt "Broker.queueCapacity" 8192
  retention : options.mPickRetention = 30 * 60 * 1000

section Services

variable {env : Environment} {tree : PropertyTree}

theorem setMaximumNumberOfPublishers_ok {options options' : PublishServiceOptions}
    {maxPublishers : Int32} (h : options.setMaximumNumberOfPublishers maxPublishers = .ok options') :
    ∃ hpos, options' =
      { options with mMaximumPublishers := maxPublishers, publishers_pos := hpos } := by
  obtain ⟨_, rfl⟩ := passes_check h
  exact ⟨_, rfl⟩

theorem loadMaximumMessageSize_ok {options options' : PublishServiceOptions}
    (h : loadMaximumMessageSize env tree options = .ok options')
    (hnone : options.mMaximumMessageSizeInBytes = none) :
    ∃ hpos, options' =
      { options with
        mMaximumMessageSizeInBytes :=
          tree.get_optional env.toInt "PublishService.maximumMessageSizeInBytes"
        message_size_pos := hpos } := by
  unfold loadMaximumMessageSize at h
  split at h
  · rename_i hsize
    obtain rfl := Except.ok.inj h
    rw [hsize]
    refine ⟨rfl, ?_⟩
    cases options
    cases hnone
    rfl
  · rename_i size hsize
    rw [hsize]
    obtain ⟨_, rfl⟩ := passes_check h
    exact ⟨_, rfl⟩

theorem getPublishServiceOptions_read {options : PublishServiceOptions}
    (h : getPublishServiceOptions env tree = .ok options) : PublishOptionsRead env tree options := by
  unfold getPublishServiceOptions at h
  dsimp only at h
  obtain ⟨grpcOptions, hgrpc, h⟩ := bind_eq_ok_iff.mp h
  obtain ⟨limited, hpublishers, h⟩ := bind_eq_ok_iff.mp h
  obtain ⟨_, rfl⟩ := setMaximumNumberOfPublishers_ok hpublishers
  obtain ⟨sized, hsize, hlast⟩ := bind_eq_ok_iff.mp h
  obtain ⟨_, rfl⟩ := loadMaximumMessageSize_ok hsize rfl
  rw [← Except.ok.inj hlast]
  exact ⟨getGRPCServerOptions_read hgrpc, rfl, rfl, rfl⟩

theorem getSubscribeServiceOptions_read {options : SubscribeServiceOptions}
    (h : getSubscribeServiceOptions env tree = .ok options) :
    SubscribeOptionsRead env tree options := by
  unfold getSubscribeServiceOptions at h
  dsimp only at h
  obtain ⟨grpcOptions, hgrpc, h⟩ := bind_eq_ok_iff.mp h
  obtain ⟨_, rfl⟩ := passes_check h
  exact ⟨getGRPCServerOptions_read hgrpc, rfl⟩

theorem setSubscribeServiceOptions_ok {options options' : BrokerOptions}
    {subscribe : SubscribeServiceOptions}
    (h : options.setSubscribeServiceOptions subscribe = .ok options') :
    options' = { options with mSubscribeServiceOptions := some subscribe } := by
  unfold BrokerOptions.setSubscribeServiceOptions at h
  split at h
  · split at h
    · cases h
    · exact (Except.ok.inj h).symm
  · exact (Except.ok.inj h).symm

theorem setPublishServiceOptions_ok {options options' : BrokerOptions}
    {publish : PublishServiceOptions}
    (h : options.setPublishServiceOptions publish = .ok options') :
    options' = { options with mPublishServiceOptions := some publish } := by
  unfold BrokerOptions.setPublishServiceOptions at h
  split at h
  · split at h
    · cases h
    · exact (Except.ok.inj h).symm
  · exact (Except.ok.inj h).symm

theorem setQueueCapacity_ok {options options' : BrokerOptions} {capacity : Int32}
    (h : options.setQueueCapacity capacity = .ok options') :
    ∃ hpos, options' = { options with mQueueCapacity := capacity, capacity_pos := hpos } := by
  obtain ⟨_, rfl⟩ := passes_check h
  exact ⟨_, rfl⟩

theorem getBrokerOptions_read {options : BrokerOptions}
    (h : getBrokerOptions env tree = .ok options) : BrokerOptionsRead env tree options := by
  unfold getBrokerOptions at h
  dsimp only at h
  obtain ⟨subscribe, hsubscribe, h⟩ := bind_eq_ok_iff.mp h
  obtain ⟨subscribed, hset, h⟩ := bind_eq_ok_iff.mp h
  obtain rfl := setSubscribeServiceOptions_ok hset
  obtain ⟨publish, hpublish, h⟩ := bind_eq_ok_iff.mp h
  obtain ⟨published, hset', h⟩ := bind_eq_ok_iff.mp h
  obtain rfl := setPublishServiceOptions_ok hset'
  obtain ⟨sized, hcapacity, hlast⟩ := bind_eq_ok_iff.mp h
  obtain ⟨_, rfl⟩ := setQueueCapacity_ok hcapacity
  -- Both services have been set, so neither check fires.
  obtain rfl := Except.ok.inj hlast
  exact ⟨⟨publish, rfl, getPublishServiceOptions_read hpublish⟩,
    ⟨subscribe, rfl, getSubscribeServiceOptions_read hsubscribe⟩, rfl, rfl⟩

end Services

end PickBroker
