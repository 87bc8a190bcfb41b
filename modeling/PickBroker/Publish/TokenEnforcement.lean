import PickBroker.Framework.Counting
import PickBroker.Options.ServiceOptions
import PickBroker.Publish.PublishService
import PickBroker.Publish.Session

namespace PickBroker

open Framework

variable {Pick : Type*}

/-- The service as gRPC drives it: whether a call of `start` has come as far as the server, and how
many reads each reader has started that are not answered. -/
structure DrivenService where
  service : PublishService
  serves : Bool := false
  outstanding : ℕ → ℕ := fun _ => 0

/-- The last store of `start` before the server is up. -/
def PublishService.startsServing (S : PublishService) : PublishEvent Pick → Bool
  | .control i => S.controls[i]? = some .startCredentials
  | .publish _ | .reader _ _ | .start | .stop => false

/-- How many reads the event answers. -/
def ReaderEvent.answered : ReaderEvent Pick → ℕ
  | .onReadDone _ => 1
  | .proceed | .onDone => 0

def DrivenService.outstandingAfter (D : DrivenService) (actions : List (ReaderAction Pick)) :
    PublishEvent Pick → ℕ → ℕ
  | .reader i event => Function.update D.outstanding i
      (D.outstanding i - event.answered + actions.countP ReaderAction.isStartRead)
  | .publish _ | .start | .stop | .control _ => D.outstanding

def drivenService : Machine DrivenService (PublishEvent Pick) (List (ReaderAction Pick)) where
  step D event :=
    let (service, actions) := publishService.step D.service event
    ({ service := service
       serves := D.serves || D.service.startsServing event
       outstanding := D.outstandingAfter actions event }, actions)

/-- gRPC calls `Publish` when the server is up, and answers started reads only. -/
def GRPCPromises (D : DrivenService) : PublishEvent Pick → Prop
  | .publish _ => D.serves = true
  | .reader i event => event.answered ≤ D.outstanding i
  | .start | .stop | .control _ => True

instance (D : DrivenService) : (event : PublishEvent Pick) → Decidable (GRPCPromises D event)
  | .publish _ => inferInstanceAs (Decidable (D.serves = true))
  | .reader i event => inferInstanceAs (Decidable (event.answered ≤ D.outstanding i))
  | .start | .stop | .control _ => .isTrue trivial

/-- Some entry of the client's metadata is the token. -/
def Publisher.Presents (accessToken : String) (P : Publisher) : Prop :=
  ("x-custom-auth-token", accessToken) ∈ P.client_metadata

/-- The service that serves is secured, and only who presents the token is registered or has a pick
handed to the callback. -/
structure TokenEnforced (accessToken : String) (D : DrivenService) (event : PublishEvent Pick) :
    Prop where
  secured : (drivenService.next D event).serves = true →
    (drivenService.next D event).service.mSecured = true
  registered : ∀ P ∈ (drivenService.next D event).service.publishers,
    P.reader.mRegistered = true → P.Presents accessToken
  handed : ∀ i readerEvent pick, event = .reader i readerEvent →
    .callback pick ∈ drivenService.answer D event →
      ∃ P, D.service.publishers[i]? = some P ∧ P.Presents accessToken

/-- Behind its token check a reader belongs to a client with the token. -/
structure Publisher.Checked (accessToken : String) (P : Publisher) : Prop where
  secured : P.isSecured = true
  passed : P.pc = .fetchAdd ∨ P.pc = .loadKeepRunning ∨ P.reader.mRegistered = true →
    P.Presents accessToken

/-- What the service keeps with options that hold a token, a key and a certificate. -/
structure Guarded (options : PublishServiceOptions) (accessToken : String) (D : DrivenService) :
    Prop where
  options_same : D.service.mOptions = options
  secured : D.serves = true → D.service.mSecured = true
  checked : ∀ P ∈ D.service.publishers, P.Checked accessToken
  reads : ∀ i, 1 ≤ D.outstanding i →
    ∃ P, D.service.publishers[i]? = some P ∧ P.Presents accessToken

theorem mem_of_validatePublisher {client_metadata : List (String × String)} {accessToken : String}
    (hne : accessToken ≠ "") (h : validatePublisher client_metadata accessToken = true) :
    ("x-custom-auth-token", accessToken) ∈ client_metadata := by
  rcases Bool.or_eq_true_iff.mp h with hempty | hany
  · exact absurd (String.isEmpty_iff.mp hempty) hne
  · obtain ⟨item, hitem, hmatch⟩ := List.any_eq_true.mp hany
    obtain ⟨hkey, hvalue⟩ := Bool.and_eq_true_iff.mp hmatch
    have heq : item = ("x-custom-auth-token", accessToken) :=
      Prod.ext (by simpa using hkey) (by simpa using hvalue)
    exact heq ▸ hitem

/-- What a step of a reader does to the guard. -/
structure StepGuarded (accessToken : String) (S S' : PublishService) (P P' : Publisher)
    (actions : List (ReaderAction Pick)) : Prop where
  options_same : S'.mOptions = S.mOptions
  secured_same : S'.mSecured = S.mSecured
  metadata_same : P'.client_metadata = P.client_metadata
  checked : P'.Checked accessToken
  reads : .startRead ∈ actions → P.Presents accessToken

section Reader

variable {S S' : PublishService} {P P' : Publisher} {accessToken : String}
  {actions : List (ReaderAction Pick)}

/-- Wherever it goes but to what lies behind the check. -/
theorem Publisher.Checked.moved (h : P.Checked accessToken) {pc : ReaderPc}
    (hadd : pc ≠ .fetchAdd) (hload : pc ≠ .loadKeepRunning) :
    ({ P with pc := pc } : Publisher).Checked accessToken := by
  refine ⟨h.secured, ?_⟩
  intro hcases
  rcases hcases with hpc | hpc | hregistered
  · exact absurd hpc hadd
  · exact absurd hpc hload
  · exact h.passed (Or.inr (Or.inr hregistered))

/-- The constructor comes to the fetch_add only through the check. -/
theorem readerStep_guarded (htoken : S.mOptions.mGRPCOptions.mAccessToken = some accessToken)
    (h : P.Checked accessToken) {event : ReaderEvent Pick}
    (hread : 1 ≤ event.answered → P.Presents accessToken)
    (hstep : S.readerStep P event = (S', P', actions)) :
    StepGuarded accessToken S S' P P' actions := by
  have hmove := readerStep_move S P event
  rw [hstep] at hmove
  cases hmove with
  | refused hpc status =>
    exact ⟨rfl, rfl, rfl, h.moved (by decide) (by decide), by simp⟩
  | withinLimit hpc =>
    exact ⟨rfl, rfl, rfl, h.moved (by decide) (by decide), by simp⟩
  | authenticated hpc hpassed =>
    have hne : accessToken ≠ "" := by
      intro hempty
      rw [hempty] at htoken
      exact S.mOptions.mGRPCOptions.token_ne_empty htoken
    have hvalid : validatePublisher P.client_metadata accessToken = true := by
      simpa [GRPCServerOptions.refuses, htoken, h.secured] using hpassed
    refine ⟨rfl, rfl, rfl, ⟨h.secured, ?_⟩, by simp⟩
    intro _
    exact mem_of_validatePublisher hne hvalid
  | added hpc =>
    have hpassed := h.passed (Or.inl hpc)
    exact ⟨rfl, rfl, rfl, ⟨h.secured, fun _ => hpassed⟩, by simp⟩
  | constructed hpc =>
    have hpassed := h.passed (Or.inr (Or.inl hpc))
    exact ⟨rfl, rfl, rfl, ⟨h.secured, fun _ => hpassed⟩, fun _ => hpassed⟩
  | readDone hpc event =>
    have hpresents := hread le_rfl
    exact ⟨rfl, rfl, rfl, ⟨h.secured, fun _ => hpresents⟩, fun _ => hpresents⟩
  | done hpc =>
    refine ⟨?_, ?_, rfl, h.moved (by decide) (by decide), by simp⟩
    · rw [PublishService.onDone]
      split <;> rfl
    · rw [PublishService.onDone]
      split <;> rfl
  | ignored _ hnot => exact ⟨rfl, rfl, rfl, h, by simp⟩

/-- A pick is handed on where a read is answered. -/
theorem answered_of_callback {event : ReaderEvent Pick} {pick : Pick}
    (hmem : .callback pick ∈ (S.readerStep P event).2.2) : event.answered = 1 := by
  have hmove := readerStep_move S P event
  cases hstep : S.readerStep P event with
  | mk S' result =>
    rw [hstep] at hmove hmem
    cases hmove with
    | readDone hpc event => rfl
    | constructed hpc =>
      rw [List.mem_singleton] at hmem
      split at hmem
      · cases hmem
      · cases hmem
    | refused hpc status => cases List.mem_singleton.mp hmem
    | withinLimit hpc | authenticated hpc hpassed | added hpc | done hpc | ignored _ hnot =>
      cases hmem

end Reader

section Run

variable {options : PublishServiceOptions} {accessToken : String} {D : DrivenService}

theorem guarded_new (options : PublishServiceOptions) (accessToken : String) :
    Guarded options accessToken { service := PublishService.new options } := by
  refine ⟨rfl, nofun, by simp [PublishService.new], ?_⟩
  intro i hi
  exact absurd hi (by simp)

theorem guarded_publish (h : Guarded options accessToken D) (hserves : D.serves = true)
    (client_metadata : List (String × String)) :
    Guarded options accessToken
      (drivenService.next D (.publish client_metadata : PublishEvent Pick)) := by
  refine ⟨h.options_same, fun _ => h.secured hserves, ?_, ?_⟩
  · intro P hP
    rcases List.mem_append.mp hP with hold | hnew
    · exact h.checked P hold
    · rw [List.mem_singleton.mp hnew]
      exact ⟨h.secured hserves, by simp⟩
  · intro i hi
    obtain ⟨P, hP, hpresents⟩ := h.reads i hi
    obtain ⟨hlt, -⟩ := List.getElem?_eq_some_iff.mp hP
    exact ⟨P, (List.getElem?_append_left hlt).trans hP, hpresents⟩

/-- A read is outstanding from before or has just been started. -/
theorem outstandingAfter_pos {actions : List (ReaderAction Pick)} {i j : ℕ}
    {event : ReaderEvent Pick} (h : 1 ≤ D.outstandingAfter actions (.reader i event) j) :
    1 ≤ D.outstanding j ∨ j = i ∧ .startRead ∈ actions := by
  rw [DrivenService.outstandingAfter, Function.update_apply] at h
  split at h
  · by_cases hcount : actions.countP ReaderAction.isStartRead = 0
    · left
      subst j
      omega
    · obtain ⟨action, hmem, hstart⟩ := List.countP_pos_iff.mp (Nat.pos_of_ne_zero hcount)
      cases action with
      | startRead => exact Or.inr ⟨‹_›, hmem⟩
      | callback pick | finish status => cases hstart
  · exact Or.inl h

/-- Only who presents the token has reads that gRPC may answer. -/
theorem Guarded.presents (h : Guarded options accessToken D) {i : ℕ} {P : Publisher}
    (hi : D.service.publishers[i]? = some P) (hone : 1 ≤ D.outstanding i) :
    P.Presents accessToken := by
  obtain ⟨Q, hQ, hpresents⟩ := h.reads i hone
  rw [hi] at hQ
  exact Option.some.inj hQ ▸ hpresents

theorem next_reader {i : ℕ} {P P' : Publisher} {S' : PublishService} {event : ReaderEvent Pick}
    {actions : List (ReaderAction Pick)} (hi : D.service.publishers[i]? = some P)
    (hstep : D.service.readerStep P event = (S', P', actions)) :
    drivenService.next D (.reader i event) =
      { service := { S' with publishers := D.service.publishers.set i P' }
        serves := D.serves || false
        outstanding := D.outstandingAfter actions (.reader i event) } := by
  simp only [drivenService, publishService, Machine.next, PublishService.react, hi, hstep]
  rfl

theorem guarded_reader (htoken : options.mGRPCOptions.mAccessToken = some accessToken)
    (h : Guarded options accessToken D) {i : ℕ} {event : ReaderEvent Pick}
    (hanswered : event.answered ≤ D.outstanding i) :
    Guarded options accessToken (drivenService.next D (.reader i event)) := by
  cases hi : D.service.publishers[i]? with
  | none =>
    have hnext : drivenService.next D (.reader i event) =
        { D with
          serves := D.serves || false
          outstanding := D.outstandingAfter [] (.reader i event) } := by
      simp only [drivenService, publishService, Machine.next, PublishService.react, hi]
      rfl
    rw [hnext]
    refine ⟨h.options_same, by simpa using h.secured, h.checked, ?_⟩
    intro j hj
    rcases outstandingAfter_pos hj with hold | ⟨-, hmem⟩
    · exact h.reads j hold
    · cases hmem
  | some P =>
    obtain ⟨⟨S', P', actions⟩, hstep⟩ : ∃ result, D.service.readerStep P event = result :=
      ⟨_, rfl⟩
    have hread : 1 ≤ event.answered → P.Presents accessToken :=
      fun hone => h.presents hi (hone.trans hanswered)
    have hguarded := readerStep_guarded (h.options_same ▸ htoken)
      (h.checked P (List.mem_of_getElem? hi)) hread hstep
    obtain ⟨hlt, -⟩ := List.getElem?_eq_some_iff.mp hi
    rw [next_reader hi hstep]
    refine ⟨hguarded.options_same.trans h.options_same, ?_, ?_, ?_⟩
    · rw [hguarded.secured_same]
      simpa using h.secured
    · intro Q hQ
      rcases List.mem_or_eq_of_mem_set hQ with hold | rfl
      · exact h.checked Q hold
      · exact hguarded.checked
    · intro j hj
      by_cases hji : j = i
      · subst j
        refine ⟨P', List.getElem?_set_self hlt, ?_⟩
        rw [Publisher.Presents, hguarded.metadata_same]
        rcases outstandingAfter_pos hj with hold | ⟨-, hmem⟩
        · exact h.presents hi hold
        · exact hguarded.reads hmem
      · obtain ⟨Q, hQ, hpresents⟩ := h.reads j
          ((outstandingAfter_pos hj).resolve_right fun hnew => hji hnew.1)
        exact ⟨Q, (List.getElem?_set_ne fun he => hji he.symm).trans hQ, hpresents⟩

theorem guarded_control (hsecures : options.mGRPCOptions.secures = true)
    (h : Guarded options accessToken D) (i : ℕ) :
    Guarded options accessToken (drivenService.next D (.control i : PublishEvent Pick)) := by
  cases hi : D.service.controls[i]? with
  | none =>
    have hcontrol : D.service.control i = D.service := by rw [PublishService.control, hi]
    have hnext : drivenService.next D (.control i : PublishEvent Pick) = D := by
      simp [drivenService, publishService, Machine.next, hcontrol, PublishService.startsServing,
        DrivenService.outstandingAfter, hi]
    rw [hnext]
    exact h
  | some pc =>
    have hnext : drivenService.next D (.control i : PublishEvent Pick) =
        { service := { (D.service.controlStep pc).1 with
            controls := D.service.controls.set i (D.service.controlStep pc).2 }
          serves := D.serves || decide (pc = .startCredentials)
          outstanding := D.outstanding } := by
      simp [drivenService, publishService, Machine.next, PublishService.control,
        PublishService.startsServing, DrivenService.outstandingAfter, hi]
    rw [hnext]
    cases pc with
    | startCredentials =>
      refine ⟨h.options_same, ?_, h.checked, h.reads⟩
      intro _
      show D.service.mOptions.mGRPCOptions.secures = true
      rw [h.options_same]
      exact hsecures
    | startKeepRunning | startCount | stopKeepRunning | stopCount | returned =>
      refine ⟨h.options_same, ?_, h.checked, h.reads⟩
      intro hserves
      exact h.secured ((Bool.or_false D.serves).symm.trans hserves)

theorem guarded_next (htoken : options.mGRPCOptions.mAccessToken = some accessToken)
    (hsecures : options.mGRPCOptions.secures = true) {event : PublishEvent Pick}
    (h : Guarded options accessToken D) (hok : GRPCPromises D event) :
    Guarded options accessToken (drivenService.next D event) := by
  cases event with
  | publish client_metadata => exact guarded_publish h hok client_metadata
  | reader i event => exact guarded_reader htoken h hok
  | control i => exact guarded_control hsecures h i
  | start | stop =>
    refine ⟨h.options_same, ?_, h.checked, h.reads⟩
    intro hserves
    exact h.secured ((Bool.or_false D.serves).symm.trans hserves)

theorem tokenEnforced_of_guarded (htoken : options.mGRPCOptions.mAccessToken = some accessToken)
    (hsecures : options.mGRPCOptions.secures = true) {event : PublishEvent Pick}
    (h : Guarded options accessToken D) (hok : GRPCPromises D event) :
    TokenEnforced accessToken D event := by
  have hnext := guarded_next htoken hsecures h hok
  refine ⟨hnext.secured, ?_, ?_⟩
  · intro P hP hregistered
    exact (hnext.checked P hP).passed (Or.inr (Or.inr hregistered))
  · intro i readerEvent pick heq hmem
    subst heq
    have hreact : .callback pick ∈ (D.service.react i readerEvent).2 := hmem
    cases hi : D.service.publishers[i]? with
    | none =>
      rw [PublishService.react, hi] at hreact
      cases hreact
    | some P =>
      rw [PublishService.react, hi] at hreact
      have hone := answered_of_callback hreact
      have hanswered : readerEvent.answered ≤ D.outstanding i := hok
      exact ⟨P, rfl, h.presents hi (hone ▸ hanswered)⟩

end Run

/-- A token in the tree makes the options secure, and in every run of a service with them, as gRPC
drives it, the token is asked for. -/
theorem token_enforced {env : Environment} {tree : PropertyTree} {accessToken : String}
    {grpcOptions : GRPCServerOptions} {options : PublishServiceOptions}
    (hgiven : tree.data "PublishService.accessToken" = some accessToken)
    (haccepted : getGRPCServerOptions env tree "PublishService" = .ok grpcOptions)
    (hoptions : options.mGRPCOptions = grpcOptions) (events : List (PublishEvent Pick))
    (hgrpc : drivenService.Meets GRPCPromises { service := PublishService.new options } events) :
    grpcOptions.mAccessToken = some accessToken ∧ grpcOptions.secures = true ∧
      drivenService.Meets (TokenEnforced accessToken)
        { service := PublishService.new options } events := by
  have hread := getGRPCServerOptions_read haccepted
  have hpath : "PublishService" ++ ".accessToken" = "PublishService.accessToken" := by decide
  have htoken : grpcOptions.mAccessToken = some accessToken := by
    rw [hread.token, hpath, PropertyTree.get_optional, hgiven]
    rfl
  have hsecures : grpcOptions.secures = true := hread.secured (by rw [htoken]; rfl)
  subst hoptions
  refine ⟨htoken, hsecures, ?_⟩
  exact Machine.meets_of_invariant _ (fun _ _ h hok => guarded_next htoken hsecures h hok)
    (fun _ _ h hok => tokenEnforced_of_guarded htoken hsecures h hok)
    (guarded_new options accessToken) hgrpc

/-- A section with a key, a certificate and a token. -/
def tokenTree : PropertyTree where
  data path := [("PublishService.clientKey", "server.key"),
    ("PublishService.serverCertificate", "server.crt"),
    ("PublishService.accessToken", "abcd")].lookup path

def credentials : Environment where
  fileExists path := path == "server.key" || path == "server.crt"
  fileContents path := [("server.key", "KEY"), ("server.crt", "CERTIFICATE")].lookup path
  read_ini _ := .ok tokenTree
  toInt _ := none
  toUInt16 _ := none
  toInt64 _ := none
  toBool _ := none
  withOTLPGRPC := false

def tokenOptions : GRPCServerOptions where
  mAccessToken := some "abcd"
  mServerKey := some "KEY"
  mServerCertificate := some "CERTIFICATE"

theorem tokenOptions_accepted :
    getGRPCServerOptions credentials tokenTree "PublishService" = .ok tokenOptions := rfl

/-- The service is started, one client comes with the token and one without, and the first one
sends a pick. -/
def twoClients : List (PublishEvent ℕ) :=
  [.start, .control 0, .control 0, .control 0, .publish [("x-custom-auth-token", "abcd")],
    .publish [("x-custom-auth-token", "abc")], .reader 0 .proceed, .reader 1 .proceed,
    .reader 0 .proceed, .reader 1 .proceed, .reader 0 .proceed, .reader 0 .proceed,
    .reader 0 (.onReadDone (.ok { pick := 7, outcome := .ok (), keepRunning := true }))]

theorem token_enforced_twoClients :
    tokenOptions.mAccessToken = some "abcd" ∧ tokenOptions.secures = true ∧
      drivenService.Meets (TokenEnforced "abcd")
        { service := PublishService.new { mGRPCOptions := tokenOptions } } twoClients :=
  token_enforced rfl tokenOptions_accepted rfl twoClients (by decide)

end PickBroker
