import PickBroker.Framework.Precedence
import PickBroker.Broker.Durability
import PickBroker.Broker.Intake
import PickBroker.Publish.TokenEnforcement

namespace PickBroker

open Framework

/-- The event of the publish service that a step of the intake comes to. A read is answered when
its message has been handled. -/
def Intake.served {Bytes : Type*} (I : Intake Bytes) : IntakeEvent → Option (PublishEvent V1.Pick)
  | .onReadDone i pick now keepRunning =>
    if I.reads i then
      (thrown (I.broker.addPickCallback pick now).2).map fun e =>
        .reader i (.onReadDone (.ok
          { pick := pick, outcome := .error e, keepRunning := keepRunning }))
    else none
  | .callbackReturns k keepRunning =>
    I.waiting[k]?.map fun w =>
      .reader w.1 (.onReadDone (.ok { pick := w.2, outcome := .ok (), keepRunning := keepRunning }))
  | .service event => if I.permits event then some event else none
  | .broker _ => none

/-- Everything between the publishers and the subscribers, with what gRPC knows of the publish
service. -/
structure DrivenIntake (Bytes : Type*) where
  intake : Intake Bytes
  serves : Bool := false
  outstanding : ℕ → ℕ := fun _ => 0

def DrivenIntake.driven {Bytes : Type*} (D : DrivenIntake Bytes) : DrivenService where
  service := D.intake.service
  serves := D.serves
  outstanding := D.outstanding

/-- The broker has made its publish service, with the options that its constructor asks for, and
nobody has submitted anything yet. -/
def DrivenIntake.new {Bytes : Type*} (B : Broker Bytes) : DrivenIntake Bytes :=
  { intake := .new (B.mOptions.mPublishServiceOptions.getD {}) B }

def drivenIntake {Bytes : Type*} [DecidableEq Bytes] (codec : Codec Bytes)
    (sorting : Sorting Int64 V1.Pick) :
    Machine (DrivenIntake Bytes) IntakeEvent (List IntakeAction) where
  step D event :=
    let (I, actions) := (intake codec sorting).step D.intake event
    match D.intake.served event with
    | none => ({ D with intake := I }, actions)
    | some event =>
      let driven := drivenService.next D.driven event
      ({ intake := I, serves := driven.serves, outstanding := driven.outstanding }, actions)

/-- gRPC answers started reads only, and calls `Publish` when the server is up. -/
def IntakePromises {Bytes : Type*} (D : DrivenIntake Bytes) : IntakeEvent → Prop
  | .onReadDone i _ _ _ => D.intake.reads i = true → 1 ≤ D.outstanding i
  | .service event => D.intake.permits event = true → GRPCPromises D.driven event
  | .callbackReturns _ _ | .broker _ => True

instance {Bytes : Type*} (D : DrivenIntake Bytes) :
    (event : IntakeEvent) → Decidable (IntakePromises D event)
  | .onReadDone _ _ _ _ => inferInstanceAs (Decidable (_ = true → _ ≤ _))
  | .service _ => inferInstanceAs (Decidable (_ = true → _))
  | .callbackReturns _ _ | .broker _ => .isTrue trivial

/-- A reader stays on the list of the service, under its number; it changes in its own steps. -/
theorem publisher_next {Pick : Type*} {S : PublishService} {i : ℕ} {P : Publisher}
    (hi : S.publishers[i]? = some P) (event : PublishEvent Pick) :
    ∃ P', (publishService.next S event).publishers[i]? = some P' ∧
      ((P' = P ∧ ∀ e, event ≠ .reader i e) ∨
        ∃ e, event = .reader i e ∧ P' = (S.readerStep P e).2.1) := by
  obtain ⟨hlt, -⟩ := List.getElem?_eq_some_iff.mp hi
  cases event with
  | publish client_metadata =>
    exact ⟨P, (List.getElem?_append_left hlt).trans hi, Or.inl ⟨rfl, by simp⟩⟩
  | start | stop => exact ⟨P, hi, Or.inl ⟨rfl, by simp⟩⟩
  | control j =>
    refine ⟨P, ?_, Or.inl ⟨rfl, by simp⟩⟩
    show (S.control j).publishers[i]? = some P
    rw [PublishService.control]
    cases S.controls[j]? with
    | none => exact hi
    | some pc => cases pc <;> exact hi
  | reader j event =>
    show ∃ P', (S.react j event).1.publishers[i]? = some P' ∧ _
    by_cases hij : j = i
    · subst j
      have hset : (S.react i event).1.publishers =
          S.publishers.set i (S.readerStep P event).2.1 := by rw [PublishService.react, hi]
      rw [hset]
      exact ⟨_, List.getElem?_set_self hlt, Or.inr ⟨event, rfl, rfl⟩⟩
    · refine ⟨P, ?_, Or.inl ⟨rfl, by simp [hij]⟩⟩
      rw [PublishService.react]
      cases S.publishers[j]? with
      | none => exact hi
      | some Q => exact (List.getElem?_set_ne hij).trans hi

/-- A client stays with its metadata. -/
theorem publishers_next {Pick : Type*} {S : PublishService} {i : ℕ} {P : Publisher}
    (hi : S.publishers[i]? = some P) (event : PublishEvent Pick) :
    ∃ P', (publishService.next S event).publishers[i]? = some P' ∧
      P'.client_metadata = P.client_metadata := by
  obtain ⟨P', hP', ⟨rfl, -⟩ | ⟨e, -, rfl⟩⟩ := publisher_next hi event
  · exact ⟨P', hP', rfl⟩
  · refine ⟨_, hP', ?_⟩
    have hmove := readerStep_move S P e
    generalize S.readerStep P e = result at hmove ⊢
    cases hmove <;> rfl

/-- A read stays outstanding until gRPC answers it. -/
theorem outstanding_kept {Pick : Type*} {D : DrivenService} {event : PublishEvent Pick} {j : ℕ}
    (hone : 1 ≤ D.outstanding j)
    (hother : ∀ i e, event = .reader i e → j = i → e.answered = 0) :
    1 ≤ (drivenService.next D event).outstanding j := by
  cases event with
  | publish client_metadata | start | stop | control i => exact hone
  | reader i e =>
    show 1 ≤ D.outstandingAfter _ (.reader i e) j
    rw [DrivenService.outstandingAfter, Function.update_apply]
    split
    · have hnone := hother i e rfl ‹_›
      subst j
      omega
    · exact hone

section Projections

variable {Bytes : Type*} [DecidableEq Bytes] (codec : Codec Bytes)
  (sorting : Sorting Int64 V1.Pick)

/-- The publish service takes the step that the intake serves it, or none. -/
theorem intake_service (I : Intake Bytes) (event : IntakeEvent) :
    ((intake codec sorting).next I event).service =
      match I.served event with
      | none => I.service
      | some event => publishService.next I.service event := by
  cases event with
  | onReadDone i pick now keepRunning =>
    simp only [Machine.next, intake, Intake.onReadDone, Intake.served]
    split
    · cases hthrown : thrown (I.broker.addPickCallback pick now).2 with
      | none =>
        dsimp only
        split <;> rfl
      | some e => rfl
    · rfl
  | callbackReturns k keepRunning =>
    simp only [Machine.next, intake, Intake.callbackReturns, Intake.served]
    cases hk : I.waiting[k]? with
    | none => rfl
    | some w => rfl
  | service event =>
    simp only [Machine.next, intake, Intake.served]
    split <;> rfl
  | broker event =>
    simp only [Machine.next, intake, Intake.served]
    split <;> rfl

theorem drivenIntake_next (D : DrivenIntake Bytes) (event : IntakeEvent) :
    ((drivenIntake codec sorting).next D event).intake =
        (intake codec sorting).next D.intake event ∧
      (drivenIntake codec sorting).answer D event = (intake codec sorting).answer D.intake event ∧
      ((drivenIntake codec sorting).next D event).driven =
        match D.intake.served event with
        | none => D.driven
        | some event => drivenService.next D.driven event := by
  have hservice := intake_service codec sorting D.intake event
  simp only [Machine.next, Machine.answer, drivenIntake] at hservice ⊢
  cases hserved : D.intake.served event with
  | none =>
    simp only [hserved] at hservice
    refine ⟨rfl, rfl, ?_⟩
    simp only [DrivenIntake.driven, hservice]
  | some served =>
    simp only [hserved] at hservice
    refine ⟨rfl, rfl, ?_⟩
    simp only [DrivenIntake.driven, hservice]
    rfl

end Projections

/-- Whoever is being waited for presented the token, and so did whoever may be waited for next. -/
structure Vouched {Bytes : Type*} (options : PublishServiceOptions) (accessToken : String)
    (D : DrivenIntake Bytes) : Prop where
  guarded : Guarded options accessToken D.driven
  reading : ∀ w ∈ D.intake.waiting, 1 ≤ D.outstanding w.1
  once : (D.intake.waiting.map Prod.fst).Nodup

theorem isWaiting_iff {Bytes : Type*} (I : Intake Bytes) (i : ℕ) :
    I.isWaiting i = true ↔ i ∈ I.waiting.map Prod.fst := by
  simp [Intake.isWaiting]

theorem not_isWaiting_of_reads {Bytes : Type*} {I : Intake Bytes} {i : ℕ}
    (h : I.reads i = true) : I.isWaiting i = false := by
  rw [Intake.reads] at h
  split at h
  · cases h
  · simpa using (Bool.and_eq_true_iff.mp h).2

/-- The publish service is driven as gRPC promises. -/
theorem served_promises {Bytes : Type*} {options : PublishServiceOptions} {accessToken : String}
    {D : DrivenIntake Bytes} (h : Vouched options accessToken D) {event : IntakeEvent}
    (hok : IntakePromises D event) {served : PublishEvent V1.Pick}
    (hserved : D.intake.served event = some served) : GRPCPromises D.driven served := by
  cases event with
  | onReadDone i pick now keepRunning =>
    simp only [Intake.served] at hserved
    split at hserved
    · rename_i hreads
      obtain ⟨e, -, rfl⟩ := Option.map_eq_some_iff.mp hserved
      exact hok hreads
    · cases hserved
  | callbackReturns k keepRunning =>
    obtain ⟨w, hk, rfl⟩ := Option.map_eq_some_iff.mp hserved
    exact h.reading w (List.mem_of_getElem? hk)
  | service event =>
    simp only [Intake.served] at hserved
    split at hserved
    · rename_i hpermits
      cases hserved
      exact hok hpermits
    · cases hserved
  | broker event => cases hserved

@[simp] theorem mem_accepted {tr : List Action} {pick : V1.Pick} :
    pick ∈ accepted tr ↔ .accepted pick ∈ tr := by
  simp only [accepted, List.mem_filterMap]
  constructor
  · intro h
    obtain ⟨action, hmem, heq⟩ := h
    cases action with
    | accepted p =>
      cases heq
      exact hmem
    | _ => cases heq
  · intro hmem
    exact ⟨_, hmem, rfl⟩

section Steps

variable {Bytes : Type*} [DecidableEq Bytes] (codec : Codec Bytes)
  (sorting : Sorting Int64 V1.Pick) {options : PublishServiceOptions} {accessToken : String}
  {D : DrivenIntake Bytes}

/-- A message that was read has its reader wait, or is handled at once. -/
theorem intake_waiting (I : Intake Bytes) (event : IntakeEvent) :
    ((intake codec sorting).next I event).waiting = I.waiting ∨
      (∃ i pick now keepRunning, event = .onReadDone i pick now keepRunning ∧
        I.reads i = true ∧ I.served event = none ∧
        ((intake codec sorting).next I event).waiting = I.waiting ++ [(i, pick)]) ∨
      ∃ k keepRunning, event = .callbackReturns k keepRunning ∧
        ((intake codec sorting).next I event).waiting = I.waiting.eraseIdx k := by
  cases event with
  | onReadDone i pick now keepRunning =>
    simp only [Machine.next, intake, Intake.onReadDone, Intake.served]
    cases hreads : I.reads i with
    | false => exact Or.inl rfl
    | true =>
      cases hthrown : thrown (I.broker.addPickCallback pick now).2 with
      | some e => exact Or.inl rfl
      | none =>
        simp only [if_true]
        by_cases hoverran : .overran pick ∈ (I.broker.addPickCallback pick now).2
        · exact Or.inl (by simp [hoverran])
        · exact Or.inr (Or.inl
            ⟨i, pick, now, keepRunning, rfl, hreads, by simp, by simp [hoverran]⟩)
  | callbackReturns k keepRunning =>
    refine Or.inr (Or.inr ⟨k, keepRunning, rfl, ?_⟩)
    simp only [Machine.next, intake, Intake.callbackReturns]
    cases hk : I.waiting[k]? with
    | none => exact (List.eraseIdx_of_length_le (List.getElem?_eq_none_iff.mp hk)).symm
    | some w => rfl
  | service event =>
    simp only [Machine.next, intake]
    split <;> exact Or.inl rfl
  | broker event =>
    simp only [Machine.next, intake]
    split <;> exact Or.inl rfl

/-- No reader waits for two calls. -/
theorem waiting_once {I : Intake Bytes} (honce : (I.waiting.map Prod.fst).Nodup)
    (event : IntakeEvent) :
    (((intake codec sorting).next I event).waiting.map Prod.fst).Nodup := by
  rcases intake_waiting codec sorting I event with hsame | hnew | hgone
  · rw [hsame]
    exact honce
  · obtain ⟨i, pick, now, keepRunning, -, hreads, -, hwaiting⟩ := hnew
    have hi : i ∉ I.waiting.map Prod.fst := by
      rw [← isWaiting_iff, not_isWaiting_of_reads hreads]
      exact Bool.false_ne_true
    rw [hwaiting, List.map_append]
    exact List.nodup_append_comm.mp (List.nodup_cons.mpr ⟨hi, honce⟩)
  · obtain ⟨k, keepRunning, -, hwaiting⟩ := hgone
    rw [hwaiting]
    exact honce.sublist ((List.eraseIdx_sublist _ k).map Prod.fst)

/-- gRPC tells a reader nothing while it is waiting. -/
theorem served_waiting {I : Intake Bytes} (honce : (I.waiting.map Prod.fst).Nodup)
    {event : IntakeEvent} {i : ℕ} {e : ReaderEvent V1.Pick}
    (hserved : I.served event = some (.reader i e))
    (hi : i ∈ ((intake codec sorting).next I event).waiting.map Prod.fst) : e = .proceed := by
  rcases intake_waiting codec sorting I event with hsame | hnew | hgone
  · rw [hsame, ← isWaiting_iff] at hi
    cases event with
    | onReadDone j pick now keepRunning =>
      simp only [Intake.served] at hserved
      split at hserved
      · rename_i hreads
        obtain ⟨exception, -, heq⟩ := Option.map_eq_some_iff.mp hserved
        cases heq
        rw [not_isWaiting_of_reads hreads] at hi
        cases hi
      · cases hserved
    | callbackReturns k keepRunning =>
      obtain ⟨w, hk, -⟩ := Option.map_eq_some_iff.mp hserved
      obtain ⟨hlt, -⟩ := List.getElem?_eq_some_iff.mp hk
      have hlength := congrArg List.length hsame
      simp only [Machine.next, intake, Intake.callbackReturns, hk, Intake.handle] at hlength
      rw [List.length_eraseIdx_of_lt hlt] at hlength
      omega
    | service event =>
      simp only [Intake.served] at hserved
      split at hserved
      · rename_i hpermits
        cases hserved
        cases e with
        | proceed => rfl
        | onDone =>
          rw [Intake.permits, hi] at hpermits
          cases hpermits
        | onReadDone event =>
          cases event with
          | ok message => cases hpermits
          | notOk keepRunning =>
            rw [Intake.permits, hi] at hpermits
            cases hpermits
      · cases hserved
    | broker event => cases hserved
  · obtain ⟨j, pick, now, keepRunning, -, -, hnone, -⟩ := hnew
    rw [hnone] at hserved
    cases hserved
  · obtain ⟨k, keepRunning, rfl, hwaiting⟩ := hgone
    obtain ⟨w, hk, heq⟩ := Option.map_eq_some_iff.mp hserved
    cases heq
    obtain ⟨hlt, rfl⟩ := List.getElem?_eq_some_iff.mp hk
    have hperm := (List.getElem_cons_eraseIdx_perm hlt).map Prod.fst
    have honce := hperm.nodup_iff.mpr honce
    rw [hwaiting] at hi
    exact absurd hi (List.nodup_cons.mp honce).1

theorem vouched_next (htoken : options.mGRPCOptions.mAccessToken = some accessToken)
    (hsecures : options.mGRPCOptions.secures = true) (h : Vouched options accessToken D)
    {event : IntakeEvent} (hok : IntakePromises D event) :
    Vouched options accessToken ((drivenIntake codec sorting).next D event) := by
  obtain ⟨hintake, -, hdriven⟩ := drivenIntake_next codec sorting D event
  have hguarded : Guarded options accessToken
      ((drivenIntake codec sorting).next D event).driven := by
    rw [hdriven]
    cases hserved : D.intake.served event with
    | none => exact h.guarded
    | some served => exact guarded_next htoken hsecures h.guarded (served_promises h hok hserved)
  refine ⟨hguarded, ?_, by rw [hintake]; exact waiting_once codec sorting h.once event⟩
  intro w hw
  rw [hintake] at hw
  have hbefore : 1 ≤ D.driven.outstanding w.1 := by
    rcases intake_waiting codec sorting D.intake event with hsame | hnew | hgone
    · exact h.reading w (hsame ▸ hw)
    · obtain ⟨i, pick, now, keepRunning, rfl, hreads, -, hwaiting⟩ := hnew
      rw [hwaiting] at hw
      rcases List.mem_append.mp hw with hw | hw
      · exact h.reading w hw
      · rw [List.mem_singleton.mp hw]
        exact hok hreads
    · obtain ⟨k, keepRunning, -, hwaiting⟩ := hgone
      rw [hwaiting] at hw
      exact h.reading w (List.mem_of_mem_eraseIdx hw)
  show 1 ≤ ((drivenIntake codec sorting).next D event).driven.outstanding w.1
  rw [hdriven]
  cases hserved : D.intake.served event with
  | none => exact hbefore
  | some served =>
    refine outstanding_kept hbefore ?_
    intro i e heq hi
    subst heq
    subst hi
    rw [served_waiting codec sorting h.once hserved (List.mem_map_of_mem hw)]
    rfl

/-- A step submits the message that a reader has read, or has nothing submitted or accepted. -/
theorem intake_answer_cases (I : Intake Bytes) (event : IntakeEvent) :
    (∃ i pick now keepRunning reactions, event = .onReadDone i pick now keepRunning ∧
      I.reads i = true ∧ (intake codec sorting).answer I event =
        .submitted i pick now :: (I.broker.addPickCallback pick now).2.map .broker ++
          List.map .reader reactions) ∨
    (∀ i pick now, .submitted i pick now ∉ (intake codec sorting).answer I event) ∧
      ∀ pick, .broker (.accepted pick) ∉ (intake codec sorting).answer I event := by
  have hsilent (B : Broker Bytes) (step : BrokerEvent)
      (hnot : ∀ pick now, step ≠ .addPickCallback pick now) (pick : V1.Pick) :
      .accepted pick ∉ (broker codec sorting).answer B step := by
    rw [← mem_accepted, accepts_nothing codec sorting B hnot]
    exact List.not_mem_nil
  cases event with
  | onReadDone i pick now keepRunning =>
    cases hreads : I.reads i with
    | false =>
      right
      simp [Machine.answer, intake, Intake.onReadDone, hreads]
    | true =>
      by_cases hcheck : checkAndFixPick pick now = .error .overrun
      · right
        have hanswer : (intake codec sorting).answer I (.onReadDone i pick now keepRunning) =
            [.broker (.overran pick)] :=
          congrArg Prod.snd (I.onReadDone_overrun hreads hcheck keepRunning)
        simp [hanswer]
      · left
        have hinside := I.broker.not_overran hcheck
        simp only [Machine.answer, intake, Intake.onReadDone, hreads, if_true, if_neg hinside]
        cases hthrown : thrown (I.broker.addPickCallback pick now).2 with
        | none => exact ⟨i, pick, now, keepRunning, [], rfl, hreads, by simp⟩
        | some e => exact ⟨i, pick, now, keepRunning, _, rfl, hreads, rfl⟩
  | callbackReturns k keepRunning =>
    right
    simp only [Machine.answer, intake, Intake.callbackReturns]
    cases I.waiting[k]? with
    | none => simp
    | some w =>
      have hnot (pick : V1.Pick) (now : Int64) :
          BrokerEvent.callbackReturns k ≠ .addPickCallback pick now := by
        intro heq
        cases heq
      have hreturns := hsilent I.broker (.callbackReturns k) hnot
      refine ⟨by simp [Intake.handle], ?_⟩
      intro pick hmem
      simp only [Intake.handle, List.mem_append, List.mem_map] at hmem
      rcases hmem with ⟨action, haction, heq⟩ | ⟨action, -, heq⟩
      · cases heq
        exact hreturns pick haction
      · cases heq
  | service event =>
    right
    simp only [Machine.answer, intake]
    split <;> simp
  | broker event =>
    right
    have hanswer : (intake codec sorting).answer I (.broker event) =
        if event.besidesReaders then ((broker codec sorting).answer I.broker event).map .broker
        else [] := by
      simp only [Machine.answer, intake]
      split <;> rfl
    rw [hanswer]
    split
    · rename_i hbesides
      have hnot (pick : V1.Pick) (now : Int64) : event ≠ .addPickCallback pick now := by
        intro heq
        rw [heq] at hbesides
        cases hbesides
      exact ⟨by simp, by simpa using hsilent I.broker event hnot⟩
    · simp

/-- What the broker does in a run of the intake it does in a run of its own. -/
theorem brokerActions_run (I : Intake Bytes) (events : List IntakeEvent) :
    ∃ steps, (broker codec sorting).trace I.broker steps =
      brokerActions ((intake codec sorting).trace I events) := by
  induction events generalizing I with
  | nil => exact ⟨[], rfl⟩
  | cons event events ih =>
    obtain ⟨steps, hsteps⟩ := ih ((intake codec sorting).next I event)
    rw [Machine.trace_cons, brokerActions_append, ← hsteps]
    have hmoves := intake_moves codec sorting I event
    generalize ((intake codec sorting).next I event).broker = B at hmoves ⊢
    generalize brokerActions ((intake codec sorting).answer I event) = actions at hmoves ⊢
    generalize submitted ((intake codec sorting).answer I event) = n at hmoves
    cases hmoves with
    | idle valid => exact ⟨steps, rfl⟩
    | overrun pick now h valid =>
      refine ⟨.addPickCallback pick now :: steps, ?_⟩
      simp [Machine.trace_cons, Machine.answer, Machine.next, broker, Broker.addPickCallback, h]
    | submit pick now inside valid => exact ⟨.addPickCallback pick now :: steps, rfl⟩
    | other step h valid => exact ⟨step :: steps, rfl⟩

theorem drivenIntake_trace (D : DrivenIntake Bytes) (events : List IntakeEvent) :
    (drivenIntake codec sorting).trace D events =
      (intake codec sorting).trace D.intake events := by
  induction events generalizing D with
  | nil => rfl
  | cons event events ih =>
    obtain ⟨hnext, hanswer, -⟩ := drivenIntake_next codec sorting D event
    rw [Machine.trace_cons, Machine.trace_cons, ih, hnext, hanswer]

/-- Whoever has submitted a message presented the token. -/
def Authenticated (accessToken : String) (D : DrivenIntake Bytes) (tr : List IntakeAction) :
    Prop :=
  ∀ i pick now, .submitted i pick now ∈ tr →
    ∃ P, D.intake.service.publishers[i]? = some P ∧ P.Presents accessToken

theorem Authenticated.next (h : Vouched options accessToken D) {tr : List IntakeAction}
    (hauthenticated : Authenticated accessToken D tr) {event : IntakeEvent}
    (hok : IntakePromises D event) :
    Authenticated accessToken ((drivenIntake codec sorting).next D event)
      (tr ++ (drivenIntake codec sorting).answer D event) := by
  obtain ⟨hintake, hanswer, -⟩ := drivenIntake_next codec sorting D event
  intro i pick now hmem
  have hbefore : ∃ P, D.intake.service.publishers[i]? = some P ∧ P.Presents accessToken := by
    rw [hanswer] at hmem
    rcases List.mem_append.mp hmem with hold | hnew
    · exact hauthenticated i pick now hold
    · rcases intake_answer_cases codec sorting D.intake event with hsubmits | hsilent
      · obtain ⟨j, raw, read, keepRunning, reactions, rfl, hreads, heq⟩ := hsubmits
        rw [heq] at hnew
        simp only [List.cons_append, List.mem_cons, IntakeAction.submitted.injEq,
          List.mem_append, List.mem_map, reduceCtorEq, and_false, exists_false, or_false] at hnew
        obtain ⟨rfl, rfl, rfl⟩ := hnew
        exact h.guarded.reads i (hok hreads)
      · exact absurd hnew (hsilent.1 i pick now)
  obtain ⟨P, hP, hpresents⟩ := hbefore
  rw [hintake, intake_service codec sorting]
  cases D.intake.served event with
  | none => exact ⟨P, hP, hpresents⟩
  | some served =>
    obtain ⟨P', hP', hmetadata⟩ := publishers_next hP served
    exact ⟨P', hP', by rwa [Publisher.Presents, hmetadata]⟩

/-- What is accepted was submitted before, and passed the checks. -/
def AcceptsSubmitted : List IntakeAction → Prop :=
  Preceded fun before a => ∀ fixed, a = .broker (.accepted fixed) →
    ∃ i pick now, .submitted i pick now ∈ before ∧ checkAndFixPick pick now = .ok fixed

theorem acceptsSubmitted_run (I : Intake Bytes) (events : List IntakeEvent) :
    AcceptsSubmitted ((intake codec sorting).trace I events) := by
  have hkeep (_ : Intake Bytes) (_ : IntakeEvent) (_ : List IntakeAction) (_ : True) (_ : True) :
      True := trivial
  refine Machine.preceded_trace (intake codec sorting) hkeep ?_ trivial
    ((intake codec sorting).meets_true I events)
  intro I event tr _ _ front a after hactions fixed ha
  have hmem : .broker (.accepted fixed) ∈ (intake codec sorting).answer I event := by
    rw [hactions, ← ha]
    simp
  rcases intake_answer_cases codec sorting I event with hsubmits | hsilent
  · obtain ⟨i, pick, now, keepRunning, reactions, rfl, -, heq⟩ := hsubmits
    refine ⟨i, pick, now, ?_, ?_⟩
    · cases front with
      | nil =>
        rw [heq, ha] at hactions
        cases hactions
      | cons first front =>
        simp only [heq, List.cons_append, List.cons.injEq] at hactions
        rw [hactions.1]
        simp
    · have haccepted : .accepted fixed ∈ (I.broker.addPickCallback pick now).2 := by
        simpa [heq] using hmem
      have hfixed : fixed ∈ submissions [.addPickCallback pick now] := by
        rw [← accepted_answer codec sorting I.broker, mem_accepted]
        exact haccepted
      cases hcheck : checkAndFixPick pick now with
      | error e => simp [submissions, hcheck, Except.toOption] at hfixed
      | ok pick' =>
        simp only [submissions, List.filterMap_cons, hcheck, Except.toOption, List.filterMap_nil,
          List.mem_singleton] at hfixed
        rw [hfixed]
  · exact absurd hmem (hsilent.2 fixed)

theorem authenticated_run (htoken : options.mGRPCOptions.mAccessToken = some accessToken)
    (hsecures : options.mGRPCOptions.secures = true) (h : Vouched options accessToken D)
    {events : List IntakeEvent}
    (hgrpc : (drivenIntake codec sorting).Meets IntakePromises D events) :
    Authenticated accessToken ((drivenIntake codec sorting).final D events)
      ((drivenIntake codec sorting).trace D events) := by
  let Inv (D : DrivenIntake Bytes) (tr : List IntakeAction) : Prop :=
    Vouched options accessToken D ∧ Authenticated accessToken D tr
  have hkeep : ∀ D event tr, Inv D tr → IntakePromises D event →
      Inv ((drivenIntake codec sorting).next D event)
        (tr ++ (drivenIntake codec sorting).answer D event) := by
    intro D event tr hinv hok
    exact ⟨vouched_next codec sorting htoken hsecures hinv.1 hok,
      hinv.2.next codec sorting hinv.1 hok⟩
  have hnone : Authenticated accessToken D [] := by
    intro i pick now hmem
    cases hmem
  exact (Machine.invariant_trace _ hkeep ⟨h, hnone⟩ hgrpc).2

/-- Whatever is written was loaded, or a reader had submitted it before its pick was accepted. -/
theorem submitted_before_written {orderBy : Sorting Int64 Bytes} {brokerOptions : BrokerOptions}
    {database : Database Bytes} {stmt : LoadStatement} {now : Int64} {isSecured : Bool}
    {I : Intake Bytes} {loadedPicks : List (Int64 × V1.Pick)}
    (hnew : Broker.new codec sorting orderBy brokerOptions (some database) stmt now isSecured =
      .ok I.broker)
    (hload : database.load codec orderBy stmt = .ok loadedPicks) (events : List IntakeEvent)
    {before after : List IntakeAction} {j : ℕ} {pick : V1.Pick}
    (hsplit : (intake codec sorting).trace I events =
      before ++ .broker (.writer j (.startWrite pick)) :: after) :
    (∃ t, (t, pick) ∈ loadedPicks) ∨
      ∃ i raw read, .submitted i raw read ∈ before ∧ checkAndFixPick raw read = .ok pick := by
  obtain ⟨steps, hsteps⟩ := brokerActions_run codec sorting I events
  have hknown := writesKnown_run codec sorting hnew hload steps
  rw [hsteps, hsplit, brokerActions_append] at hknown
  obtain ⟨t, hloaded | hdurable⟩ :=
    hknown (brokerActions before) _ (brokerActions after) rfl j pick rfl
  · exact Or.inl ⟨t, hloaded⟩
  · right
    have hmem : .broker (.accepted pick) ∈ before := by
      have haccepted := hdurable.accepted
      simp only [mem_accepted, brokerActions, List.mem_filterMap] at haccepted
      obtain ⟨action, hmem, heq⟩ := haccepted
      cases action with
      | broker action =>
        cases heq
        exact hmem
      | submitted i raw read | reader action => cases heq
    have haccepts := acceptsSubmitted_run codec sorting I events
    obtain ⟨front, rest, rfl⟩ := List.append_of_mem hmem
    rw [hsplit, List.append_assoc] at haccepts
    obtain ⟨i, raw, read, hsubmitted, hcheck⟩ := haccepts front _ _ rfl pick rfl
    exact ⟨i, raw, read, List.mem_append_left _ hsubmitted, hcheck⟩

end Steps

/-- With a token among the options of the publish service, whatever is written to whichever
subscriber was loaded at the start, or is what the checks have made of a message that a client had
submitted which presented the token. The threads of the two services and of the broker may take
their steps in any order, and there may be any number of clients without the token. -/
theorem written_from_token_holders {Bytes : Type*} [DecidableEq Bytes] (codec : Codec Bytes)
    (sorting : Sorting Int64 V1.Pick) {env : Environment} {tree : PropertyTree}
    {accessToken : String} {grpcOptions : GRPCServerOptions} {options : PublishServiceOptions}
    (hgiven : tree.data "PublishService.accessToken" = some accessToken)
    (haccepted : getGRPCServerOptions env tree "PublishService" = .ok grpcOptions)
    (hgrpcOptions : options.mGRPCOptions = grpcOptions) {brokerOptions : BrokerOptions}
    (hoptions : brokerOptions.mPublishServiceOptions = some options)
    {orderBy : Sorting Int64 Bytes} {database : Database Bytes} {stmt : LoadStatement}
    {now : Int64} {isSecured : Bool} {B : Broker Bytes} {loadedPicks : List (Int64 × V1.Pick)}
    (hnew : Broker.new codec sorting orderBy brokerOptions (some database) stmt now isSecured =
      .ok B)
    (hload : database.load codec orderBy stmt = .ok loadedPicks) (events : List IntakeEvent)
    (hgrpc : (drivenIntake codec sorting).Meets IntakePromises (.new B) events) :
    ∀ before j pick after,
      (drivenIntake codec sorting).trace (.new B) events =
          before ++ .broker (.writer j (.startWrite pick)) :: after →
      (∃ t, (t, pick) ∈ loadedPicks) ∨
        ∃ i raw read P, .submitted i raw read ∈ before ∧ checkAndFixPick raw read = .ok pick ∧
          ((drivenIntake codec sorting).final (.new B) events).intake.service.publishers[i]? =
            some P ∧ P.Presents accessToken := by
  have hread := getGRPCServerOptions_read haccepted
  have hpath : "PublishService" ++ ".accessToken" = "PublishService.accessToken" := by decide
  have htoken : grpcOptions.mAccessToken = some accessToken := by
    rw [hread.token, hpath, PropertyTree.get_optional, hgiven]
    rfl
  have hsecures : grpcOptions.secures = true := hread.secured (by rw [htoken]; rfl)
  subst hgrpcOptions
  have hB : B.mOptions = brokerOptions := by
    obtain ⟨serviceOptions, loaded, -, -, -, -, rfl⟩ := new_ok hnew
    rfl
  have hstart : Vouched options accessToken (DrivenIntake.new B) := by
    refine ⟨?_, by simp [DrivenIntake.new, Intake.new], by simp [DrivenIntake.new, Intake.new]⟩
    have hnewService := guarded_new options accessToken
    rwa [DrivenIntake.new, hB, hoptions]
  have hrun := authenticated_run codec sorting htoken hsecures hstart hgrpc
  intro before j pick after hsplit
  rw [drivenIntake_trace] at hrun hsplit
  have hwritten := submitted_before_written codec sorting (I := (DrivenIntake.new B).intake) hnew
    hload events hsplit
  refine hwritten.imp_right fun h => ?_
  obtain ⟨i, raw, read, hsubmitted, hcheck⟩ := h
  obtain ⟨P, hP, hpresents⟩ := hrun i raw read (hsplit ▸ List.mem_append_left _ hsubmitted)
  exact ⟨i, raw, read, P, hsubmitted, hcheck, hP, hpresents⟩

/-- The broker whose publish service asks for a token. -/
def guardedServices : BrokerOptions where
  mPublishServiceOptions := some { mGRPCOptions := tokenOptions }
  mSubscribeServiceOptions := some {}

def guardedBroker : Broker V1.Pick :=
  .started guardedServices {}
    (.started (Sorting.stable Int64 V1.Pick) (.backfilled {} [] 0) {} false)

/-- The publish service is started, a client comes with the token and one without it, a subscriber
comes, and the first client sends a pick, which is written. -/
def onePickFromTokenHolder : List IntakeEvent :=
  [.service .start, .service (.control 0), .service (.control 0), .service (.control 0),
    .service (.publish [("x-custom-auth-token", "abcd")]),
    .service (.publish [("x-custom-auth-token", "abc")]), .service (.reader 0 .proceed),
    .service (.reader 1 .proceed), .service (.reader 0 .proceed), .service (.reader 1 .proceed),
    .service (.reader 0 .proceed), .service (.reader 0 .proceed)] ++
  (oneClient ++ [BrokerEvent.reactor 0 (.proceed {}), .reactor 0 (.proceed {})]).map .broker ++
  [.onReadDone 0 samplePick 1 true, .callbackReturns 0 true] ++
  (processed 1 ++ [BrokerEvent.reactor 0 (.proceed {}), .reactor 0 (.proceed {})]).map .broker

/-- What has been done until the pick is written. -/
def untilWritten : List IntakeAction :=
  ((drivenIntake Codec.plain (Sorting.stable Int64 V1.Pick)).trace (.new guardedBroker)
    onePickFromTokenHolder).dropLast

theorem written_from_token_holders_onePick :
    (∃ t, (t, samplePick) ∈ ([] : List (Int64 × V1.Pick))) ∨
      ∃ i raw read P, .submitted i raw read ∈ untilWritten ∧
        checkAndFixPick raw read = .ok samplePick ∧
        ((drivenIntake Codec.plain (Sorting.stable Int64 V1.Pick)).final (.new guardedBroker)
          onePickFromTokenHolder).intake.service.publishers[i]? = some P ∧ P.Presents "abcd" :=
  written_from_token_holders Codec.plain (Sorting.stable Int64 V1.Pick) rfl tokenOptions_accepted
    rfl rfl (show Broker.new Codec.plain (Sorting.stable Int64 V1.Pick)
      (Sorting.stable Int64 V1.Pick) guardedServices (some {}) {} 0 false = .ok guardedBroker from
      rfl) rfl onePickFromTokenHolder (by decide) untilWritten 0 samplePick [] (by decide)

end PickBroker
