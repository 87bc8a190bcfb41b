import PickBroker.Broker.Provenance
import PickBroker.Publish.Summary

namespace PickBroker

open Framework

/-- A reader as it is constructed. -/
def Session.fresh (options : PublishServiceOptions) (registered : Bool) : Session V1.Pick where
  reader :=
    { mMaximumNumberOfPublishers := options.mMaximumPublishers
      mMaximumConsecutiveInvalidMessages := options.mMaximumConsecutiveInvalidMessages
      mRegistered := registered }
  outstanding := 0
  trace := []

/-- The outcome that the checks alone decide on. -/
def checked (pick : V1.Pick) (now : Int64) : Except Failure Unit :=
  (checkAndFixPick pick now).map fun _ => ()

/-- The pick of a message, and what came of it. -/
def Message.handled (message : Message V1.Pick) : V1.Pick × Except Failure Unit :=
  (message.pick, message.outcome.mapError .threw)

/-- The picks of the messages that were read, with what came of them. -/
def picksRead (messages : List (ReadDone V1.Pick)) : List (V1.Pick × Except Failure Unit) :=
  messages.filterMap fun | .ok message => some message.handled | .notOk _ => none

/-- What reader `i` has submitted, with what the checks say of it when its callback reads the
clock. -/
def submittedBy (i : ℕ) (tr : List IntakeAction) : List (V1.Pick × Except Failure Unit) :=
  tr.filterMap fun
    | .submitted j pick now => if j = i then some (pick, checked pick now) else none
    | _ => none

/-- The message whose call of `addPickCallback` reader `i` is waiting for. -/
def Intake.waitingOf {Bytes : Type*} (I : Intake Bytes) (i : ℕ) :
    List (V1.Pick × Except Failure Unit) :=
  (I.waiting.filter fun w => w.1 = i).map fun w => (w.2, .ok ())

/-- The pick that reader `i` is done with in a step of the publish service. -/
def finished (i : ℕ) : Option (PublishEvent V1.Pick) → List (V1.Pick × Except Failure Unit)
  | some (.reader j (.onReadDone (.ok message))) => if j = i then [message.handled] else []
  | _ => []

section Lists

variable (i : ℕ) (tr tr' : List IntakeAction) (messages messages' : List (ReadDone V1.Pick))

@[simp] theorem submittedBy_append :
    submittedBy i (tr ++ tr') = submittedBy i tr ++ submittedBy i tr' := List.filterMap_append

@[simp] theorem submittedBy_broker (actions : List Action) :
    submittedBy i (actions.map .broker) = [] := by
  simp [submittedBy]

@[simp] theorem submittedBy_reader (reactions : List (ReaderAction V1.Pick)) :
    submittedBy i (reactions.map .reader) = [] := by
  simp [submittedBy]

@[simp] theorem submittedBy_cons (j : ℕ) (pick : V1.Pick) (now : Int64) :
    submittedBy i (.submitted j pick now :: tr) =
      (if j = i then [(pick, checked pick now)] else []) ++ submittedBy i tr := by
  by_cases hj : j = i <;> simp [submittedBy, hj]

@[simp] theorem picksRead_append :
    picksRead (messages ++ messages') = picksRead messages ++ picksRead messages' :=
  List.filterMap_append

end Lists

/-- What a call of `addPickCallback` throws is what the checks throw. -/
theorem thrown_addPickCallback {Bytes : Type*} (B : Broker Bytes) (pick : V1.Pick) (now : Int64) :
    checked pick now = .error .overrun ∧ .overran pick ∈ (B.addPickCallback pick now).2 ∧
        thrown (B.addPickCallback pick now).2 = none ∨
      .overran pick ∉ (B.addPickCallback pick now).2 ∧
        checked pick now = match thrown (B.addPickCallback pick now).2 with
          | some e => .error (.threw e)
          | none => .ok () := by
  unfold Broker.addPickCallback checked
  cases checkAndFixPick pick now with
  | error failure =>
    cases failure with
    | overrun => exact Or.inl ⟨rfl, List.mem_cons_self, rfl⟩
    | threw e => exact Or.inr ⟨by simp, rfl⟩
  | ok fixed =>
    right
    refine ⟨by simp, ?_⟩
    have hnone (popped : List V1.Pick) :
        thrown (popped.map .overflowed ++ [.accepted fixed]) = none := by
      simp [thrown, List.findSome?_eq_none_iff]
    simp only [hnone]
    rfl

section Account

variable {Bytes : Type*} {I : Intake Bytes} {i : ℕ}

theorem waitingOf_of_not_waiting (h : I.isWaiting i = false) : I.waitingOf i = [] := by
  have hnone : ∀ w ∈ I.waiting, w.1 ≠ i := by
    simpa [Intake.isWaiting] using h
  have hfilter : (I.waiting.filter fun w => w.1 = i) = [] := by
    simpa [List.filter_eq_nil_iff] using hnone
  rw [Intake.waitingOf, hfilter, List.map_nil]

/-- The entry of a reader that has no other. -/
theorem filter_only {α β : Type*} (f : α → β) {before after : List (ℕ × α)} {w : ℕ × α}
    (hw : w.1 ∉ (before ++ after).map Prod.fst) :
    ((before ++ w :: after).filter fun x => x.1 = i).map (fun x => f x.2) =
      (if w.1 = i then [f w.2] else []) ++
        ((before ++ after).filter fun x => x.1 = i).map fun x => f x.2 := by
  by_cases hi : w.1 = i
  · subst hi
    have hothers : ∀ l : List (ℕ × α), w.1 ∉ l.map Prod.fst →
        (l.filter fun x => x.1 = w.1) = [] := by
      intro l hl
      rw [List.filter_eq_nil_iff]
      intro x hx
      simp only [decide_eq_true_eq]
      intro heq
      exact hl (heq ▸ List.mem_map_of_mem hx)
    rw [List.map_append, List.mem_append, not_or] at hw
    simp [hothers before hw.1, hothers after hw.2]
  · simp [hi]

/-- A reader waits for one call at most. -/
theorem waitingOf_erase (honce : (I.waiting.map Prod.fst).Nodup) {k : ℕ} {w : ℕ × V1.Pick}
    (hk : I.waiting[k]? = some w) :
    I.waitingOf i = (if w.1 = i then [(w.2, .ok ())] else []) ++
      { I with waiting := I.waiting.eraseIdx k }.waitingOf i := by
  obtain ⟨hlt, rfl⟩ := List.getElem?_eq_some_iff.mp hk
  have hgone : I.waiting[k].1 ∉ (I.waiting.eraseIdx k).map Prod.fst := by
    have hperm := (List.getElem_cons_eraseIdx_perm hlt).map Prod.fst
    exact (List.nodup_cons.mp (hperm.nodup_iff.mpr honce)).1
  rw [List.eraseIdx_eq_take_drop_succ] at hgone
  rw [Intake.waitingOf, Intake.waitingOf, List.eraseIdx_eq_take_drop_succ,
    ← filter_only (fun pick : V1.Pick => (pick, (.ok () : Except Failure Unit))) hgone,
    ← List.drop_eq_getElem_cons hlt, List.take_append_drop]

end Account

section Publishers

variable {Pick : Type*} {S : PublishService}

theorem next_options (S : PublishService) (event : PublishEvent Pick) :
    (publishService.next S event).mOptions = S.mOptions := by
  cases event with
  | publish client_metadata | start | stop => rfl
  | control j =>
    show (S.control j).mOptions = S.mOptions
    rw [PublishService.control]
    cases S.controls[j]? with
    | none => rfl
    | some pc => cases pc <;> rfl
  | reader j event =>
    show (S.react j event).1.mOptions = S.mOptions
    rw [PublishService.react]
    cases S.publishers[j]? with
    | none => rfl
    | some P =>
      have hmove := readerStep_move S P event
      dsimp only
      generalize S.readerStep P event = result at hmove ⊢
      cases hmove with
      | done hpc =>
        show (S.onDone P).1.mOptions = S.mOptions
        rw [PublishService.onDone]
        dsimp only
        split <;> rfl
      | _ => rfl

/-- A reader that was not there has just been made. -/
theorem publisher_new {i : ℕ} {P : Publisher} {event : PublishEvent Pick}
    (hnone : S.publishers[i]? = none)
    (hi : (publishService.next S event).publishers[i]? = some P) :
    P.pc = .checkLimit ∧ P.reader =
      { mMaximumNumberOfPublishers := S.mOptions.mMaximumPublishers
        mMaximumConsecutiveInvalidMessages := S.mOptions.mMaximumConsecutiveInvalidMessages } := by
  have hle := List.getElem?_eq_none_iff.mp hnone
  have hlt := (List.getElem?_eq_some_iff.mp hi).1
  cases event with
  | publish client_metadata =>
    have hi' : (S.publish client_metadata).publishers[i]? = some P := hi
    rw [PublishService.publish, List.getElem?_append_right hle] at hi'
    obtain ⟨hsingle, rfl⟩ := List.getElem?_eq_some_iff.mp hi'
    simp
  | start | stop => exact absurd hlt (Nat.not_lt.mpr hle)
  | control j =>
    have hsame : (S.control j).publishers = S.publishers := by
      rw [PublishService.control]
      cases S.controls[j]? with
      | none => rfl
      | some pc => cases pc <;> rfl
    have hlt' : i < (S.control j).publishers.length := hlt
    rw [hsame] at hlt'
    exact absurd hlt' (Nat.not_lt.mpr hle)
  | reader j event =>
    have hlength : (S.react j event).1.publishers.length = S.publishers.length := by
      rw [PublishService.react]
      cases S.publishers[j]? with
      | none => rfl
      | some Q => simp
    have hlt' : i < (S.react j event).1.publishers.length := hlt
    rw [hlength] at hlt'
    exact absurd hlt' (Nat.not_lt.mpr hle)

end Publishers

/-- The reader is where a session of its own would be that has been told these messages. -/
structure ReadsAlone (options : PublishServiceOptions) (P : Publisher) (registered : Bool)
    (messages : List (ReadDone V1.Pick)) : Prop where
  reader : P.reader = (session.final (Session.fresh options registered) messages).reader
  unread : P.pc.constructing = true → messages = []

/-- A step of a reader, with what it has read in it. -/
theorem ReadsAlone.step {options : PublishServiceOptions} {P : Publisher} {registered : Bool}
    {messages : List (ReadDone V1.Pick)} (h : ReadsAlone options P registered messages)
    (S : PublishService) (e : ReaderEvent V1.Pick)
    (hopened : ∀ message, e = .onReadDone (.ok message) → P.pc = .opened) :
    ∃ registered' messages', ReadsAlone options (S.readerStep P e).2.1 registered' messages' ∧
      ∀ i, picksRead messages' = picksRead messages ++ finished i (some (.reader i e)) := by
  cases e with
  | proceed =>
    have hmove : ReaderMove S P (.proceed : ReaderEvent V1.Pick) (S.readerStep P .proceed) :=
      proceed_move S P
    generalize S.readerStep P .proceed = result at hmove ⊢
    simp only [finished, List.append_nil]
    cases hmove with
    | refused hpc status | constructed hpc =>
      exact ⟨registered, messages, ⟨h.reader, by simp [ReaderPc.constructing]⟩, by simp⟩
    | withinLimit hpc | authenticated hpc hpassed =>
      have hnone := h.unread (by simp [hpc, ReaderPc.constructing])
      exact ⟨registered, messages, ⟨h.reader, fun _ => hnone⟩, by simp⟩
    | added hpc =>
      have hnone := h.unread (by simp [hpc, ReaderPc.constructing])
      subst hnone
      refine ⟨true, [], ⟨?_, fun _ => rfl⟩, by simp⟩
      have hreader := h.reader
      simp only [Machine.final_nil, Session.fresh] at hreader ⊢
      rw [hreader]
    | ignored _ hnot => exact ⟨registered, messages, h, by simp⟩
  | onReadDone event =>
    simp only [PublishService.readerStep]
    split
    · rename_i hpc
      refine ⟨registered, messages ++ [event], ⟨?_, by simp [hpc, ReaderPc.constructing]⟩, ?_⟩
      · rw [Machine.final_append]
        show (P.reader.onReadDone event).1 = _
        rw [h.reader]
        rfl
      · intro i
        cases event with
        | ok message => simp [picksRead, finished]
        | notOk keepRunning => simp [picksRead, finished]
    · rename_i hpc
      refine ⟨registered, messages, h, ?_⟩
      intro i
      cases event with
      | ok message => exact absurd (hopened message rfl) hpc
      | notOk keepRunning => simp [finished]
  | onDone =>
    simp only [PublishService.readerStep]
    split
    · exact ⟨registered, messages,
        ⟨h.reader, by simp [PublishService.onDone, ReaderPc.constructing]⟩, by simp [finished]⟩
    · exact ⟨registered, messages, h, by simp [finished]⟩

/-- What holds of all readers while they share the broker. -/
structure Intake.Attends {Bytes : Type*} (options : PublishServiceOptions) (I : Intake Bytes)
    (tr : List IntakeAction) : Prop where
  options_same : I.service.mOptions = options
  once : (I.waiting.map Prod.fst).Nodup
  opened : ∀ w ∈ I.waiting, ∃ P, I.service.publishers[w.1]? = some P ∧ P.pc = .opened
  known : ∀ i, I.service.publishers[i]? = none → submittedBy i tr = []
  alone : ∀ i P, I.service.publishers[i]? = some P → ∃ registered messages,
    ReadsAlone options P registered messages ∧
      picksRead messages ++ I.waitingOf i = submittedBy i tr

/-- A message that is handled was read by an open reader. -/
theorem Intake.Attends.served {Bytes : Type*} {options : PublishServiceOptions} {I : Intake Bytes}
    {tr : List IntakeAction} (h : I.Attends options tr) {event : IntakeEvent} {i : ℕ}
    {message : Message V1.Pick}
    (hserved : I.served event = some (.reader i (.onReadDone (.ok message)))) :
    ∃ P, I.service.publishers[i]? = some P ∧ P.pc = .opened := by
  cases event with
  | onReadDone j pick now keepRunning =>
    simp only [Intake.served] at hserved
    split at hserved
    · rename_i hreads
      obtain ⟨e, -, heq⟩ := Option.map_eq_some_iff.mp hserved
      cases heq
      rw [Intake.reads] at hreads
      split at hreads
      · cases hreads
      · rename_i P hP
        exact ⟨P, hP, by simpa using (Bool.and_eq_true_iff.mp hreads).1⟩
    · cases hserved
  | callbackReturns k keepRunning =>
    obtain ⟨w, hk, heq⟩ := Option.map_eq_some_iff.mp hserved
    cases heq
    exact h.opened w (List.mem_of_getElem? hk)
  | service event =>
    simp only [Intake.served] at hserved
    split at hserved
    · rename_i hpermits
      cases hserved
      cases hpermits
    · cases hserved
  | broker event => cases hserved

/-- Who waits is there. -/
theorem waitingOf_of_absent {Bytes : Type*} {I : Intake Bytes} {i : ℕ}
    (hopened : ∀ w ∈ I.waiting, ∃ P, I.service.publishers[w.1]? = some P ∧ P.pc = .opened)
    (hnone : I.service.publishers[i]? = none) : I.waitingOf i = [] := by
  refine waitingOf_of_not_waiting ?_
  rw [Bool.eq_false_iff, Ne, isWaiting_iff]
  intro hmem
  obtain ⟨w, hw, rfl⟩ := List.mem_map.mp hmem
  obtain ⟨P, hP, -⟩ := hopened w hw
  rw [hnone] at hP
  cases hP

/-- What has not been made has read nothing. -/
theorem Intake.Attends.absent {Bytes : Type*} {options : PublishServiceOptions} {I : Intake Bytes}
    {tr : List IntakeAction} (h : I.Attends options tr) {i : ℕ}
    (hnone : I.service.publishers[i]? = none) (event : IntakeEvent) :
    I.waitingOf i = [] ∧ finished i (I.served event) = [] := by
  refine ⟨waitingOf_of_absent h.opened hnone, ?_⟩
  unfold finished
  split
  · rename_i j message hserved
    obtain ⟨P, hP, -⟩ := h.served hserved
    split
    · subst j
      rw [hnone] at hP
      cases hP
    · rfl
  · rfl

section Steps

variable {Bytes : Type*} [DecidableEq Bytes] (codec : Codec Bytes)
  (sorting : Sorting Int64 V1.Pick)

/-- What a reader has read it is done with in order, and it waits for the rest. -/
theorem waiting_account {I : Intake Bytes} (honce : (I.waiting.map Prod.fst).Nodup)
    (event : IntakeEvent) (i : ℕ) :
    I.waitingOf i ++ submittedBy i ((intake codec sorting).answer I event) =
      finished i (I.served event) ++ ((intake codec sorting).next I event).waitingOf i := by
  cases event with
  | onReadDone j pick now keepRunning =>
    simp only [Machine.answer, Machine.next, intake, Intake.onReadDone, Intake.served]
    cases hreads : I.reads j with
    | false => simp [finished, submittedBy]
    | true =>
      have hidle := waitingOf_of_not_waiting (not_isWaiting_of_reads hreads)
      rcases thrown_addPickCallback I.broker pick now with
        ⟨-, hoverran, hthrown⟩ | ⟨hinside, hchecked⟩
      · simp [hoverran, hthrown, finished, Intake.waitingOf]
      · cases hthrown : thrown (I.broker.addPickCallback pick now).2 with
        | some e =>
          rw [hthrown] at hchecked
          by_cases hj : j = i
          · subst hj
            rw [Intake.waitingOf] at hidle
            simp [finished, Intake.handle, Intake.waitingOf, hidle, hchecked, Message.handled,
              Except.mapError]
          · simp [finished, Intake.handle, Intake.waitingOf, hj]
        | none =>
          rw [hthrown] at hchecked
          by_cases hj : j = i
          · simp [hinside, finished, Intake.waitingOf, hj, hchecked]
          · simp [hinside, finished, Intake.waitingOf, hj]
  | callbackReturns k keepRunning =>
    simp only [Machine.answer, Machine.next, intake, Intake.callbackReturns, Intake.served]
    cases hk : I.waiting[k]? with
    | none => simp [finished, submittedBy]
    | some w =>
      rw [waitingOf_erase honce hk]
      simp [finished, Intake.handle, Intake.waitingOf, Message.handled, Except.mapError]
  | service event =>
    simp only [Machine.answer, Machine.next, intake, Intake.served]
    cases hpermits : I.permits event with
    | false => simp [finished, submittedBy]
    | true =>
      have hnone : finished i (some event) = [] := by
        cases event with
        | reader j e =>
          cases e with
          | onReadDone event =>
            cases event with
            | ok message => cases hpermits
            | notOk keepRunning => rfl
          | proceed | onDone => rfl
        | publish client_metadata | start | stop | control j => rfl
      simp [hnone, Intake.waitingOf]
  | broker event =>
    simp only [Machine.answer, Machine.next, intake, Intake.served]
    split <;> simp [finished, submittedBy, Intake.waitingOf]

variable {options : PublishServiceOptions} {I : Intake Bytes} {tr : List IntakeAction}

/-- A waiting reader stays open. -/
theorem Intake.Attends.opened_next (h : I.Attends options tr) (event : IntakeEvent) :
    ∀ w ∈ ((intake codec sorting).next I event).waiting,
      ∃ P, ((intake codec sorting).next I event).service.publishers[w.1]? = some P ∧
        P.pc = .opened := by
  intro w hw
  have hbefore : ∃ P, I.service.publishers[w.1]? = some P ∧ P.pc = .opened := by
    rcases intake_waiting codec sorting I event with hsame | hnew | hgone
    · exact h.opened w (hsame ▸ hw)
    · obtain ⟨j, pick, now, keepRunning, rfl, hreads, -, hwaiting⟩ := hnew
      rw [hwaiting] at hw
      rcases List.mem_append.mp hw with hw | hw
      · exact h.opened w hw
      · rw [List.mem_singleton.mp hw]
        rw [Intake.reads] at hreads
        split at hreads
        · cases hreads
        · rename_i P hP
          exact ⟨P, hP, by simpa using (Bool.and_eq_true_iff.mp hreads).1⟩
    · obtain ⟨k, keepRunning, -, hwaiting⟩ := hgone
      rw [hwaiting] at hw
      exact h.opened w (List.mem_of_mem_eraseIdx hw)
  obtain ⟨P, hP, hpc⟩ := hbefore
  rw [intake_service codec sorting]
  cases hserved : I.served event with
  | none => exact ⟨P, hP, hpc⟩
  | some served =>
    obtain ⟨P', hP', ⟨rfl, -⟩ | ⟨e, rfl, rfl⟩⟩ := publisher_next hP served
    · exact ⟨P', hP', hpc⟩
    · rw [served_waiting codec sorting h.once hserved (List.mem_map_of_mem hw)] at hP' ⊢
      refine ⟨_, hP', ?_⟩
      simp only [PublishService.readerStep, PublishService.proceed, hpc]

/-- A step leaves a reader alone, but for what it reads in it. -/
theorem Intake.Attends.alone_next (h : I.Attends options tr) (event : IntakeEvent) {i : ℕ}
    {P P' : Publisher} {registered : Bool} {messages : List (ReadDone V1.Pick)}
    (hi : I.service.publishers[i]? = some P)
    (hP' : ((intake codec sorting).next I event).service.publishers[i]? = some P')
    (halone : ReadsAlone options P registered messages) :
    ∃ registered' messages', ReadsAlone options P' registered' messages' ∧
      picksRead messages' = picksRead messages ++ finished i (I.served event) := by
  rw [intake_service codec sorting] at hP'
  cases hserved : I.served event with
  | none =>
    rw [hserved] at hP'
    dsimp only at hP'
    rw [hi] at hP'
    cases hP'
    exact ⟨registered, messages, halone, by simp [finished]⟩
  | some served =>
    rw [hserved] at hP'
    obtain ⟨Q, hQ, ⟨rfl, hother⟩ | ⟨e, rfl, rfl⟩⟩ := publisher_next hi served
    · rw [hQ] at hP'
      cases hP'
      have hnone : finished i (some served) = [] := by
        unfold finished
        split
        · rename_i j message heq
          cases heq
          rw [if_neg]
          intro hj
          subst j
          exact hother _ rfl
        · rfl
      exact ⟨registered, messages, halone, by rw [hnone, List.append_nil]⟩
    · rw [hQ] at hP'
      cases hP'
      have hread (message : Message V1.Pick) (he : e = .onReadDone (.ok message)) :
          P.pc = .opened := by
        subst he
        obtain ⟨P₀, hP₀, hpc⟩ := h.served hserved
        rw [hi] at hP₀
        cases hP₀
        exact hpc
      obtain ⟨registered', messages', halone', hread'⟩ := halone.step I.service e hread
      exact ⟨registered', messages', halone', hread' i⟩

theorem Intake.Attends.next (h : I.Attends options tr) (event : IntakeEvent) :
    ((intake codec sorting).next I event).Attends options
      (tr ++ (intake codec sorting).answer I event) := by
  have haccount := waiting_account codec sorting h.once event
  have hservice := intake_service codec sorting I event
  have honce := waiting_once codec sorting h.once event
  have hopened := h.opened_next codec sorting event
  have hstep {i : ℕ} {P P' : Publisher} {registered : Bool} {messages : List (ReadDone V1.Pick)}
      (hi : I.service.publishers[i]? = some P)
      (hP' : ((intake codec sorting).next I event).service.publishers[i]? = some P')
      (halone : ReadsAlone options P registered messages) :=
    h.alone_next codec sorting event hi hP' halone
  generalize (intake codec sorting).next I event = I' at *
  generalize (intake codec sorting).answer I event = actions at *
  have hsubmitted (i : ℕ) : submittedBy i (tr ++ actions) =
      submittedBy i tr ++ submittedBy i actions := submittedBy_append i tr actions
  refine ⟨?_, honce, hopened, ?_, ?_⟩
  · rw [hservice]
    cases I.served event with
    | none => exact h.options_same
    | some served => exact (next_options I.service served).trans h.options_same
  · intro i hnone
    have hbefore : I.service.publishers[i]? = none := by
      cases hi : I.service.publishers[i]? with
      | none => rfl
      | some P =>
        rw [hservice] at hnone
        cases hserved : I.served event with
        | none =>
          rw [hserved, hi] at hnone
          cases hnone
        | some served =>
          obtain ⟨P', hP', -⟩ := publisher_next hi served
          rw [hserved] at hnone
          dsimp only at hnone
          rw [hP'] at hnone
          cases hnone
    obtain ⟨hwaiting, hfinished⟩ := h.absent hbefore event
    have hafter : I'.waitingOf i = [] := waitingOf_of_absent hopened hnone
    have hnew := haccount i
    rw [hwaiting, hfinished, hafter] at hnew
    rw [hsubmitted, h.known i hbefore]
    exact hnew
  · intro i P' hP'
    have hpicks := haccount i
    cases hi : I.service.publishers[i]? with
    | none =>
      obtain ⟨hwaiting, hfinished⟩ := h.absent hi event
      cases hserved : I.served event with
      | none =>
        rw [hservice, hserved] at hP'
        dsimp only at hP'
        rw [hi] at hP'
        cases hP'
      | some served =>
        rw [hservice, hserved] at hP'
        obtain ⟨hpc, hreader⟩ := publisher_new hi hP'
        refine ⟨false, [], ⟨?_, fun _ => rfl⟩, ?_⟩
        · rw [hreader, h.options_same]
          rfl
        · rw [hwaiting, hfinished] at hpicks
          rw [hsubmitted, h.known i hi]
          exact hpicks.symm
    | some P =>
      obtain ⟨registered, messages, halone, hdone⟩ := h.alone i P hi
      obtain ⟨registered', messages', halone', hread⟩ := hstep hi hP' halone
      refine ⟨registered', messages', halone', ?_⟩
      rw [hread, List.append_assoc, ← hpicks, ← List.append_assoc, hdone, hsubmitted]

end Steps

/-- What was submitted has the outcome of its checks. -/
theorem checked_of_submittedBy {i : ℕ} {tr : List IntakeAction}
    {entry : V1.Pick × Except Failure Unit} (h : entry ∈ submittedBy i tr) :
    ∃ now, entry.2 = checked entry.1 now := by
  obtain ⟨action, -, heq⟩ := List.mem_filterMap.mp h
  cases action with
  | submitted j pick now =>
    by_cases hj : j = i
    · simp only [hj, if_true, Option.some.injEq] at heq
      exact ⟨now, by rw [← heq]⟩
    · simp [hj] at heq
  | broker action | reader action => cases heq

/-- A session whose messages are accepted or refused by the checks rejects nothing. -/
theorem session_checked (S : Session V1.Pick) {messages : List (ReadDone V1.Pick)}
    (h : ∀ entry ∈ picksRead messages, ∃ now, entry.2 = checked entry.1 now) :
    Counted S.reader (session.final S messages).reader (picksRead messages).length 0 0 := by
  induction messages generalizing S with
  | nil => constructor <;> simp [picksRead]
  | cons event messages ih =>
    have hlater := ih (session.next S event) fun entry hmem =>
      h entry ((List.sublist_cons_self event messages).filterMap _ |>.subset hmem)
    cases event with
    | notOk keepRunning => exact ⟨hlater.total, hlater.rejected, hlater.duplicate⟩
    | ok message =>
      obtain ⟨now, houtcome⟩ := h message.handled (by simp [picksRead])
      have hfirst := counted_next S message
      have hreaction : message.reaction = .accepted ∨ message.reaction = .invalid := by
        rw [Message.reaction]
        rw [Message.handled, checked] at houtcome
        cases hmessage : message.outcome with
        | ok _ => exact Or.inl rfl
        | error e =>
          rw [hmessage] at houtcome
          cases hcheck : checkAndFixPick message.pick now with
          | ok fixed =>
            rw [hcheck] at houtcome
            cases houtcome
          | error failure =>
            rw [hcheck] at houtcome
            obtain rfl := Except.error.inj houtcome
            obtain ⟨what, rfl⟩ := checkAndFixPick_error hcheck
            exact Or.inr rfl
      have hnone : (if message.reaction = .duplicate then 1 else 0) = 0 ∧
          (if message.reaction = .failed then 1 else 0) = 0 := by
        rcases hreaction with h | h <;> simp [h]
      rw [hnone.1, hnone.2] at hfirst
      have hlength : (picksRead (.ok message :: messages)).length =
          1 + (picksRead messages).length := by
        simp [picksRead, Nat.add_comm]
      constructor
      · rw [Machine.final_cons, hlater.total, hfirst.total, hlength, UInt64.ofNat_add,
          UInt64.add_assoc]
      · rw [Machine.final_cons, hlater.rejected, hfirst.rejected]
        simp
      · rw [Machine.final_cons, hlater.duplicate, hfirst.duplicate]
        simp

/-- Whatever the other publishers, the subscribers and the threads of the broker do, and in
whatever order: a reader is where a session of its own would be that had been told its messages and
nothing else. It is done with the picks it has submitted one by one, but for the one it waits for,
and the outcome of each is what the checks alone say of it at the clock reading of its callback. It
counts them all, and tells its publisher of no rejected and no duplicate one. -/
theorem readers_alone {Bytes : Type*} [DecidableEq Bytes] (codec : Codec Bytes)
    (sorting : Sorting Int64 V1.Pick) (options : PublishServiceOptions) (B : Broker Bytes)
    (events : List IntakeEvent) {i : ℕ} {P : Publisher}
    (hi : ((intake codec sorting).final (.new options B) events).service.publishers[i]? = some P) :
    ∃ registered messages,
      P.reader = (session.final (Session.fresh options registered) messages).reader ∧
      picksRead messages ++ ((intake codec sorting).final (.new options B) events).waitingOf i =
        submittedBy i ((intake codec sorting).trace (.new options B) events) ∧
      P.reader.mTotalPicks = UInt64.ofNat (picksRead messages).length ∧
      P.reader.mRejectedPicks = 0 ∧ P.reader.mDuplicatePicks = 0 := by
  have hstart : (Intake.new options B).Attends options [] :=
    ⟨rfl, by simp [Intake.new], by simp [Intake.new], fun _ _ => rfl,
      by simp [Intake.new, PublishService.new]⟩
  have hkeep (I : Intake Bytes) (event : IntakeEvent) (tr : List IntakeAction)
      (h : I.Attends options tr) (_ : True) :
      ((intake codec sorting).next I event).Attends options
        (tr ++ (intake codec sorting).answer I event) := h.next codec sorting event
  have hrun := Machine.invariant_trace _ hkeep hstart (Machine.meets_true _ _ events)
  obtain ⟨registered, messages, halone, hpicks⟩ := hrun.alone i P hi
  have hchecked (entry : V1.Pick × Except Failure Unit) (hentry : entry ∈ picksRead messages) :
      ∃ now, entry.2 = checked entry.1 now :=
    checked_of_submittedBy (hpicks ▸ List.mem_append_left _ hentry)
  have hcounted := session_checked (Session.fresh options registered) hchecked
  rw [← halone.reader] at hcounted
  refine ⟨registered, messages, halone.reader, hpicks, ?_, ?_, ?_⟩
  · simpa [Session.fresh] using hcounted.total
  · simpa [Session.fresh] using hcounted.rejected
  · simpa [Session.fresh] using hcounted.duplicate

/-- Two readers are opened. The first one's message is refused, the second one sends two picks and
waits for the second, and then the first one sends a pick too, which is from the future. -/
def twoPublishers : List IntakeEvent :=
  [.service (.publish []), .service (.publish [])] ++
    List.replicate 4 (.service (.reader 0 .proceed)) ++
    List.replicate 4 (.service (.reader 1 .proceed)) ++
    [.onReadDone 0 {} 0 true, .onReadDone 1 samplePick 0 true, .callbackReturns 0 true,
      .onReadDone 1 samplePick 0 true, .onReadDone 0 samplePick (-1) true]

def refusedTwice : Publisher where
  reader :=
    { mTotalPicks := 2, mInvalidPicks := 2, mInvalidMessageCounter := 2, mRegistered := true }
  pc := .opened

theorem twoPublishers_first :
    ((intake Codec.plain (Sorting.stable Int64 V1.Pick)).final (.new {} freshBroker)
      twoPublishers).service.publishers[0]? = some refusedTwice := rfl

theorem readers_alone_twoReaders :
    ∃ registered messages,
      refusedTwice.reader = (session.final (Session.fresh {} registered) messages).reader ∧
      picksRead messages ++ ((intake Codec.plain (Sorting.stable Int64 V1.Pick)).final
          (.new {} freshBroker) twoPublishers).waitingOf 0 =
        submittedBy 0 ((intake Codec.plain (Sorting.stable Int64 V1.Pick)).trace
          (.new {} freshBroker) twoPublishers) ∧
      refusedTwice.reader.mTotalPicks = UInt64.ofNat (picksRead messages).length ∧
      refusedTwice.reader.mRejectedPicks = 0 ∧ refusedTwice.reader.mDuplicatePicks = 0 :=
  readers_alone Codec.plain (Sorting.stable Int64 V1.Pick) {} freshBroker twoPublishers
    twoPublishers_first

end PickBroker
