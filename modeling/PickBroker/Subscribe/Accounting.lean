import PickBroker.Subscribe.SubscribeService
import PickBroker.Store.Operations
import PickBroker.Framework.Counting
import Mathlib.Algebra.Group.Nat.Defs

namespace PickBroker

open Framework

variable {Pick : Type*}

/-- No constructor is between its limit check and the count. -/
def AtRest (S : SubscribeService Pick) : Prop := ∀ R ∈ S.reactors, R.writer.pc.admitting = false

/-- Both counts of the service are the number of connected subscribers. -/
structure Accounted (S : SubscribeService Pick) : Prop where
  count : S.shared.mSubscriberCount.toInt = S.connected
  store : S.shared.mPickStore.getNumberOfSubscribers = S.shared.mSubscriberCount

/-- The next step of the writer takes a rejection branch. -/
def rejects (shared : Shared Pick) (w : AsynchronousWriter Pick) (readings : Readings) : Bool :=
  match w.pc with
  | .checkLimit => w.connection.limitReached shared.mSubscriberCount
  | .authenticate => w.connection.unauthorized
  | .trySubscribe => !(w.trySubscribe shared.mPickStore readings).isOk
  | _ => false

/-- No client is rejected, no registered one disconnects, and the count stays in its type. -/
def KeepsAccount (S : SubscribeService Pick) : ServiceEvent Pick → Prop
  | .streamSince _ _ _ => True
  | .reactor i (.proceed readings) => ∀ R ∈ S.reactors[i]?,
      rejects S.shared R.writer readings = false ∧
      (R.writer.pc = .fetchAdd → S.shared.mSubscriberCount ≠ Int32.maxValue)
  | .reactor _ (.onWriteDone _ _ _) => True
  | .reactor i .onCancel => ∀ R ∈ S.reactors[i]?, R.writer.mRegistered = false
  | .reactor i .onDone => ∀ R ∈ S.reactors[i]?, R.writer.mRegistered = false
  | .enqueue _ _ _ => True

instance (S : SubscribeService Pick) : Decidable (AtRest S) :=
  inferInstanceAs (Decidable (∀ R ∈ S.reactors, R.writer.pc.admitting = false))

instance (S : SubscribeService Pick) (event : ServiceEvent Pick) :
    Decidable (KeepsAccount S event) :=
  match event with
  | .streamSince _ _ _ | .enqueue _ _ _ | .reactor _ (.onWriteDone _ _ _) => .isTrue trivial
  | .reactor i (.proceed readings) => inferInstanceAs (Decidable (∀ R ∈ S.reactors[i]?,
      rejects S.shared R.writer readings = false ∧
        (R.writer.pc = .fetchAdd → S.shared.mSubscriberCount ≠ Int32.maxValue)))
  | .reactor i .onCancel | .reactor i .onDone =>
    inferInstanceAs (Decidable (∀ R ∈ S.reactors[i]?, R.writer.mRegistered = false))

namespace Reactor

/-- The store holds a cursor for the writer. -/
def subscribed (R : Reactor Pick) : Bool :=
  R.writer.pc = .fetchAdd || !R.writer.pc.admitting

/-- Admitted so far and still there. -/
structure Alive (R : Reactor Pick) : Prop where
  pc : R.writer.pc ≠ .deleted
  rejected : R.rejected = false
  disconnected : R.disconnected = false
  registered : R.writer.mRegistered = !R.writer.pc.admitting

theorem Alive.connected_eq {R : Reactor Pick} (h : R.Alive) :
    R.connected = !R.writer.pc.admitting := by
  simp [connected, h.rejected, h.disconnected]

end Reactor

/-- The invariant: the count is the number of registered writers, and the cursor map holds just
the addresses of those that have subscribed. -/
structure Balanced (S : SubscribeService Pick) : Prop where
  addresses : (S.reactors.map fun R => R.writer.mContextAddress).Nodup
  alive : ∀ R ∈ S.reactors, R.Alive
  count : S.shared.mSubscriberCount.toInt = S.connected
  size : S.shared.mPickStore.mCursorMap.size = S.reactors.countP Reactor.subscribed
  cursors : ∀ a ∈ S.shared.mPickStore.mCursorMap,
    ∃ R ∈ S.reactors, R.writer.mContextAddress = a ∧ R.subscribed

theorem toInt32_add_one {a : Int32} (h : a ≠ Int32.maxValue) : (a + 1).toInt = a.toInt + 1 := by
  have hne : a.toInt ≠ 2 ^ 31 - 1 := by
    rw [← Int32.toInt_maxValue]
    exact fun he => h (Int32.toInt_inj.mp he)
  have hlt := a.toInt_lt
  have hle := a.le_toInt
  rw [Int32.toInt_add, show (1 : Int32).toInt = 1 from rfl]
  exact Int.bmod_eq_of_le (by omega) (by omega)

section Store

theorem enqueue_subscribers (sorting : Sorting Int64 Pick) (s : PickStore Pick) (r : Int64)
    (pick : Pick) (now : Int64) :
    (s.enqueue sorting r pick now).mCursorMap.size = s.mCursorMap.size ∧
      ∀ a ∈ (s.enqueue sorting r pick now).mCursorMap, a ∈ s.mCursorMap := by
  have h : (s.cleanDequeAt now).mCursorMap = s.mCursorMap := PickStore.cleanDeque_mCursorMap _ _
  simp only [PickStore.enqueue, h]
  constructor
  · exact Std.ExtTreeMap.size_map
  · intro a ha
    exact Std.ExtTreeMap.mem_of_mem_map ha

/-- Reading moves a cursor but neither adds nor removes one. -/
theorem getPicks_subscribers {s s' : PickStore Pick} {a : UInt64} {n : ℤ} {result : List Pick}
    (h : s.getPicks a n = .ok (result, s')) :
    s'.mCursorMap.size = s.mCursorMap.size ∧ ∀ b ∈ s'.mCursorMap, b ∈ s.mCursorMap := by
  have hsame : s'.mCursorMap = s.mCursorMap ∨
      a ∈ s.mCursorMap ∧ ∃ c, s'.mCursorMap = s.mCursorMap.insert a c := by
    rw [PickStore.getPicks] at h
    split at h
    · cases h
    · split at h
      · cases h
        exact Or.inl rfl
      · rename_i cursor hc
        dsimp only at h
        split at h
        · cases h
          exact Or.inl rfl
        · cases h
          exact Or.inr ⟨Std.ExtTreeMap.mem_iff_isSome_getElem?.mpr (by simp [hc]), _, rfl⟩
  rcases hsame with heq | ⟨ha, c, heq⟩
  · rw [heq]
    exact ⟨rfl, fun _ hb => hb⟩
  · rw [heq]
    refine ⟨?_, ?_⟩
    · rw [Std.ExtTreeMap.size_insert, if_pos (Std.ExtTreeMap.mem_iff_contains.mp ha)]
    · intro b hb
      rcases Std.ExtTreeMap.mem_insert.mp hb with hab | hb
      · rwa [← Std.LawfulEqCmp.eq_of_compare hab]
      · exact hb

theorem trySubscribe_ok {w : AsynchronousWriter Pick} {s s' : PickStore Pick}
    {readings : Readings} (h : w.trySubscribe s readings = .ok s') :
    ∃ c, s' = { s with mCursorMap := s.mCursorMap.insert w.mContextAddress c } := by
  rw [AsynchronousWriter.trySubscribe] at h
  split at h
  · cases h
  · split at h
    · rw [PickStore.subscribeSince] at h
      split at h
      · cases h
      · exact ⟨_, (Except.ok.inj h).symm⟩
    · exact ⟨_, (Except.ok.inj h).symm⟩

end Store

/-- One writer makes a step: what it adds to the counts is what it adds to the numbers of
connected and of subscribed writers. -/
theorem Balanced.set {S : SubscribeService Pick} (h : Balanced S) {i : ℕ} {R R' : Reactor Pick}
    (hi : S.reactors[i]? = some R) (halive : R'.Alive)
    (haddress : R'.writer.mContextAddress = R.writer.mContextAddress) {shared : Shared Pick}
    (hcount : shared.mSubscriberCount.toInt =
      S.shared.mSubscriberCount.toInt - (if R.connected then 1 else 0) +
        if R'.connected then 1 else 0)
    (hsize : shared.mPickStore.mCursorMap.size =
      S.shared.mPickStore.mCursorMap.size - (if R.subscribed then 1 else 0) +
        if R'.subscribed then 1 else 0)
    (hcursors : ∀ a ∈ shared.mPickStore.mCursorMap, a ∈ S.shared.mPickStore.mCursorMap ∨
      a = R.writer.mContextAddress ∧ R'.subscribed)
    (hstay : R.subscribed → R'.subscribed) :
    Balanced { S with shared := shared, reactors := S.reactors.set i R' } := by
  obtain ⟨hlt, hget⟩ := List.getElem?_eq_some_iff.mp hi
  have hmem' : R' ∈ S.reactors.set i R' := mem_set_self hi R'
  refine ⟨?_, ?_, ?_, ?_, ?_⟩
  · have hsame : (S.reactors.set i R').map (fun R => R.writer.mContextAddress) =
        S.reactors.map fun R => R.writer.mContextAddress := map_set_eq hi haddress
    rw [hsame]
    exact h.addresses
  · intro Q hQ
    rcases List.mem_or_eq_of_mem_set hQ with hQ | rfl
    · exact h.alive Q hQ
    · exact halive
  · have hmoved := countP_set_add (p := Reactor.connected) hi R'
    have hc := h.count
    simp only [SubscribeService.connected] at hc ⊢
    rw [hcount, hc]
    revert hmoved
    cases R.connected <;> cases R'.connected <;> simp <;> omega
  · rw [hsize, h.size, List.countP_set hlt, hget]
  · intro a ha
    rcases hcursors a ha with hold | ⟨rfl, hsub⟩
    · obtain ⟨Q, hQ, haddr, hsub⟩ := h.cursors a hold
      rcases eq_or_mem_set hi hQ R' with rfl | hkept
      · exact ⟨R', hmem', haddress.trans haddr, hstay hsub⟩
      · exact ⟨Q, hkept, haddr, hsub⟩
    · exact ⟨R', hmem', haddress, hsub⟩

/-- A step that stays on one side of the subscription and of the count, and leaves the store's
subscribers alone. -/
theorem Balanced.quiet {S : SubscribeService Pick} (h : Balanced S) {i : ℕ} {R R' : Reactor Pick}
    (hi : S.reactors[i]? = some R) (halive : R'.Alive)
    (haddress : R'.writer.mContextAddress = R.writer.mContextAddress) {shared : Shared Pick}
    (hcount : shared.mSubscriberCount = S.shared.mSubscriberCount)
    (hsize : shared.mPickStore.mCursorMap.size = S.shared.mPickStore.mCursorMap.size)
    (hcursors : ∀ a ∈ shared.mPickStore.mCursorMap, a ∈ S.shared.mPickStore.mCursorMap)
    (hconnected : R'.connected = R.connected) (hsubscribed : R'.subscribed = R.subscribed) :
    Balanced { S with shared := shared, reactors := S.reactors.set i R' } := by
  have hmem : R ∈ S.reactors := List.mem_of_getElem? hi
  apply h.set hi halive haddress
  · rw [hcount, hconnected]
    omega
  · have hle : (if R.subscribed then 1 else 0) ≤ S.shared.mPickStore.mCursorMap.size := by
      rw [h.size]
      exact ite_le_countP hmem
    rw [hsize, hsubscribed]
    omega
  · exact fun a ha => Or.inl (hcursors a ha)
  · exact fun hs => hsubscribed ▸ hs

section React

variable {S : SubscribeService Pick} {i : ℕ} {R : Reactor Pick}

/-- The limit check and the token check only move on. -/
theorem Balanced.check (h : Balanced S) (hi : S.reactors[i]? = some R) {pc : Pc}
    (hfrom : R.writer.pc = .checkLimit ∨ R.writer.pc = .authenticate)
    (hto : pc = .authenticate ∨ pc = .trySubscribe) :
    Balanced { S with reactors := S.reactors.set i { R with writer.pc := pc } } := by
  have halive := h.alive R (List.mem_of_getElem? hi)
  have hold : R.writer.pc.admitting = true ∧ R.writer.pc ≠ .fetchAdd := by
    rcases hfrom with hpc | hpc <;> simp [hpc, Pc.admitting]
  have hnew : pc.admitting = true ∧ pc ≠ .fetchAdd ∧ pc ≠ .deleted := by
    rcases hto with rfl | rfl <;> simp [Pc.admitting]
  apply h.quiet hi
  · refine ⟨hnew.2.2, halive.rejected, halive.disconnected, ?_⟩
    rw [hnew.1, ← hold.1]
    exact halive.registered
  · rfl
  · rfl
  · rfl
  · exact fun _ ha => ha
  · simp [Reactor.connected, hold.1, hnew.1]
  · simp [Reactor.subscribed, hold, hnew]

theorem Balanced.subscribe (h : Balanced S) (hi : S.reactors[i]? = some R)
    (hpc : R.writer.pc = .trySubscribe) (c : Int64) :
    Balanced { S with
      shared := { S.shared with mPickStore := { S.shared.mPickStore with
        mCursorMap := S.shared.mPickStore.mCursorMap.insert R.writer.mContextAddress c } }
      reactors := S.reactors.set i { R with writer.pc := .fetchAdd } } := by
  have hmem : R ∈ S.reactors := List.mem_of_getElem? hi
  have halive := h.alive R hmem
  have hfresh : R.writer.mContextAddress ∉ S.shared.mPickStore.mCursorMap := by
    intro ha
    obtain ⟨Q, hQ, haddr, hsub⟩ := h.cursors _ ha
    have hQR : Q = R := List.inj_on_of_nodup_map h.addresses hQ hmem haddr
    rw [hQR, Reactor.subscribed, hpc] at hsub
    cases hsub
  apply h.set hi
  · refine ⟨by simp, halive.rejected, halive.disconnected, ?_⟩
    simpa [hpc, Pc.admitting] using halive.registered
  · rfl
  · simp [Reactor.connected, hpc, Pc.admitting]
  · have hcontains : S.shared.mPickStore.mCursorMap.contains R.writer.mContextAddress = false := by
      rw [← Bool.not_eq_true]
      exact fun hc => hfresh (Std.ExtTreeMap.mem_iff_contains.mpr hc)
    rw [Std.ExtTreeMap.size_insert, hcontains]
    simp [Reactor.subscribed, hpc, Pc.admitting]
  · intro a ha
    rcases Std.ExtTreeMap.mem_insert.mp ha with hab | ha
    · exact Or.inr ⟨(Std.LawfulEqCmp.eq_of_compare hab).symm, rfl⟩
    · exact Or.inl ha
  · exact fun _ => rfl

theorem Balanced.fetchAdd (h : Balanced S) (hi : S.reactors[i]? = some R)
    (hpc : R.writer.pc = .fetchAdd) (hmax : S.shared.mSubscriberCount ≠ Int32.maxValue) :
    Balanced { S with
      shared := { S.shared with mSubscriberCount := S.shared.mSubscriberCount + 1 }
      reactors := S.reactors.set i { R with
        writer := { R.writer with
          mRegistered := true
          mWriteInProgress := false
          pc := .nextWrite } } } := by
  have halive := h.alive R (List.mem_of_getElem? hi)
  apply h.set hi
  · exact ⟨by simp, halive.rejected, halive.disconnected, rfl⟩
  · rfl
  · rw [toInt32_add_one hmax]
    simp [Reactor.connected, hpc, Pc.admitting, halive.rejected, halive.disconnected]
  · have hpos : 1 ≤ S.shared.mPickStore.mCursorMap.size := by
      rw [h.size]
      exact List.countP_pos_iff.mpr ⟨R, List.mem_of_getElem? hi, by simp [Reactor.subscribed, hpc]⟩
    simp [Reactor.subscribed, hpc, Pc.admitting]
    omega
  · exact fun a ha => Or.inl ha
  · exact fun _ => rfl

/-- A writer past its admission stays there, whatever it writes. -/
theorem Balanced.stream (h : Balanced S) (hi : S.reactors[i]? = some R)
    (hpc : R.writer.pc.admitting = false) {shared : Shared Pick} {w : AsynchronousWriter Pick}
    (hw : w.pc = R.writer.pc ∨ w.pc = .nextWrite ∨ w.pc = .idle)
    (hconnection : w.connection = R.writer.connection)
    (hregistered : w.mRegistered = R.writer.mRegistered)
    (hcount : shared.mSubscriberCount = S.shared.mSubscriberCount)
    (hsize : shared.mPickStore.mCursorMap.size = S.shared.mPickStore.mCursorMap.size)
    (hcursors : ∀ a ∈ shared.mPickStore.mCursorMap, a ∈ S.shared.mPickStore.mCursorMap) :
    Balanced { S with shared := shared, reactors := S.reactors.set i { R with writer := w } } := by
  have halive := h.alive R (List.mem_of_getElem? hi)
  have hnew : w.pc.admitting = false ∧ w.pc ≠ .deleted := by
    rcases hw with hw | hw | hw
    · rw [hw]
      exact ⟨hpc, halive.pc⟩
    · simp [hw, Pc.admitting]
    · simp [hw, Pc.admitting]
  refine h.quiet hi ?_ ?_ hcount hsize hcursors ?_ ?_
  · refine ⟨hnew.2, halive.rejected, halive.disconnected, ?_⟩
    rw [hregistered, halive.registered, hpc, hnew.1]
  · exact congrArg Connection.contextAddress hconnection
  · simp [Reactor.connected, hpc, hnew.1]
  · simp [Reactor.subscribed, hpc, hnew.1]

theorem react_eq {event : WriterEvent} {shared : Shared Pick} {w : AsynchronousWriter Pick}
    {actions : List (WriterAction Pick)} (hi : S.reactors[i]? = some R)
    (hstep : R.writer.step S.shared event = (shared, w, actions))
    (hquiet : (R.writer.pc.admitting && actions.any WriterAction.isFinish) = false)
    (hstay : event.disconnects = false) :
    (S.react i event).1 =
      { S with shared := shared, reactors := S.reactors.set i { R with writer := w } } := by
  simp [SubscribeService.react, hi, Reactor.step, hstep, hquiet, hstay]

theorem Balanced.nextWrite (h : Balanced S) (hi : S.reactors[i]? = some R)
    (hpc : R.writer.pc = .nextWrite) (readings : Readings) :
    Balanced (S.react i (.proceed readings)).1 := by
  have hadmitted : R.writer.pc.admitting = false := by simp [hpc, Pc.admitting]
  cases hstep : R.writer.step S.shared (.proceed readings) with
  | mk shared result =>
    obtain ⟨w, actions⟩ := result
    rw [react_eq hi hstep (by simp [hadmitted]) rfl]
    simp only [AsynchronousWriter.step, AsynchronousWriter.proceed, hpc,
      AsynchronousWriter.nextWrite] at hstep
    split at hstep
    · split at hstep
      · split at hstep <;> cases hstep <;>
          exact h.stream hi hadmitted (by simp) rfl rfl rfl rfl fun _ ha => ha
      · split at hstep
        · rename_i newPicks store hpicks
          obtain ⟨hsize, hcursors⟩ := getPicks_subscribers hpicks
          cases hstep
          exact h.stream hi hadmitted (by simp) rfl rfl rfl hsize hcursors
        · cases hstep
          exact h.stream hi hadmitted (by simp) rfl rfl rfl rfl fun _ ha => ha
    · cases hstep
      exact h.stream hi hadmitted (by simp) rfl rfl rfl rfl fun _ ha => ha

/-- A step of the writer's own thread that rejects nobody. -/
theorem Balanced.proceed (h : Balanced S) (hi : S.reactors[i]? = some R) {readings : Readings}
    (haccepts : rejects S.shared R.writer readings = false)
    (hmax : R.writer.pc = .fetchAdd → S.shared.mSubscriberCount ≠ Int32.maxValue) :
    Balanced (S.react i (.proceed readings)).1 := by
  cases hpc : R.writer.pc with
  | checkLimit =>
    have hlimit : R.writer.connection.limitReached S.shared.mSubscriberCount = false := by
      simpa [rejects, hpc] using haccepts
    rw [react_eq hi (by rw [AsynchronousWriter.step, AsynchronousWriter.proceed, hpc, hlimit])
      (by simp) rfl]
    exact h.check hi (Or.inl hpc) (Or.inl rfl)
  | authenticate =>
    have hauth : R.writer.connection.unauthorized = false := by
      simpa [rejects, hpc] using haccepts
    rw [react_eq hi (by rw [AsynchronousWriter.step, AsynchronousWriter.proceed, hpc, hauth])
      (by simp) rfl]
    exact h.check hi (Or.inr hpc) (Or.inr rfl)
  | trySubscribe =>
    cases hsub : R.writer.trySubscribe S.shared.mPickStore readings with
    | error e => simp [rejects, hpc, hsub, Except.isOk, Except.toBool] at haccepts
    | ok store =>
      obtain ⟨c, rfl⟩ := trySubscribe_ok hsub
      rw [react_eq hi (by rw [AsynchronousWriter.step, AsynchronousWriter.proceed, hpc, hsub])
        (by simp [WriterAction.isFinish]) rfl]
      exact h.subscribe hi hpc c
  | fetchAdd =>
    rw [react_eq hi (by rw [AsynchronousWriter.step, AsynchronousWriter.proceed, hpc])
      (by simp [WriterAction.isFinish]) rfl]
    exact h.fetchAdd hi hpc (hmax hpc)
  | nextWrite => exact h.nextWrite hi hpc readings
  | idle =>
    rw [react_eq hi (by rw [AsynchronousWriter.step, AsynchronousWriter.proceed, hpc])
      (by simp) rfl]
    exact h.stream hi (by simp [hpc, Pc.admitting]) (by simp) rfl rfl rfl rfl fun _ ha => ha
  | deleted => exact absurd hpc (h.alive R (List.mem_of_getElem? hi)).pc

end React

theorem Balanced.connect {S : SubscribeService Pick} (h : Balanced S) {contextAddress : UInt64}
    (request : StreamSinceRequest) (client_metadata : List (String × String))
    (hpromised : ∀ R ∈ S.reactors, R.writer.pc ≠ .deleted →
      R.writer.mContextAddress ≠ contextAddress) :
    Balanced (S.connect contextAddress request client_metadata) := by
  refine ⟨?_, ?_, ?_, ?_, ?_⟩
  · simp only [SubscribeService.connect, List.map_append, List.map_cons, List.map_nil]
    apply List.nodup_append.mpr
    refine ⟨h.addresses, List.nodup_singleton _, ?_⟩
    intro a ha b hb
    obtain ⟨R, hR, rfl⟩ := List.mem_map.mp ha
    rw [List.mem_singleton.mp hb]
    exact hpromised R hR (h.alive R hR).pc
  · intro R hR
    rcases List.mem_append.mp hR with hR | hR
    · exact h.alive R hR
    · rw [List.mem_singleton.mp hR]
      exact ⟨by simp, rfl, rfl, rfl⟩
  · have hc := h.count
    simp only [SubscribeService.connected, SubscribeService.connect, List.countP_append] at hc ⊢
    rw [hc]
    rfl
  · have hs := h.size
    simp only [SubscribeService.connect, List.countP_append] at hs ⊢
    rw [hs]
    rfl
  · intro a ha
    obtain ⟨R, hR, haddress, hsub⟩ := h.cursors a ha
    exact ⟨R, List.mem_append_left _ hR, haddress, hsub⟩

theorem Balanced.enqueue {S : SubscribeService Pick} (h : Balanced S)
    (sorting : Sorting Int64 Pick) (r : Int64) (pick : Pick) (now : Int64) :
    Balanced (S.enqueue sorting r pick now) := by
  obtain ⟨hsize, hcursors⟩ := enqueue_subscribers sorting S.shared.mPickStore r pick now
  exact ⟨h.addresses, h.alive, h.count, hsize.trans h.size,
    fun a ha => h.cursors a (hcursors a ha)⟩

theorem balanced_step (sorting : Sorting Int64 Pick) {S : SubscribeService Pick}
    {event : ServiceEvent Pick} (h : Balanced S) (hpromised : Promised S event)
    (hkeeps : KeepsAccount S event) : Balanced ((subscribeService sorting).next S event) := by
  cases event with
  | streamSince contextAddress request client_metadata =>
    exact h.connect request client_metadata hpromised
  | enqueue r pick now => exact h.enqueue sorting r pick now
  | reactor i event =>
    change Balanced (S.react i event).1
    cases hi : S.reactors[i]? with
    | none =>
      rw [SubscribeService.react, hi]
      exact h
    | some R =>
      have hregistered := (h.alive R (List.mem_of_getElem? hi)).registered
      cases event with
      | proceed readings =>
        obtain ⟨haccepts, hmax⟩ := hkeeps R hi
        exact h.proceed hi haccepts hmax
      | onWriteDone ok keepRunning cancelled =>
        have hadmitted : R.writer.pc.admitting = false := hpromised R hi
        cases hstep : R.writer.step S.shared (.onWriteDone ok keepRunning cancelled) with
        | mk shared result =>
          obtain ⟨w, actions⟩ := result
          rw [react_eq hi hstep (by simp [hadmitted]) rfl]
          simp only [AsynchronousWriter.step, AsynchronousWriter.onWriteDone] at hstep
          split at hstep
          · cases hstep
            exact h.stream hi hadmitted (by simp) rfl rfl rfl rfl fun _ ha => ha
          · split at hstep <;> cases hstep <;>
              exact h.stream hi hadmitted (by simp) rfl rfl rfl rfl fun _ ha => ha
      | onCancel =>
        rw [hkeeps R hi, hpromised R hi] at hregistered
        cases hregistered
      | onDone =>
        rw [hkeeps R hi, hpromised R hi] at hregistered
        cases hregistered

theorem started_balanced (sorting : Sorting Int64 Pick) (start : Construction Pick)
    (options : SubscribeServiceOptions) (isSecured : Bool) :
    Balanced (SubscribeService.started sorting start options isSecured) := by
  have hempty : (start.build sorting).mCursorMap = ({} : Std.ExtTreeMap UInt64 Int64) :=
    build_mCursorMap start
  refine ⟨List.nodup_nil, by simp [SubscribeService.started], rfl, ?_, ?_⟩
  · rw [SubscribeService.started, hempty]
    rfl
  · rw [SubscribeService.started, hempty]
    simp

theorem Balanced.accounted {S : SubscribeService Pick} (h : Balanced S) (hrest : AtRest S) :
    Accounted S := by
  have hsame : S.reactors.countP Reactor.subscribed = S.connected := by
    apply List.countP_congr
    intro R hR
    rw [(h.alive R hR).connected_eq, Reactor.subscribed, hrest R hR]
    simp
  refine ⟨h.count, ?_⟩
  rw [PickStore.getNumberOfSubscribers, h.size, hsame, ← Int32.ofInt_eq_ofNat, ← h.count,
    Int32.ofInt_toInt]

/-- In every run in which no client is rejected and no registered subscriber disconnects, the
counts are right whenever no constructor is under way, and a limit check that refuses a client
finds as many subscribers connected as are allowed. -/
theorem subscribers_accounted (sorting : Sorting Int64 Pick) (start : Construction Pick)
    (options : SubscribeServiceOptions) (isSecured : Bool) (events : List (ServiceEvent Pick))
    (hpromised : (subscribeService sorting).Meets Promised
      (SubscribeService.started sorting start options isSecured) events)
    (hkeeps : (subscribeService sorting).Meets KeepsAccount
      (SubscribeService.started sorting start options isSecured) events) :
    let S := (subscribeService sorting).final
      (SubscribeService.started sorting start options isSecured) events
    (AtRest S → Accounted S) ∧
      ∀ R ∈ S.reactors, R.writer.connection.limitReached S.shared.mSubscriberCount →
        R.writer.connection.options.mMaximumNumberOfSubscribers.toInt ≤ S.connected := by
  have keep (S : SubscribeService Pick) (event : ServiceEvent Pick) (h : Balanced S)
      (hok : Promised S event ∧ KeepsAccount S event) :
      Balanced ((subscribeService sorting).next S event) := balanced_step sorting h hok.1 hok.2
  have hok := (Machine.meets_and (subscribeService sorting) Promised KeepsAccount _ events).mpr
    ⟨hpromised, hkeeps⟩
  have hbalanced := Machine.invariant _ keep (started_balanced sorting start options isSecured) hok
  refine ⟨hbalanced.accounted, ?_⟩
  intro R _ hlimit
  rw [← hbalanced.count]
  exact Int32.le_iff_toInt_le.mp (by simpa [Connection.limitReached] using hlimit)

section Leak

/-- A writer adds one to the count when it leaves its admission, and never takes it back. -/
theorem writer_step_count {shared shared' : Shared Pick} {w w' : AsynchronousWriter Pick}
    {event : WriterEvent} {actions : List (WriterAction Pick)}
    (hstep : w.step shared event = (shared', w', actions))
    (hpromised : (∀ readings, event ≠ .proceed readings) → w.pc.admitting = false) :
    (w'.pc.admitting = w.pc.admitting ∧ shared'.mSubscriberCount = shared.mSubscriberCount) ∨
      (w.pc.admitting = true ∧ w'.pc.admitting = false ∧
        shared'.mSubscriberCount = shared.mSubscriberCount + 1) := by
  cases event with
  | proceed readings =>
    cases hpc : w.pc with
    | checkLimit | authenticate =>
      rw [AsynchronousWriter.step, AsynchronousWriter.proceed, hpc] at hstep
      cases hstep
      exact Or.inl ⟨rfl, rfl⟩
    | trySubscribe =>
      rw [AsynchronousWriter.step, AsynchronousWriter.proceed, hpc] at hstep
      dsimp only at hstep
      split at hstep <;> cases hstep <;> exact Or.inl ⟨rfl, rfl⟩
    | fetchAdd =>
      rw [AsynchronousWriter.step, AsynchronousWriter.proceed, hpc] at hstep
      cases hstep
      exact Or.inr ⟨rfl, rfl, rfl⟩
    | nextWrite =>
      simp only [AsynchronousWriter.step, AsynchronousWriter.proceed, hpc,
        AsynchronousWriter.nextWrite] at hstep
      left
      split at hstep
      · split at hstep
        · split at hstep <;> cases hstep <;> simp [hpc, Pc.admitting]
        · split at hstep <;> cases hstep <;> simp [hpc, Pc.admitting]
      · cases hstep
        simp [Pc.admitting]
    | idle | deleted =>
      rw [AsynchronousWriter.step, AsynchronousWriter.proceed, hpc] at hstep
      cases hstep
      exact Or.inl ⟨by rw [hpc], rfl⟩
  | onWriteDone ok keepRunning cancelled =>
    have hadmitted := hpromised (by simp)
    left
    simp only [AsynchronousWriter.step, AsynchronousWriter.onWriteDone] at hstep
    split at hstep
    · cases hstep
      exact ⟨rfl, rfl⟩
    · split at hstep
      · cases hstep
        exact ⟨rfl, rfl⟩
      · cases hstep
        exact ⟨hadmitted.symm, rfl⟩
  | onCancel =>
    left
    simp only [AsynchronousWriter.step, AsynchronousWriter.onCancel,
      AsynchronousWriter.disconnect] at hstep
    split at hstep <;> cases hstep <;> exact ⟨rfl, rfl⟩
  | onDone =>
    have hadmitted := hpromised (by simp)
    left
    simp only [AsynchronousWriter.step, AsynchronousWriter.onDone,
      AsynchronousWriter.disconnect] at hstep
    split at hstep <;> cases hstep <;> exact ⟨hadmitted.symm, rfl⟩

/-- Whose constructor has counted it, whatever has become of it since. -/
def Reactor.counted (R : Reactor Pick) : Bool := !R.writer.pc.admitting

theorem count_next (sorting : Sorting Int64 Pick) {S : SubscribeService Pick}
    (event : ServiceEvent Pick) (hpromised : Promised S event)
    (h : S.shared.mSubscriberCount = Int32.ofNat (S.reactors.countP Reactor.counted)) :
    ((subscribeService sorting).next S event).shared.mSubscriberCount =
      Int32.ofNat (((subscribeService sorting).next S event).reactors.countP Reactor.counted) := by
  cases event with
  | streamSince contextAddress request client_metadata =>
    change S.shared.mSubscriberCount = Int32.ofNat ((S.reactors ++ _).countP Reactor.counted)
    rw [List.countP_append, h]
    rfl
  | enqueue r pick now => exact h
  | reactor i event =>
    change (S.react i event).1.shared.mSubscriberCount =
      Int32.ofNat ((S.react i event).1.reactors.countP Reactor.counted)
    rw [SubscribeService.react]
    cases hi : S.reactors[i]? with
    | none => exact h
    | some R =>
      obtain ⟨hlt, hget⟩ := List.getElem?_eq_some_iff.mp hi
      cases hstep : R.writer.step S.shared event with
      | mk shared result =>
        obtain ⟨w, actions⟩ := result
        have hcount := writer_step_count hstep fun hne => by
          cases event with
          | proceed readings => exact absurd rfl (hne readings)
          | onWriteDone ok keepRunning cancelled => exact hpromised R hi
          | onCancel => exact hpromised R hi
          | onDone => exact hpromised R hi
        simp only [Reactor.step, hstep, List.countP_set hlt, hget]
        generalize hR' : Reactor.mk w _ _ = R'
        have hcounted : R'.counted = !w.pc.admitting := by rw [← hR', Reactor.counted]
        rcases hcount with ⟨hpc, hcount⟩ | ⟨hold, hnew, hcount⟩
        · have hsame : R'.counted = R.counted := by rw [hcounted, hpc, Reactor.counted]
          have hle : (if R.counted then 1 else 0) ≤ S.reactors.countP Reactor.counted :=
            ite_le_countP (List.mem_of_getElem? hi)
          rw [hcount, h, hsame, Nat.sub_add_cancel hle]
        · have hR : R.counted = false := by rw [Reactor.counted, hold]; rfl
          rw [hcount, h, hcounted, hnew, hR]
          exact (Int32.ofNat_add _ 1).symm

/-- The count is how many clients were ever counted. -/
theorem count_final (sorting : Sorting Int64 Pick) (start : Construction Pick)
    (options : SubscribeServiceOptions) (isSecured : Bool) (events : List (ServiceEvent Pick))
    (hpromised : (subscribeService sorting).Meets Promised
      (SubscribeService.started sorting start options isSecured) events) :
    let S := (subscribeService sorting).final
      (SubscribeService.started sorting start options isSecured) events
    S.shared.mSubscriberCount = Int32.ofNat (S.reactors.countP Reactor.counted) := by
  have keep (S : SubscribeService Pick) (event : ServiceEvent Pick)
      (h : S.shared.mSubscriberCount = Int32.ofNat (S.reactors.countP Reactor.counted))
      (hok : Promised S event) :
      ((subscribeService sorting).next S event).shared.mSubscriberCount =
        Int32.ofNat (((subscribeService sorting).next S event).reactors.countP Reactor.counted) :=
    count_next sorting event hok h
  exact Machine.invariant _ keep rfl hpromised

/-- The condition is exact: a counted client that was rejected, or that has gone, is one too many
in the count, in whatever state it is found. -/
theorem count_leaks {S : SubscribeService Pick}
    (h : S.shared.mSubscriberCount = Int32.ofNat (S.reactors.countP Reactor.counted))
    (hfew : S.reactors.length < 2 ^ 31) {R : Reactor Pick} (hR : R ∈ S.reactors)
    (hcounted : R.counted) (hgone : R.rejected ∨ R.disconnected) :
    S.connected < S.shared.mSubscriberCount.toInt := by
  have hlt : S.reactors.countP Reactor.counted < 2 ^ 31 :=
    List.countP_le_length.trans_lt hfew
  rw [h, Int32.toInt_ofNat_of_lt hlt, SubscribeService.connected]
  have hsplit := List.countP_eq_countP_filter_add S.reactors Reactor.counted Reactor.connected
  have hconnected : (S.reactors.filter Reactor.connected).countP Reactor.counted =
      S.reactors.countP Reactor.connected := by
    rw [List.countP_filter]
    apply List.countP_congr
    intro Q _
    simp only [Reactor.counted, Reactor.connected, Bool.and_eq_true]
    tauto
  have hone : 1 ≤ (S.reactors.filter fun Q => !Q.connected).countP Reactor.counted := by
    apply List.countP_pos_iff.mpr
    refine ⟨R, List.mem_filter.mpr ⟨hR, ?_⟩, hcounted⟩
    rcases hgone with hgone | hgone <;> simp [Reactor.connected, hgone]
  omega

end Leak

def connects (i : ℕ) (contextAddress : UInt64) : List (ServiceEvent ℕ) :=
  [.streamSince contextAddress {} [], .reactor i (.proceed {}), .reactor i (.proceed {}),
    .reactor i (.proceed {}), .reactor i (.proceed {})]

theorem subscribers_accounted_two :
    let S := (subscribeService (Sorting.stable Int64 ℕ)).final
      (SubscribeService.started (Sorting.stable Int64 ℕ) (.new {}) {} false)
      (connects 0 101 ++ connects 1 102)
    (AtRest S → Accounted S) ∧
      ∀ R ∈ S.reactors, R.writer.connection.limitReached S.shared.mSubscriberCount →
        R.writer.connection.options.mMaximumNumberOfSubscribers.toInt ≤ S.connected :=
  subscribers_accounted (Sorting.stable Int64 ℕ) (.new {}) {} false
    (connects 0 101 ++ connects 1 102) (by decide) (by decide)

/-- A service for one subscriber. -/
def oneSeat : SubscribeService ℕ :=
  SubscribeService.started (Sorting.stable Int64 ℕ) (.new {}) { mMaximumNumberOfSubscribers := 1 }
    false

def comesAndGoes : List (ServiceEvent ℕ) :=
  connects 0 101 ++ [.reactor 0 (.proceed { cancelled := true, cancelledAfter := true }),
    .reactor 0 .onCancel, .reactor 0 .onDone]

/-- Its only subscriber has gone, nobody is connected, and still the next client is refused. -/
theorem oneSeat_locked_out :
    (subscribeService (Sorting.stable Int64 ℕ)).Meets Promised oneSeat comesAndGoes ∧
      let S := (subscribeService (Sorting.stable Int64 ℕ)).final oneSeat comesAndGoes
      AtRest S ∧ S.connected = 0 ∧ ¬ Accounted S ∧
        (subscribeService (Sorting.stable Int64 ℕ)).answers S
            [.streamSince 102 {} [], .reactor 1 (.proceed {})] =
          [[], [.finish { code := .RESOURCE_EXHAUSTED
                          message := "Maximum subscriber limit reached" }]] := by
  refine ⟨by decide, by decide, by decide, ?_, by decide⟩
  intro h
  have hcount := h.count
  revert hcount
  decide

end PickBroker
