import PickBroker.Subscribe.Accounting

namespace PickBroker

open Framework

variable {Pick : Type*}

def WriterEvent.isCallback : WriterEvent → Bool
  | .proceed _ => false
  | .onWriteDone _ _ _ | .onCancel | .onDone => true

/-- gRPC calls a writer back only after its constructor and before it is deleted, and contexts of
live calls have addresses of their own. -/
def CallsBackLive (S : SubscribeService Pick) : ServiceEvent Pick → Prop
  | .streamSince contextAddress _ _ =>
    ∀ R ∈ S.reactors, R.writer.pc ≠ .deleted → R.writer.mContextAddress ≠ contextAddress
  | .reactor i event => event.isCallback = true →
    ∀ R ∈ S.reactors[i]?, R.writer.pc.admitting = false ∧ R.writer.pc ≠ .deleted
  | .enqueue _ _ _ => True

instance (S : SubscribeService Pick) (event : ServiceEvent Pick) :
    Decidable (CallsBackLive S event) :=
  match event with
  | .streamSince contextAddress _ _ => inferInstanceAs (Decidable (∀ R ∈ S.reactors,
      R.writer.pc ≠ .deleted → R.writer.mContextAddress ≠ contextAddress))
  | .reactor i event => inferInstanceAs (Decidable (event.isCallback = true →
      ∀ R ∈ S.reactors[i]?, R.writer.pc.admitting = false ∧ R.writer.pc ≠ .deleted))
  | .enqueue _ _ _ => .isTrue trivial

section Writer

variable {shared : Shared Pick} {w : AsynchronousWriter Pick}

theorem getPicks_cursor {s s' : PickStore Pick} {a b : UInt64} {n : ℤ} {result : List Pick}
    (h : s.getPicks a n = .ok (result, s')) (hne : a ≠ b) :
    s'.mCursorMap[b]? = s.mCursorMap[b]? := by
  by_cases hn : 1 ≤ n
  · rw [s.getPicks_eq a hn] at h
    cases h
    exact s.markRead_cursor_ne hne _
  · rw [PickStore.getPicks, if_pos (by omega)] at h
    cases h

theorem disconnect_cursor {b : UInt64} (hne : w.mContextAddress ≠ b) :
    (w.disconnect shared).1.mPickStore.mCursorMap[b]? = shared.mPickStore.mCursorMap[b]? := by
  unfold AsynchronousWriter.disconnect
  split
  · simp [PickStore.unsubscribe, Std.ExtTreeMap.getElem?_erase, hne]
  · rfl

/-- A writer moves no cursor but its own. -/
theorem writer_step_cursor {b : UInt64} (hne : w.mContextAddress ≠ b) (event : WriterEvent) :
    (w.step shared event).1.mPickStore.mCursorMap[b]? = shared.mPickStore.mCursorMap[b]? := by
  cases event with
  | proceed readings =>
    simp only [AsynchronousWriter.step, AsynchronousWriter.proceed]
    split
    · rfl
    · rfl
    · split
      · rename_i store hstore
        obtain ⟨c, rfl⟩ := trySubscribe_ok hstore
        simp [Std.ExtTreeMap.getElem?_insert, hne]
      · rfl
    · rfl
    · unfold AsynchronousWriter.nextWrite
      split
      · split
        · split <;> rfl
        · split
          · rename_i newPicks store hpicks
            exact getPicks_cursor hpicks hne
          · rfl
      · rfl
    · rfl
    · rfl
  | onWriteDone ok keepRunning cancelled =>
    simp only [AsynchronousWriter.step, AsynchronousWriter.onWriteDone]
    split
    · rfl
    · split <;> rfl
  | onCancel => exact disconnect_cursor hne
  | onDone => exact disconnect_cursor hne

theorem disconnect_writer :
    (w.disconnect shared).2.1.connection = w.connection ∧ (w.disconnect shared).2.1.pc = w.pc := by
  unfold AsynchronousWriter.disconnect
  split <;> exact ⟨rfl, rfl⟩

theorem writer_step_connection (event : WriterEvent) :
    (w.step shared event).2.1.connection = w.connection := by
  cases event with
  | proceed readings =>
    simp only [AsynchronousWriter.step, AsynchronousWriter.proceed, AsynchronousWriter.nextWrite]
    repeat' split
    all_goals rfl
  | onWriteDone ok keepRunning cancelled =>
    simp only [AsynchronousWriter.step, AsynchronousWriter.onWriteDone]
    repeat' split
    all_goals rfl
  | onCancel => exact disconnect_writer.1
  | onDone => exact disconnect_writer.1

/-- A deleted writer does nothing of its own. -/
theorem proceed_deleted (h : w.pc = .deleted) (readings : Readings) :
    w.step shared (.proceed readings) = (shared, w, []) := by
  simp [AsynchronousWriter.step, AsynchronousWriter.proceed, h]

/-- The constructor leaves the queue and the write flag as they are. -/
theorem proceed_admitting {readings : Readings}
    (h : (w.step shared (.proceed readings)).2.1.pc.admitting = true) :
    w.pc.admitting = true ∧
      (w.step shared (.proceed readings)).2.1.mPicksQueue = w.mPicksQueue ∧
      (w.step shared (.proceed readings)).2.1.mWriteInProgress = w.mWriteInProgress := by
  cases hpc : w.pc with
  | nextWrite =>
    simp only [AsynchronousWriter.step, AsynchronousWriter.proceed, hpc,
      AsynchronousWriter.nextWrite] at h
    repeat' split at h
    all_goals simp [hpc, Pc.admitting] at h
  | trySubscribe =>
    simp only [AsynchronousWriter.step, AsynchronousWriter.proceed, hpc]
    split <;> exact ⟨rfl, rfl, rfl⟩
  | idle | deleted | fetchAdd =>
    simp [AsynchronousWriter.step, AsynchronousWriter.proceed, hpc, Pc.admitting] at h
  | checkLimit | authenticate =>
    simp [AsynchronousWriter.step, AsynchronousWriter.proceed, hpc, Pc.admitting]

end Writer

/-- Live writers have addresses of their own, and a writer under construction has fetched and
written nothing. -/
structure Apart (S : SubscribeService Pick) : Prop where
  addresses : ∀ (j k : ℕ) (R R' : Reactor Pick), S.reactors[j]? = some R → S.reactors[k]? = some R' → j ≠ k →
    R.writer.pc ≠ .deleted → R'.writer.pc ≠ .deleted →
    R.writer.mContextAddress ≠ R'.writer.mContextAddress
  fresh : ∀ R ∈ S.reactors, R.writer.pc.admitting = true →
    R.writer.mPicksQueue = [] ∧ R.writer.mWriteInProgress = false

theorem started_apart (sorting : Sorting Int64 Pick) (start : Construction Pick)
    (options : SubscribeServiceOptions) (isSecured : Bool) :
    Apart (.started sorting start options isSecured) := by
  refine ⟨?_, ?_⟩
  · intro j k R R' hj
    simp [SubscribeService.started] at hj
  · intro R hR
    simp [SubscribeService.started] at hR

section Steps

variable {S : SubscribeService Pick}

theorem react_of_getElem? {i : ℕ} {R : Reactor Pick} (hi : S.reactors[i]? = some R)
    (event : WriterEvent) :
    (S.react i event).1.shared = (R.writer.step S.shared event).1 ∧
      (S.react i event).1.reactors = S.reactors.set i (R.step S.shared event).2.1 ∧
      (S.react i event).2 = (R.writer.step S.shared event).2.2 ∧
      (R.step S.shared event).2.1.writer = (R.writer.step S.shared event).2.1 := by
  simp [SubscribeService.react, hi, Reactor.step]

theorem react_of_none {i : ℕ} (hi : S.reactors[i]? = none) (event : WriterEvent) :
    S.react i event = (S, []) := by
  simp [SubscribeService.react, hi]

theorem Apart.same (h : Apart S) {S' : SubscribeService Pick} (hreactors : S'.reactors = S.reactors) :
    Apart S' := by
  refine ⟨?_, ?_⟩
  · rw [hreactors]
    exact h.addresses
  · rw [hreactors]
    exact h.fresh

theorem Apart.connect (h : Apart S) {contextAddress : UInt64} (request : StreamSinceRequest)
    (client_metadata : List (String × String))
    (hok : ∀ R ∈ S.reactors, R.writer.pc ≠ .deleted → R.writer.mContextAddress ≠ contextAddress) :
    Apart (S.connect contextAddress request client_metadata) := by
  refine ⟨?_, ?_⟩
  · intro j k R R' hj hk hne hlive hlive'
    simp only [SubscribeService.connect, List.getElem?_append] at hj hk
    split at hj
    · split at hk
      · exact h.addresses j k R R' hj hk hne hlive hlive'
      · have hlast := List.mem_of_getElem? hk
        rw [List.mem_singleton] at hlast
        rw [hlast]
        exact hok R (List.mem_of_getElem? hj) hlive
    · have hlast := List.mem_of_getElem? hj
      rw [List.mem_singleton] at hlast
      split at hk
      · rw [hlast]
        exact (hok R' (List.mem_of_getElem? hk) hlive').symm
      · have hj' := (List.getElem?_eq_some_iff.mp hj).1
        have hk' := (List.getElem?_eq_some_iff.mp hk).1
        simp only [List.length_singleton] at hj' hk'
        omega
  · intro R hR hadmitting
    simp only [SubscribeService.connect, List.mem_append, List.mem_singleton] at hR
    rcases hR with hR | rfl
    · exact h.fresh R hR hadmitting
    · exact ⟨rfl, rfl⟩

/-- What a step can make of a writer: a deleted one stays deleted, and one under construction was so
before. -/
theorem writer_step_life {shared : Shared Pick} {w : AsynchronousWriter Pick} {event : WriterEvent}
    (hok : event.isCallback = true → w.pc.admitting = false ∧ w.pc ≠ .deleted) :
    ((w.step shared event).2.1.pc ≠ .deleted → w.pc ≠ .deleted) ∧
      ((w.step shared event).2.1.pc.admitting = true →
        w.pc.admitting = true ∧ (w.step shared event).2.1.mPicksQueue = w.mPicksQueue ∧
          (w.step shared event).2.1.mWriteInProgress = w.mWriteInProgress) := by
  cases event with
  | proceed readings =>
    refine ⟨?_, proceed_admitting⟩
    intro hlive hpc
    rw [proceed_deleted hpc] at hlive
    exact hlive hpc
  | onWriteDone ok keepRunning cancelled =>
    obtain ⟨hnot, hlive⟩ := hok rfl
    refine ⟨fun _ => hlive, ?_⟩
    intro hadmitting
    simp only [AsynchronousWriter.step, AsynchronousWriter.onWriteDone] at hadmitting
    repeat' split at hadmitting
    all_goals simp_all [Pc.admitting]
  | onCancel =>
    obtain ⟨hnot, hlive⟩ := hok rfl
    refine ⟨fun _ => hlive, ?_⟩
    intro hadmitting
    simp only [AsynchronousWriter.step, AsynchronousWriter.onCancel, disconnect_writer.2,
      hnot] at hadmitting
    cases hadmitting
  | onDone =>
    obtain ⟨hnot, hlive⟩ := hok rfl
    refine ⟨fun _ => hlive, ?_⟩
    intro hadmitting
    cases hadmitting

theorem Apart.react (h : Apart S) (i : ℕ) {event : WriterEvent}
    (hok : CallsBackLive S (.reactor i event)) : Apart (S.react i event).1 := by
  cases hi : S.reactors[i]? with
  | none =>
    rw [react_of_none hi]
    exact h
  | some R =>
    obtain ⟨-, hreactors, -, hwriter⟩ := react_of_getElem? hi event
    obtain ⟨hlife, hfresh⟩ :=
      @writer_step_life Pick S.shared R.writer event fun hback => hok hback R hi
    have haddress : (R.step S.shared event).2.1.writer.mContextAddress =
        R.writer.mContextAddress := by
      rw [hwriter]
      exact congrArg Connection.contextAddress (writer_step_connection event)
    -- A writer of the new list has the address of the old one in its place, and is no more alive.
    have hplace : ∀ (j : ℕ) (Q : Reactor Pick), (S.react i event).1.reactors[j]? = some Q →
        ∃ R', S.reactors[j]? = some R' ∧
        Q.writer.mContextAddress = R'.writer.mContextAddress ∧
        (Q.writer.pc ≠ .deleted → R'.writer.pc ≠ .deleted) := by
      intro j Q hj
      rw [hreactors] at hj
      by_cases hij : i = j
      · subst hij
        rw [List.getElem?_set_self (List.getElem?_eq_some_iff.mp hi).1] at hj
        cases hj
        refine ⟨R, hi, haddress, ?_⟩
        rw [hwriter]
        exact hlife
      · rw [List.getElem?_set_ne hij] at hj
        exact ⟨Q, hj, rfl, id⟩
    refine ⟨?_, ?_⟩
    · intro j k Q Q' hj hk hne hlive hlive'
      obtain ⟨R₁, hR₁, haddr₁, hlive₁⟩ := hplace j Q hj
      obtain ⟨R₂, hR₂, haddr₂, hlive₂⟩ := hplace k Q' hk
      rw [haddr₁, haddr₂]
      exact h.addresses j k R₁ R₂ hR₁ hR₂ hne (hlive₁ hlive) (hlive₂ hlive')
    · intro Q hQ hadmitting
      rw [hreactors] at hQ
      rcases List.mem_or_eq_of_mem_set hQ with hQ | rfl
      · exact h.fresh Q hQ hadmitting
      · rw [hwriter] at hadmitting ⊢
        obtain ⟨hbefore, hqueue, hprogress⟩ := hfresh hadmitting
        rw [hqueue, hprogress]
        exact h.fresh R (List.mem_of_getElem? hi) hbefore

/-- A step of one writer leaves the cursors of all other live writers alone. -/
theorem Apart.react_cursor (h : Apart S) {i j : ℕ} (hij : j ≠ i) {event : WriterEvent}
    (hok : CallsBackLive S (.reactor j event)) {R : Reactor Pick} (hi : S.reactors[i]? = some R)
    (hlive : R.writer.pc ≠ .deleted) :
    (S.react j event).1.shared.mPickStore.mCursorMap[R.writer.mContextAddress]? =
      S.shared.mPickStore.mCursorMap[R.writer.mContextAddress]? := by
  cases hj : S.reactors[j]? with
  | none => rw [react_of_none hj]
  | some Q =>
    obtain ⟨hshared, -⟩ := react_of_getElem? hj event
    rw [hshared]
    by_cases hdead : Q.writer.pc = .deleted
    · cases event with
      | proceed readings => rw [proceed_deleted hdead]
      | _ => exact absurd hdead (hok rfl Q hj).2
    · exact writer_step_cursor (h.addresses j i Q R hj hi hij hdead hlive) event

end Steps

end PickBroker
