import PickBroker.Store.Operations
import PickBroker.Framework.Queues

namespace PickBroker

open Framework

variable {Pick : Type*}

/-- How a start time is taken: refused, read as none, or kept. -/
abbrev StartRule := Int64 → Int64 → Except Exception (Option Int64)

/-- Every start time is kept as it is. -/
def everyStart : StartRule := fun startTime _ => .ok (some startTime)

/-- A start time in the future is refused; MAX_TIME stands for no start time. -/
def guardedStart : StartRule := fun startTime now =>
  if startTime = MAX_TIME then .ok none
  else if now < startTime then
    .error (.invalid_argument "startTime cannot be in the future")
  else .ok (some startTime)

/-- The store every subscriber has its own list in. A cleaning evicts what is older than the
retention once at least `half` picks are stored. -/
def queueStore (rule : StartRule) (half : ℕ) (history : Int64) :
    Machine (Queues UInt64 Int64 Pick) (Call Pick) (Answer Pick) where
  step q
    | .subscribe a => (q.subscribe a none, .done)
    | .subscribeSince a startTime now =>
      match rule startTime now with
      | .ok start => (q.subscribe a start, .done)
      | .error e => (q, .threw e)
    | .unsubscribe a => (q.unsubscribe a, .done)
    | .enqueue receivedTime pick now =>
      let gone := fun e => half ≤ q.stored.length ∧ e.1 < now - history
      ((q.evict fun e => gone e).publish (receivedTime, pick), .done)
    | .getPicks a n => ((q.fetch a n.toNat).2, .picks ((q.fetch a n.toNat).1.map Prod.snd))

/-- No subscriber yet, the same stored picks. -/
def PickStore.toQueues (s : PickStore Pick) : Queues UInt64 Int64 Pick := ⟨s.mDeque, fun _ => none⟩

/-- A cursor stands for a list of undelivered entries, with the received times `future` still
to come. -/
inductive CursorFor (deque : List (Int64 × Pick)) (future : List Int64) :
    Option Int64 → Option (Subscription Int64 Pick) → Prop where
  | absent : CursorFor deque future none none
  | present {c : Int64} {sub : Subscription Int64 Pick} (pending : sub.pending = since c deque)
      (entitled : ∀ e ∈ sub.pending, Entitled sub.start e.1)
      (ahead : ∀ r ∈ future, (c = MAX_TIME ∨ c ≤ r) ↔ Entitled sub.start r) :
      CursorFor deque future (some c) (some sub)

/-- The simulation relation between the cursors and the lists. -/
structure Simulates (half : ℕ) (history : Int64) (future : List Int64) (s : PickStore Pick)
    (q : Queues UInt64 Int64 Pick) : Prop where
  stored : q.stored = s.mDeque
  increasing : s.mDeque.Pairwise fun x y => x.1 < y.1
  below : ∀ e ∈ s.mDeque, e.1 < MAX_TIME
  ahead : ∀ e ∈ s.mDeque, ∀ r ∈ future, e.1 < r
  half : s.mMaxQueueCapacity / 2 = half
  history : s.mMaxHistory = history
  cursors : ∀ a, CursorFor s.mDeque future s.mCursorMap[a]? (q.subscriber a)

section Operations

variable {half : ℕ} {history : Int64} {future : List Int64} {s : PickStore Pick}
  {q : Queues UInt64 Int64 Pick}

theorem Simulates.ordered (h : Simulates half history future s q) : Ordered s.mDeque :=
  h.increasing.imp fun hlt => hlt.le

/-- Changing one cursor together with its list keeps the relation. -/
theorem Simulates.update (h : Simulates half history future s q) (a : UInt64)
    {m : Std.ExtTreeMap UInt64 Int64} {x : Option (Subscription Int64 Pick)}
    (hself : CursorFor s.mDeque future m[a]? x)
    (hother : ∀ b, a ≠ b → m[b]? = s.mCursorMap[b]?) :
    Simulates half history future { s with mCursorMap := m }
      { q with subscriber := Function.update q.subscriber a x } := by
  refine ⟨h.stored, h.increasing, h.below, h.ahead, h.half, h.history, ?_⟩
  intro b
  by_cases hb : a = b
  · subst hb
    simpa using hself
  · have hs : Function.update q.subscriber a x b = q.subscriber b :=
      Function.update_of_ne (fun he => hb he.symm) _ _
    simp only [hs, hother b hb]
    exact h.cursors b

/-- A new subscription: without a start its list is empty, since all picks are below MAX_TIME. -/
theorem Simulates.subscribe (h : Simulates half history future s q) (a : UInt64)
    (start : Option Int64) (hstart : start ≠ some MAX_TIME) :
    Simulates half history future
      { s with mCursorMap := s.mCursorMap.insert a (start.getD MAX_TIME) }
      (q.subscribe a start) := by
  apply h.update a
  · rw [Std.ExtTreeMap.getElem?_insert_self]
    cases start with
    | none =>
      refine .present (since_eq_nil h.below).symm (by simp) ?_
      intro r _
      simp [Entitled]
    | some t =>
      have ht : t ≠ MAX_TIME := fun he => hstart (congrArg some he)
      refine .present (by simp [h.stored]) ?_ ?_
      · intro e he b hb
        cases hb
        exact (mem_since.mp he).2
      · intro r _
        simp [Entitled, ht]
  · intro b hb
    simp [Std.ExtTreeMap.getElem?_insert, hb]

theorem Simulates.unsubscribe (h : Simulates half history future s q) (a : UInt64) :
    Simulates half history future (s.unsubscribe a) (q.unsubscribe a) := by
  apply h.update a
  · rw [Std.ExtTreeMap.getElem?_erase_self]
    exact .absent
  · intro b hb
    simp [Std.ExtTreeMap.getElem?_erase, hb]

/-- Nothing is tied with the last pick read, so the read mark passes over nothing. -/
theorem Simulates.unread_markRead (h : Simulates half history future s q) (a : UInt64) {n : ℤ}
    (hn : 1 ≤ n) : (s.markRead a (s.batch a n)).unread a = (s.unread a).drop n.toNat := by
  have hstrict : (s.unread a).Pairwise fun x y => x.1 < y.1 :=
    h.increasing.sublist (s.unread_sublist a)
  have hmax : ∀ e ∈ s.batch a n, e.1 ≠ MAX_TIME := fun e he =>
    (h.below e ((s.unread_sublist a).subset ((s.batch_sublist a n).subset he))).ne
  rw [PickStore.unread_markRead s h.ordered a n hmax]
  apply (rest_eq_drop_iff (by omega) (hstrict.imp fun hlt => hlt.le)).mpr
  intro x y hx hy
  obtain ⟨hi, rfl⟩ := List.getElem?_eq_some_iff.mp hx
  obtain ⟨hj, rfl⟩ := List.getElem?_eq_some_iff.mp hy
  exact (List.pairwise_iff_getElem.mp hstrict _ _ hi hj (by omega)).ne

/-- A batch is the front of the list, and the cursor moved behind it stands for the rest. -/
theorem Simulates.getPicks (h : Simulates half history future s q) (a : UInt64) {n : ℤ}
    (hn : 1 ≤ n) :
    s.batch a n = (q.fetch a n.toNat).1 ∧
      Simulates half history future (s.markRead a (s.batch a n)) (q.fetch a n.toNat).2 := by
  have hc := h.cursors a
  have hdrop := h.unread_markRead a hn
  generalize hcur : s.mCursorMap[a]? = cur at hc
  generalize hsub : q.subscriber a = x at hc
  cases hc with
  | absent =>
    have hb : s.batch a n = [] := by simp [PickStore.batch, PickStore.unread_of_none hcur]
    rw [hb, PickStore.markRead_nil]
    simp only [Queues.fetch, hsub]
    exact ⟨trivial, h⟩
  | @present c sub pending entitled ahead =>
    have hu : s.unread a = sub.pending := by rw [PickStore.unread_of_cursor hcur, pending]
    have hb : s.batch a n = sub.pending.take n.toNat := by rw [PickStore.batch, hu]
    rw [hu] at hdrop
    have hfetch : q.fetch a n.toNat = (sub.pending.take n.toNat, { q with
        subscriber := Function.update q.subscriber a
          (some { sub with pending := sub.pending.drop n.toNat }) }) := by
      simp [Queues.fetch, hsub]
    rw [hfetch]
    refine ⟨hb, ?_⟩
    cases hl : (s.batch a n).getLast? with
    | none =>
      have hnil := List.getLast?_eq_none_iff.mp hl
      rw [hnil, PickStore.markRead_nil, hu] at hdrop
      rw [hnil, PickStore.markRead_nil]
      apply h.update a (m := s.mCursorMap)
      · rw [hcur]
        exact .present (by rw [← hdrop, pending]) (by rw [← hdrop]; exact entitled) ahead
      · exact fun _ _ => rfl
    | some e =>
      have he : e ∈ sub.pending := by
        have hm := List.mem_of_getLast? hl
        rw [hb] at hm
        exact List.mem_of_mem_take hm
      have hdeque : e ∈ s.mDeque := (s.unread_sublist a).subset (hu ▸ he)
      have hcur' := PickStore.markRead_cursor_last s (a := a) hl
      have hmark : s.markRead a (s.batch a n) =
          { s with mCursorMap := (s.markRead a (s.batch a n)).mCursorMap } := by
        simp [PickStore.markRead, hl]
      rw [hmark]
      apply h.update a
      · rw [hcur']
        refine .present ?_ ?_ ?_
        · rw [← hdrop, PickStore.unread_of_cursor hcur', PickStore.markRead_mDeque]
        · exact fun x hx => entitled x (List.mem_of_mem_drop hx)
        · intro r hr
          have hlt : e.1 < r := h.ahead e hdeque r hr
          refine ⟨fun _ b hb => (entitled e he b hb).trans hlt.le, fun _ => Or.inr ?_⟩
          exact (add_one_le_iff (h.below e hdeque).ne).mpr hlt
      · exact fun b hb => PickStore.markRead_cursor_ne s hb _

/-- A cursor after an enqueue: the newest pick's time where it stood at MAX_TIME. -/
theorem CursorFor.enqueue {deque kept : List (Int64 × Pick)} {r : Int64}
    {cur : Option Int64} {x : Option (Subscription Int64 Pick)} {gone : Int64 × Pick → Bool}
    (hc : CursorFor deque (r :: future) cur x) (below : ∀ e ∈ deque, e.1 < MAX_TIME)
    (hkept : kept = deque.filter fun e => !gone e)
    (hlater : ∀ t ∈ future, r < t) (hearlier : ∀ e ∈ deque, e.1 < r) (pick : Pick) :
    CursorFor (kept ++ [(r, pick)]) future
      (cur.map fun c => if c = MAX_TIME then r else c)
      ((x.map fun sub => { sub with pending := sub.pending.filter fun e => !gone e }).map
        fun sub => { sub with
          pending := if Entitled sub.start r then sub.pending ++ [(r, pick)] else sub.pending }) := by
  cases hc with
  | absent => exact .absent
  | @present c sub pending entitled ahead =>
    have hsince (t : Int64) : since t kept = (since t deque).filter fun e => !gone e := by
      rw [hkept, since, since, List.filter_filter, List.filter_filter]
      exact List.filter_congr fun e _ => Bool.and_comm _ _
    have hone : since r [(r, pick)] = [(r, pick)] := since_eq_self (by simp)
    have hall : ∀ e ∈ sub.pending.filter (fun e => !gone e) ++ [(r, pick)],
        Entitled sub.start r → Entitled sub.start e.1 := by
      intro e he hent
      rcases List.mem_append.mp he with he | he
      · exact entitled e (List.mem_filter.mp he).1
      · rw [List.mem_singleton.mp he]
        exact hent
    have hnow := ahead r (by simp)
    by_cases hmax : c = MAX_TIME
    · have hent : Entitled sub.start r := hnow.mp (Or.inl hmax)
      have hempty : sub.pending = [] := by
        rw [pending, hmax]
        exact since_eq_nil below
      have hold : since r kept = [] := by
        rw [hsince, since_eq_nil hearlier, List.filter_nil]
      simp only [Option.map_some, hmax, if_true, hent]
      refine .present ?_ (fun e he => hall e he hent) ?_
      · rw [since_append, hold, hone, hempty, List.filter_nil]
      · intro t ht
        have hrt := hlater t ht
        exact ⟨fun _ => (ahead t (by simp [ht])).mp (Or.inl hmax), fun _ => Or.inr hrt.le⟩
    · simp only [Option.map_some, hmax, if_false]
      have hlater' : ∀ t ∈ future, (c = MAX_TIME ∨ c ≤ t) ↔ Entitled sub.start t :=
        fun t ht => ahead t (by simp [ht])
      by_cases hent : Entitled sub.start r
      · have hcr : c ≤ r := (hnow.mpr hent).resolve_left hmax
        simp only [hent, if_true]
        refine .present ?_ (fun e he => hall e he hent) hlater'
        rw [since_append, hsince, pending, since_eq_self (l := [(r, pick)]) (by simpa using hcr)]
      · have hcr : r < c := not_le.mp fun hle => hent (hnow.mp (Or.inr hle))
        simp only [hent, if_false]
        refine .present ?_ (fun e he => entitled e (List.mem_filter.mp he).1) hlater'
        rw [since_append, hsince, pending, since_eq_nil (l := [(r, pick)]) (by simpa using hcr),
          List.append_nil]

theorem Simulates.enqueue (sorting : Sorting Int64 Pick) {r : Int64}
    (h : Simulates half history (r :: future) s q) (pick : Pick) (now : Int64)
    (hr : r < MAX_TIME) (hlater : ∀ t ∈ future, r < t) :
    Simulates half history future (s.enqueue sorting r pick now)
      ((q.evict fun e => half ≤ q.stored.length ∧ e.1 < now - history).publish (r, pick)) := by
  have hearlier : ∀ e ∈ s.mDeque, e.1 < r := fun e he => h.ahead e he r (by simp)
  have hkept : (s.cleanDequeAt now).mDeque = s.mDeque.filter fun e =>
      !decide (half ≤ q.stored.length ∧ e.1 < now - history) := by
    rw [PickStore.cleanDequeAt, PickStore.cleanDeque_mDeque s h.ordered, h.stored, ← h.half,
      ← h.history]
    rfl
  have hsub : (s.cleanDequeAt now).mDeque.Sublist s.mDeque := PickStore.cleanDeque_sublist s _
  have hold : ∀ e ∈ (s.cleanDequeAt now).mDeque, e.1 ≤ r :=
    fun e he => (hearlier e (hsub.subset he)).le
  have hdeque : (s.enqueue sorting r pick now).mDeque =
      (s.cleanDequeAt now).mDeque ++ [(r, pick)] := by
    rw [PickStore.enqueue_mDeque, PickStore.insertPick_of_le sorting hold]
  have hnew (P : Int64 × Pick → Prop) (hs : ∀ e ∈ s.mDeque, P e) (hp : P (r, pick)) :
      ∀ e ∈ (s.enqueue sorting r pick now).mDeque, P e := by
    intro e he
    rw [hdeque] at he
    rcases List.mem_append.mp he with he | he
    · exact hs e (hsub.subset he)
    · rw [List.mem_singleton.mp he]
      exact hp
  refine ⟨?_, ?_, ?_, ?_, ?_, ?_, ?_⟩
  · rw [hdeque, hkept, ← h.stored]
    rfl
  · rw [hdeque]
    apply pairwise_concat (h.increasing.sublist hsub)
    intro x hx
    exact hearlier x (hsub.subset hx)
  · exact hnew _ h.below hr
  · exact hnew _ (fun e he t ht => h.ahead e he t (by simp [ht])) hlater
  · exact (congrArg (· / 2) (PickStore.cleanDeque_settings s _).2).trans h.half
  · exact (PickStore.cleanDeque_settings s _).1.trans h.history
  · intro a
    rw [PickStore.enqueue_cursor, PickStore.newestAfter_of_le sorting s pick now hold, hdeque]
    exact (h.cursors a).enqueue h.below hkept hlater hearlier pick

end Operations

/-- The lists a run starts with: the built store's picks and no subscriber. -/
theorem Simulates.build (sorting : Sorting Int64 Pick) (start : Construction Pick)
    (hback : (start.picks.map Prod.fst).Nodup) (hbelow : ∀ e ∈ start.picks, e.1 < MAX_TIME)
    {future : List Int64} (habove : ∀ e ∈ start.picks, ∀ r ∈ future, e.1 < r) :
    Simulates ((start.build sorting).mMaxQueueCapacity / 2) (start.build sorting).mMaxHistory
      future (start.build sorting) (start.build sorting).toQueues := by
  refine ⟨rfl, ?_, fun e he => hbelow e (mem_build he), fun e he => habove e (mem_build he),
    rfl, rfl, ?_⟩
  · have hnd : ((start.build sorting).mDeque.map Prod.fst).Nodup := by
      cases start with
      | new options => exact List.nodup_nil
      | backfilled options picks now =>
        exact (((sorting.perm picks).map Prod.fst).nodup_iff.mpr hback).sublist
          ((PickStore.cleanDeque_sublist _ _).map Prod.fst)
    have hne : (start.build sorting).mDeque.Pairwise fun x y => x.1 ≠ y.1 :=
      List.pairwise_map.mp hnd
    exact (build_ordered start).imp₂ (fun _ _ hle hn => lt_of_le_of_ne hle hn) hne
  · intro a
    rw [build_mCursorMap]
    exact .absent

/-- One call keeps the relation and is answered alike. -/
theorem simulates_step (sorting : Sorting Int64 Pick) {half : ℕ} {history : Int64}
    (call : Call Pick) (calls : List (Call Pick)) (s : PickStore Pick)
    (q : Queues UInt64 Int64 Pick)
    (hinc : (receivedTimes (call :: calls)).Pairwise (· < ·))
    (hmax : ∀ r ∈ receivedTimes (call :: calls), r < MAX_TIME)
    (hn : ∀ a n, Call.getPicks a n ∈ call :: calls → 1 ≤ n)
    (h : Simulates half history (receivedTimes (call :: calls)) s q) :
    (pickStore sorting).answer s call = (queueStore guardedStart half history).answer q call ∧
      Simulates half history (receivedTimes calls) ((pickStore sorting).next s call)
        ((queueStore guardedStart half history).next q call) := by
  cases call with
  | subscribe a => exact ⟨rfl, h.subscribe a none (by simp)⟩
  | subscribeSince a startTime now =>
    change Simulates half history (receivedTimes calls) s q at h
    by_cases ht : startTime = MAX_TIME
    · subst ht
      have hs := h.subscribe a none (by simp)
      simpa [Machine.answer, Machine.next, pickStore, queueStore, guardedStart,
        PickStore.subscribeSince] using hs
    · by_cases hnow : now < startTime
      · simpa [Machine.answer, Machine.next, pickStore, queueStore, guardedStart,
          PickStore.subscribeSince, ht, hnow] using h
      · have hs := h.subscribe a (some startTime) (by simpa using ht)
        simpa [Machine.answer, Machine.next, pickStore, queueStore, guardedStart,
          PickStore.subscribeSince, ht, hnow] using hs
  | unsubscribe a => exact ⟨rfl, h.unsubscribe a⟩
  | enqueue r pick now =>
    have hlater : ∀ t ∈ receivedTimes calls, r < t := (List.pairwise_cons.mp hinc).1
    exact ⟨rfl, Simulates.enqueue sorting h pick now (hmax r (by simp [receivedTimes])) hlater⟩
  | getPicks a n =>
    have h1 : 1 ≤ n := hn a n (by simp)
    obtain ⟨hb, hs⟩ := h.getPicks a h1
    rw [answer_getPicks sorting s a h1, next_getPicks sorting s a h1, hb]
    rw [hb] at hs
    exact ⟨rfl, hs⟩

/-- With strictly increasing received times below MAX_TIME the cursors answer every run as the
lists do, a start time at MAX_TIME standing for none and one in the future being refused. -/
theorem pickStore_refines_queues (sorting : Sorting Int64 Pick) (start : Construction Pick)
    (calls : List (Call Pick)) (hback : (start.picks.map Prod.fst).Nodup)
    (hbelow : ∀ e ∈ start.picks, e.1 < MAX_TIME)
    (habove : ∀ e ∈ start.picks, ∀ r ∈ receivedTimes calls, e.1 < r)
    (hinc : (receivedTimes calls).Pairwise (· < ·))
    (hmax : ∀ r ∈ receivedTimes calls, r < MAX_TIME)
    (hn : ∀ a n, Call.getPicks a n ∈ calls → 1 ≤ n) :
    (pickStore sorting).answers (start.build sorting) calls =
      (queueStore guardedStart ((start.build sorting).mMaxQueueCapacity / 2)
        (start.build sorting).mMaxHistory).answers (start.build sorting).toQueues calls := by
  let half := (start.build sorting).mMaxQueueCapacity / 2
  let history := (start.build sorting).mMaxHistory
  let R : List (Call Pick) → PickStore Pick → Queues UInt64 Int64 Pick → Prop :=
    fun calls s q => (receivedTimes calls).Pairwise (· < ·) ∧
      (∀ r ∈ receivedTimes calls, r < MAX_TIME) ∧
      (∀ a n, Call.getPicks a n ∈ calls → 1 ≤ n) ∧
      Simulates half history (receivedTimes calls) s q
  refine Machine.answers_eq_of_simulation _ _ R ?_
    ⟨hinc, hmax, hn, Simulates.build sorting start hback hbelow habove⟩
  intro call calls s q h
  obtain ⟨hi, hm, hb, hs⟩ := h
  have htail := receivedTimes_sublist (List.sublist_cons_self call calls)
  obtain ⟨he, hs'⟩ := simulates_step sorting call calls s q hi hm hb hs
  exact ⟨he, hi.sublist htail, fun r hr => hm r (htail.subset hr),
    fun a n hmem => hb a n (List.mem_cons_of_mem _ hmem), hs'⟩

/-- Two backfilled picks, given out of order. -/
def twoPicks : Construction ℕ := .backfilled {} [(3, 30), (1, 10)] 50

/-- One subscriber with a start time, one without, batches of two and an unsubscription. -/
def twoReaders : List (Call ℕ) :=
  [.subscribeSince 101 2 50, .subscribe 102, .enqueue 5 50 60, .enqueue 7 70 60,
    .getPicks 101 2, .getPicks 102 2, .unsubscribe 101, .enqueue 9 90 60, .getPicks 101 2,
    .getPicks 102 2]

theorem pickStore_refines_queues_twoReaders :
    (pickStore (Sorting.stable Int64 ℕ)).answers (twoPicks.build (Sorting.stable Int64 ℕ))
        twoReaders =
      (queueStore guardedStart ((twoPicks.build (Sorting.stable Int64 ℕ)).mMaxQueueCapacity / 2)
        (twoPicks.build (Sorting.stable Int64 ℕ)).mMaxHistory).answers
        (twoPicks.build (Sorting.stable Int64 ℕ)).toQueues twoReaders :=
  pickStore_refines_queues (Sorting.stable Int64 ℕ) twoPicks twoReaders
    (by decide) (by decide) (by simp [twoPicks, Construction.picks, twoReaders, receivedTimes])
    (by decide) (List.forall_iff_forall_mem.mp (by decide)) (by simp [twoReaders]; omega)

/-- Taken literally, a list for every start time answers otherwise in three ways: a start time
at MAX_TIME is no start time, one in the future is refused, and a backfilled pick at MAX_TIME
is handed out again since the read mark behind it wraps around. -/
theorem literal_start_times_differ :
    (pickStore (Sorting.stable Int64 ℕ)).answers (PickStore.new {})
        [.subscribeSince 1 MAX_TIME 0, .enqueue 5 50 10, .getPicks 1 1] ≠
      (queueStore everyStart 4096 (15 * 60 * 1000000000)).answers ⟨[], fun _ => none⟩
        [.subscribeSince 1 MAX_TIME 0, .enqueue 5 50 10, .getPicks 1 1] ∧
    (pickStore (Sorting.stable Int64 ℕ)).answers (PickStore.new {})
        [.subscribeSince 1 5 0, .enqueue 5 50 10, .getPicks 1 1] ≠
      (queueStore everyStart 4096 (15 * 60 * 1000000000)).answers ⟨[], fun _ => none⟩
        [.subscribeSince 1 5 0, .enqueue 5 50 10, .getPicks 1 1] ∧
    (pickStore (Sorting.stable Int64 ℕ)).answers
        (PickStore.backfilled (Sorting.stable Int64 ℕ) {} [(MAX_TIME, 70)] 0)
        [.subscribeSince 1 0 0, .getPicks 1 1, .getPicks 1 1] ≠
      (queueStore everyStart 4096 (15 * 60 * 1000000000)).answers
        ⟨[(MAX_TIME, 70)], fun _ => none⟩
        [.subscribeSince 1 0 0, .getPicks 1 1, .getPicks 1 1] := by
  refine ⟨?_, ?_, ?_⟩ <;> decide

end PickBroker
