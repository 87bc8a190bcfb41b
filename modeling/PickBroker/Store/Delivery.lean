import PickBroker.Store.Operations
import Mathlib.Logic.Function.Basic

namespace PickBroker

open Framework

variable {Pick : Type*}

/-- A store with what it has been given and, for each address, the batches handed to it since
it last subscribed. -/
structure Ledger (Pick : Type*) where
  store : PickStore Pick
  entered : List (Int64 × Pick)
  handed : UInt64 → List (List (Int64 × Pick)) := fun _ => []

namespace Ledger

def start (sorting : Sorting Int64 Pick) (c : Construction Pick) : Ledger Pick :=
  { store := c.build sorting, entered := c.picks }

/-- What a call writes into the book. A refused subscription writes nothing. -/
def record (L : Ledger Pick) : Call Pick → UInt64 → List (List (Int64 × Pick))
  | .subscribe a => Function.update L.handed a []
  | .subscribeSince a startTime now =>
    if now < startTime ∧ startTime ≠ MAX_TIME then L.handed else Function.update L.handed a []
  | .unsubscribe a => Function.update L.handed a []
  | .enqueue _ _ _ => L.handed
  | .getPicks a n =>
    if n < 1 then L.handed else Function.update L.handed a (L.handed a ++ [L.store.batch a n])

def enter (L : Ledger Pick) : Call Pick → List (Int64 × Pick)
  | .enqueue receivedTime pick _ => L.entered ++ [(receivedTime, pick)]
  | _ => L.entered

end Ledger

def ledger (sorting : Sorting Int64 Pick) : Machine (Ledger Pick) (Call Pick) (Answer Pick) where
  step L call := ({ store := (pickStore sorting).next L.store call, entered := L.enter call,
                    handed := L.record call }, (pickStore sorting).answer L.store call)

/-- Book-keeping does not change the store. -/
theorem ledger_store (sorting : Sorting Int64 Pick) (L : Ledger Pick) (calls : List (Call Pick)) :
    ((ledger sorting).final L calls).store = (pickStore sorting).final L.store calls := by
  induction calls generalizing L with
  | nil => rfl
  | cons call calls ih => exact ih _

/-- No entry twice, batches in order, and each batch after all the earlier ones. -/
structure InOrder (entered : List (Int64 × Pick)) (handed : List (List (Int64 × Pick))) :
    Prop where
  once : handed.flatten.Subperm entered
  within : ∀ b ∈ handed, Ordered b
  across : handed.Pairwise fun b b' => ∀ x ∈ b, ∀ y ∈ b', x.1 < y.1

/-- The cursor of one subscriber against what it was handed: together with what is unread that
is still no more than what entered, and the cursor stands right behind the last entry handed. -/
structure Marked (deque entered : List (Int64 × Pick)) (cursor : Option Int64)
    (handed : List (List (Int64 × Pick))) : Prop where
  once : (handed.flatten ++ cursor.elim [] fun c => since c deque).Subperm entered
  mark : ∀ c ∈ cursor, ∀ e ∈ handed.flatten.getLast?, c = e.1 + 1
  behind : ∀ c ∈ cursor, ∀ e ∈ handed.flatten, e.1 < c
  within : ∀ b ∈ handed, Ordered b
  across : handed.Pairwise fun b b' => ∀ x ∈ b, ∀ y ∈ b', x.1 < y.1

namespace Marked

variable {deque entered : List (Int64 × Pick)} {cursor : Option Int64}
  {handed : List (List (Int64 × Pick))}

theorem inOrder (h : Marked deque entered cursor handed) : InOrder entered handed :=
  ⟨(List.sublist_append_left _ _).subperm.trans h.once, h.within, h.across⟩

/-- Nothing was handed to a new subscriber. -/
theorem fresh (h : deque.Subperm entered) (cursor : Option Int64) :
    Marked deque entered cursor [] := by
  refine ⟨?_, by simp, by simp, by simp, List.Pairwise.nil⟩
  cases cursor with
  | none => exact List.nil_subperm
  | some c => exact (since_sublist c deque).subperm.trans h

/-- A batch read moves the cursor behind its last entry. -/
theorem read (h : Marked deque entered cursor handed) (hord : Ordered deque)
    (hmax : ∀ e ∈ deque, e.1 ≠ MAX_TIME) {c : Int64} (hc : cursor = some c) (n : ℕ)
    {e : Int64 × Pick} (he : ((since c deque).take n).getLast? = some e) :
    Marked deque entered (some (e.1 + 1)) (handed ++ [(since c deque).take n]) := by
  subst hc
  have hsince : Ordered (since c deque) := hord.since c
  have htake : Ordered ((since c deque).take n) := hsince.sublist (List.take_sublist _ _)
  have hmem : e ∈ since c deque := List.mem_of_mem_take (List.mem_of_getLast? he)
  obtain ⟨hdeque, hce⟩ := mem_since.mp hmem
  have hlt (x : Int64) (hx : x ≤ e.1) : x < e.1 + 1 :=
    hx.trans_lt ((add_one_le_iff (hmax e hdeque)).mp le_rfl)
  have hflat : (handed ++ [(since c deque).take n]).flatten =
      handed.flatten ++ (since c deque).take n := by simp
  refine ⟨?_, ?_, ?_, ?_, ?_⟩
  · have hrest : since (e.1 + 1) deque = rest n (since c deque) := by
      rw [rest_eq_after hsince he, PickStore.since_add_one (hmax e hdeque), after_since hce]
    have hn : 1 ≤ n := by
      by_contra h0
      simp [show n = 0 by omega] at he
    have hsplit : ((since c deque).take n ++ rest n (since c deque)).Sublist (since c deque) := by
      have hh := (List.Sublist.refl ((since c deque).take n)).append
        (rest_sublist_drop hn (since c deque))
      rwa [List.take_append_drop] at hh
    have hsub := (List.Sublist.refl handed.flatten).append hsplit
    rw [Option.elim_some, hrest, hflat, List.append_assoc]
    exact hsub.subperm.trans h.once
  · intro d hd x hx
    rw [hflat, List.getLast?_append_of_ne_nil, he] at hx
    · cases hd; cases hx; rfl
    · intro hnil
      simp [hnil] at he
  · intro d hd x hx
    cases hd
    rw [hflat] at hx
    rcases List.mem_append.mp hx with hx | hx
    · exact hlt x.1 ((h.behind c rfl x hx).le.trans hce)
    · exact hlt x.1 (htake.le_last hx he)
  · intro b hb
    rcases List.mem_append.mp hb with hb | hb
    · exact h.within b hb
    · rw [List.mem_singleton.mp hb]
      exact htake
  · apply pairwise_concat h.across
    intro b hb x hx y hy
    have hcy := (mem_since.mp (List.mem_of_mem_take hy)).2
    exact (h.behind c rfl x (List.mem_flatten.mpr ⟨b, hb, hx⟩)).trans_le hcy

/-- An empty batch leaves the cursor where it is. -/
theorem readNothing (h : Marked deque entered cursor handed) :
    Marked deque entered cursor (handed ++ [[]]) := by
  have hflat : (handed ++ [[]]).flatten = handed.flatten := by simp
  refine ⟨by rw [hflat]; exact h.once, by rw [hflat]; exact h.mark, by rw [hflat]; exact h.behind,
    ?_, ?_⟩
  · intro b hb
    rcases List.mem_append.mp hb with hb | hb
    · exact h.within b hb
    · rw [List.mem_singleton.mp hb]
      exact List.Pairwise.nil
  · apply pairwise_concat h.across
    intro b _ x _ y hy
    cases hy

/-- A new entry is unread for a subscriber, or before its cursor; a cursor at MAX_TIME moves only
while nothing was handed to its subscriber. -/
theorem enqueue (h : Marked deque entered cursor handed) {deque' kept : List (Int64 × Pick)}
    {item : Int64 × Pick} (hkept : kept.Sublist deque) (hstored : deque.Subperm entered)
    (hdeque : deque'.Perm (kept ++ [item])) (newest : Int64)
    (hnew : cursor = some MAX_TIME → handed.flatten = []) :
    Marked deque' (entered ++ [item]) (cursor.map fun c => if c = MAX_TIME then newest else c)
      handed := by
  have hall : deque'.Subperm (entered ++ [item]) :=
    hdeque.subperm.trans ((List.subperm_append_right [item]).mpr (hkept.subperm.trans hstored))
  cases cursor with
  | none =>
    refine ⟨?_, by simp, by simp, h.within, h.across⟩
    exact h.once.trans (List.sublist_append_left _ _).subperm
  | some c =>
    by_cases hc : c = MAX_TIME
    · have hnil : handed.flatten = [] := hnew (congrArg some hc)
      refine ⟨?_, by simp [hnil], by simp [hnil], h.within, h.across⟩
      rw [hnil]
      exact (since_sublist _ _).subperm.trans hall
    · simp only [Option.map_some, hc, if_false]
      refine ⟨?_, h.mark, h.behind, h.within, h.across⟩
      have hperm : (since c deque').Perm (since c kept ++ since c [item]) := by
        rw [← since_append]
        exact hdeque.filter _
      have hle : (since c kept ++ since c [item]).Sublist (since c deque ++ [item]) :=
        (hkept.filter _).append (since_sublist c [item])
      have hsub : (handed.flatten ++ since c deque').Subperm
          (handed.flatten ++ (since c deque ++ [item])) :=
        (List.subperm_append_left _).mpr (hperm.subperm.trans hle.subperm)
      apply hsub.trans
      rw [← List.append_assoc]
      exact (List.subperm_append_right [item]).mpr h.once

end Marked

/-- What a run keeps: the deque sorted and below MAX_TIME, nothing stored that did not enter,
and every cursor right behind what its subscriber was handed. -/
structure Ledger.Sound (L : Ledger Pick) : Prop where
  ordered : Ordered L.store.mDeque
  below : ∀ e ∈ L.store.mDeque, e.1 < MAX_TIME
  stored : L.store.mDeque.Subperm L.entered
  marked : ∀ a, Marked L.store.mDeque L.entered L.store.mCursorMap[a]? (L.handed a)

/-- An enqueue finds no cursor at MAX_TIME whose subscriber was already handed a pick. -/
def MarkKept (L : Ledger Pick) : Call Pick → Prop
  | .enqueue _ _ _ => ∀ a, L.store.mCursorMap[a]? = some MAX_TIME → (L.handed a).flatten = []
  | _ => True

/-- Only the registered addresses need to be looked at. -/
instance (L : Ledger Pick) (call : Call Pick) : Decidable (MarkKept L call) :=
  match call with
  | .enqueue _ _ _ =>
    have _ := List.decidableBAll (fun a => L.store.mCursorMap[a]? = some MAX_TIME →
      (L.handed a).flatten.isEmpty) L.store.mCursorMap.keys
    decidable_of_iff (∀ a ∈ L.store.mCursorMap.keys,
      L.store.mCursorMap[a]? = some MAX_TIME → (L.handed a).flatten.isEmpty)
      ⟨fun h a ha => List.isEmpty_iff.mp
          (h a (Std.ExtTreeMap.mem_keys.mpr (Std.ExtTreeMap.mem_iff_isSome_getElem?.mpr
            (by rw [ha]; rfl))) ha),
        fun h a _ ha => List.isEmpty_iff.mpr (h a ha)⟩
  | .subscribe _ | .subscribeSince _ _ _ | .unsubscribe _ | .getPicks _ _ => .isTrue trivial

theorem Ledger.start_sound (sorting : Sorting Int64 Pick) (c : Construction Pick)
    (hbelow : ∀ e ∈ c.picks, e.1 < MAX_TIME) : (Ledger.start sorting c).Sound := by
  have hstored : (c.build sorting).mDeque.Subperm c.picks := by
    cases c with
    | new options => exact List.nil_subperm
    | backfilled options picks now =>
      exact (PickStore.cleanDeque_sublist _ _).subperm.trans (sorting.perm picks).subperm
  exact ⟨build_ordered c, fun e he => hbelow e (mem_build he), hstored,
    fun _ => Marked.fresh hstored _⟩

/-- A step that only replaces one cursor and empties its record. -/
theorem Ledger.Sound.resubscribe {L : Ledger Pick} (h : L.Sound) (a : UInt64)
    {m : Std.ExtTreeMap UInt64 Int64} (hother : ∀ b, a ≠ b → m[b]? = L.store.mCursorMap[b]?) :
    Ledger.Sound { L with store := { L.store with mCursorMap := m }
                          handed := Function.update L.handed a [] } := by
  refine ⟨h.ordered, h.below, h.stored, ?_⟩
  intro b
  by_cases hb : a = b
  · subst hb
    simpa using Marked.fresh h.stored _
  · simp only [hother b hb, Function.update_of_ne (fun he => hb he.symm)]
    exact h.marked b

theorem Ledger.Sound.read {L : Ledger Pick} (h : L.Sound) (a : UInt64) (n : ℤ) :
    Ledger.Sound { L with store := L.store.markRead a (L.store.batch a n)
                          handed := Function.update L.handed a
                            (L.handed a ++ [L.store.batch a n]) } := by
  have hd := PickStore.markRead_mDeque L.store a (L.store.batch a n)
  refine ⟨by rw [hd]; exact h.ordered, by rw [hd]; exact h.below, by rw [hd]; exact h.stored, ?_⟩
  intro b
  rw [hd]
  by_cases hb : a = b
  · subst hb
    simp only [Function.update_self]
    cases hl : (L.store.batch a n).getLast? with
    | none =>
      have hnil := List.getLast?_eq_none_iff.mp hl
      rw [hnil, PickStore.markRead_nil]
      exact (h.marked a).readNothing
    | some e =>
      cases hc : L.store.mCursorMap[a]? with
      | none => simp [PickStore.batch, PickStore.unread_of_none hc] at hl
      | some c =>
        have hbatch : L.store.batch a n = (since c L.store.mDeque).take n.toNat := by
          rw [PickStore.batch, PickStore.unread_of_cursor hc]
        rw [PickStore.markRead_cursor_last L.store hl, hbatch]
        rw [hbatch] at hl
        exact (h.marked a).read h.ordered (fun e he => (h.below e he).ne) hc n.toNat hl
  · simp only [PickStore.markRead_cursor_ne L.store hb,
      Function.update_of_ne (fun he => hb he.symm)]
    exact h.marked b

theorem Ledger.Sound.enqueue {L : Ledger Pick} (h : L.Sound) (sorting : Sorting Int64 Pick)
    {r : Int64} (hr : r < MAX_TIME) (pick : Pick) (now : Int64)
    (hkept : ∀ a, L.store.mCursorMap[a]? = some MAX_TIME → (L.handed a).flatten = []) :
    Ledger.Sound { L with store := L.store.enqueue sorting r pick now
                          entered := L.entered ++ [(r, pick)] } := by
  have hsub : (L.store.cleanDequeAt now).mDeque.Sublist L.store.mDeque :=
    PickStore.cleanDeque_sublist _ _
  have hperm := PickStore.insertPick_perm sorting (L.store.cleanDequeAt now).mDeque (r, pick)
  refine ⟨PickStore.insertPick_ordered sorting (h.ordered.sublist hsub) (r, pick), ?_, ?_, ?_⟩
  · intro e he
    rcases PickStore.mem_insertPick.mp he with he | rfl
    · exact h.below e (hsub.subset he)
    · exact hr
  · exact hperm.subperm.trans
      ((List.subperm_append_right _).mpr (hsub.subperm.trans h.stored))
  · intro a
    rw [PickStore.enqueue_cursor]
    exact (h.marked a).enqueue hsub h.stored hperm _ (hkept a)

theorem ledger_next_getPicks (sorting : Sorting Int64 Pick) (L : Ledger Pick) (a : UInt64) {n : ℤ}
    (hn : 1 ≤ n) : (ledger sorting).next L (.getPicks a n) =
      { L with store := L.store.markRead a (L.store.batch a n)
               handed := Function.update L.handed a (L.handed a ++ [L.store.batch a n]) } := by
  change Ledger.mk _ _ _ = _
  rw [next_getPicks sorting L.store a hn]
  simp [Ledger.enter, Ledger.record, show ¬ n < 1 by omega]

/-- Every call keeps the ledger sound unless it is an enqueue that moves a read mark back. -/
theorem ledger_sound_step (sorting : Sorting Int64 Pick) (L : Ledger Pick) (call : Call Pick)
    (h : L.Sound) (hr : ∀ r ∈ receivedTimes [call], r < MAX_TIME) (hkept : MarkKept L call) :
    ((ledger sorting).next L call).Sound := by
  cases call with
  | subscribe a =>
    exact h.resubscribe a fun b hb => by simp [Std.ExtTreeMap.getElem?_insert, hb]
  | subscribeSince a startTime now =>
    by_cases ht : now < startTime ∧ startTime ≠ MAX_TIME
    · have hL : (ledger sorting).next L (.subscribeSince a startTime now) = L := by
        change Ledger.mk _ _ _ = _
        rw [next_subscribeSince, if_pos ht]
        simp [Ledger.enter, Ledger.record, ht]
      rw [hL]
      exact h
    · have hL : (ledger sorting).next L (.subscribeSince a startTime now) =
          { L with store := { L.store with mCursorMap := L.store.mCursorMap.insert a startTime }
                   handed := Function.update L.handed a [] } := by
        change Ledger.mk _ _ _ = _
        rw [next_subscribeSince, if_neg ht]
        simp [Ledger.enter, Ledger.record, ht]
      rw [hL]
      exact h.resubscribe a fun b hb => by simp [Std.ExtTreeMap.getElem?_insert, hb]
  | unsubscribe a =>
    exact h.resubscribe a fun b hb => by simp [Std.ExtTreeMap.getElem?_erase, hb]
  | enqueue r pick now => exact h.enqueue sorting (hr r (by simp [receivedTimes])) pick now hkept
  | getPicks a n =>
    by_cases hn : 1 ≤ n
    · rw [ledger_next_getPicks sorting L a hn]
      exact h.read a n
    · have hL : (ledger sorting).next L (.getPicks a n) = L := by
        change Ledger.mk _ _ _ = _
        rw [next_getPicks_of_lt sorting L.store a (by omega)]
        simp [Ledger.enter, Ledger.record, show n < 1 by omega]
      rw [hL]
      exact h

theorem ledger_sound (sorting : Sorting Int64 Pick) (start : Construction Pick)
    (calls : List (Call Pick)) (hbelow : ∀ e ∈ start.picks, e.1 < MAX_TIME)
    (hmax : ∀ r ∈ receivedTimes calls, r < MAX_TIME)
    (hkept : (ledger sorting).Meets MarkKept (Ledger.start sorting start) calls) :
    ((ledger sorting).final (Ledger.start sorting start) calls).Sound := by
  have htimes : ∀ call ∈ calls, ∀ r ∈ receivedTimes [call], r < MAX_TIME := fun call hc r hr =>
    hmax r ((receivedTimes_sublist (List.singleton_sublist.mpr hc)).subset hr)
  have hok := (Machine.meets_and _ _ _ _ _).mpr
    ⟨Machine.meets_of_forall _ (Ledger.start sorting start) htimes, hkept⟩
  exact Machine.invariant _ (fun L call h hstep => ledger_sound_step sorting L call h hstep.1
    hstep.2) (Ledger.start_sound sorting start hbelow) hok

/-- With received times below MAX_TIME, whatever their order, every subscriber is handed no entry
twice and all entries in order, as long as no enqueue finds the cursor of a subscriber that was
already handed a pick at MAX_TIME. -/
theorem delivery_in_order (sorting : Sorting Int64 Pick) (start : Construction Pick)
    (calls : List (Call Pick)) (hbelow : ∀ e ∈ start.picks, e.1 < MAX_TIME)
    (hmax : ∀ r ∈ receivedTimes calls, r < MAX_TIME)
    (hkept : (ledger sorting).Meets MarkKept (Ledger.start sorting start) calls) (a : UInt64) :
    InOrder ((ledger sorting).final (Ledger.start sorting start) calls).entered
      (((ledger sorting).final (Ledger.start sorting start) calls).handed a) :=
  ((ledger_sound sorting start calls hbelow hmax hkept).marked a).inOrder

/-- The condition is exact: an enqueue that finds such a cursor moves it back, and the next read
of that subscriber is out of order. -/
theorem order_lost (sorting : Sorting Int64 Pick) {L : Ledger Pick} (h : L.Sound) {a : UInt64}
    (hcursor : L.store.mCursorMap[a]? = some MAX_TIME) (hhanded : (L.handed a).flatten ≠ [])
    {r : Int64} (hr : r < MAX_TIME) (pick : Pick) (now : Int64) {n : ℤ} (hn : 1 ≤ n) :
    ¬ InOrder ((ledger sorting).final L [.enqueue r pick now, .getPicks a n]).entered
      (((ledger sorting).final L [.enqueue r pick now, .getPicks a n]).handed a) := by
  have hlast := List.getLast?_eq_some_getLast hhanded
  obtain ⟨b, hb, hmem⟩ := List.mem_flatten.mp (List.getLast_mem hhanded)
  have hmark := (h.marked a).mark MAX_TIME hcursor _ hlast
  generalize (L.handed a).flatten.getLast hhanded = e at hmark hmem
  let s := L.store.enqueue sorting r pick now
  obtain ⟨⟨y, hy, hyn⟩, hle⟩ := L.store.exists_newestAfter sorting h.ordered r pick now
  have hnewest : L.store.newestAfter sorting r pick now ≤ e.1 := by
    rw [← hyn]
    have hlt : y.1 < MAX_TIME := by
      rcases PickStore.mem_insertPick.mp hy with hy | rfl
      · exact h.below y ((PickStore.cleanDeque_sublist _ _).subset hy)
      · exact hr
    by_contra hgt
    have hne : e.1 ≠ MAX_TIME := ne_maxValue_of_lt (not_le.mp hgt)
    have hyge := (add_one_le_iff hne).mpr (not_le.mp hgt)
    rw [← hmark] at hyge
    exact absurd hlt hyge.not_gt
  have hcursor' : s.mCursorMap[a]? = some (L.store.newestAfter sorting r pick now) := by
    rw [PickStore.enqueue_cursor, hcursor]
    simp
  have hyu : y ∈ s.unread a := by
    rw [PickStore.unread_of_cursor hcursor']
    exact mem_since.mpr ⟨hy, hyn.ge⟩
  have hne : s.batch a n ≠ [] := by
    rw [PickStore.batch, Ne, List.take_eq_nil_iff]
    intro hor
    rcases hor with h0 | h0
    · omega
    · simp [h0] at hyu
  obtain ⟨x, hx⟩ := List.exists_mem_of_ne_nil _ hne
  have hxle : x.1 ≤ e.1 :=
    (hle x ((s.unread_sublist a).subset ((s.batch_sublist a n).subset hx))).trans hnewest
  intro hord
  have hhand : ((ledger sorting).final L [.enqueue r pick now, .getPicks a n]).handed a =
      L.handed a ++ [s.batch a n] := by
    rw [Machine.final_cons, Machine.final_cons, Machine.final_nil,
      ledger_next_getPicks sorting _ a hn]
    exact Function.update_self ..
  have hacross := hord.across
  rw [hhand] at hacross
  have hlt := (List.pairwise_append.mp hacross).2.2 b hb _ (List.mem_singleton_self _) e hmem x hx
  exact absurd hlt hxle.not_gt

/-- Equal times, a clock that goes back and a reader that comes late. -/
def backwards : List (Call ℕ) :=
  [.subscribe 101, .enqueue 5 50 60, .enqueue 5 51 60, .getPicks 101 1, .enqueue 3 30 60,
    .subscribeSince 102 4 60, .getPicks 101 2, .getPicks 102 2]

theorem delivery_in_order_backwards :
    InOrder ((ledger (Sorting.stable Int64 ℕ)).final
        (Ledger.start (Sorting.stable Int64 ℕ) (.new {})) backwards).entered
      (((ledger (Sorting.stable Int64 ℕ)).final
        (Ledger.start (Sorting.stable Int64 ℕ) (.new {})) backwards).handed 102) := by
  have htimes : ∀ r ∈ receivedTimes backwards, r < MAX_TIME :=
    List.forall_iff_forall_mem.mp (by decide)
  exact delivery_in_order (Sorting.stable Int64 ℕ) (.new {}) backwards (by decide) htimes
    (by decide) 102

/-- The first reader gets its pick again: the read mark behind it is MAX_TIME. -/
def lastNanosecond : List (Call ℕ) :=
  [.subscribeSince 101 0 0, .enqueue (MAX_TIME - 1) 70 0, .getPicks 101 1, .enqueue 5 50 0,
    .getPicks 101 1]

theorem lastNanosecond_out_of_order :
    ¬ InOrder ((ledger (Sorting.stable Int64 ℕ)).final
        (Ledger.start (Sorting.stable Int64 ℕ) (.new {})) lastNanosecond).entered
      (((ledger (Sorting.stable Int64 ℕ)).final
        (Ledger.start (Sorting.stable Int64 ℕ) (.new {})) lastNanosecond).handed 101) := by
  intro h
  have h2 := h.across
  revert h2
  decide

end PickBroker
