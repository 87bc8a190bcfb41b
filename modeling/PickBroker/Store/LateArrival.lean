import PickBroker.Store.Delivery

namespace PickBroker

open Framework

variable {Pick : Type*}

/-- A book opened on a store in the middle of a run. -/
def Ledger.opened (s : PickStore Pick) : Ledger Pick := { store := s, entered := s.mDeque }

/-- The subscriber's cursor will not stand behind a pick received at `r`: it has not read past
`r`, or it has no cursor yet and nothing newer stays stored. -/
def Covers (s : PickStore Pick) (cursor r now : Int64) : Prop :=
  if cursor = MAX_TIME then ∀ e ∈ (s.cleanDequeAt now).mDeque, e.1 ≤ r else cursor ≤ r

/-- The call neither ends the subscription nor reads up to a pick tied with `e` while `e` itself
stands behind the end of the batch. -/
def Spares (a : UInt64) (e : Int64 × Pick) (L : Ledger Pick) : Call Pick → Prop
  | .subscribe b => a ≠ b
  | .subscribeSince b _ _ => a ≠ b
  | .unsubscribe b => a ≠ b
  | .enqueue _ _ _ => True
  | .getPicks b n => a = b → 1 ≤ n →
      ∀ x ∈ (L.store.unread a)[n.toNat - 1]?, x.1 = e.1 → e ∉ (L.store.unread a).drop n.toNat

instance (s : PickStore Pick) (cursor r now : Int64) : Decidable (Covers s cursor r now) :=
  inferInstanceAs (Decidable (if cursor = MAX_TIME then _ else _))

instance [DecidableEq Pick] (a : UInt64) (e : Int64 × Pick) (L : Ledger Pick)
    (call : Call Pick) : Decidable (Spares a e L call) :=
  match call with
  | .subscribe b | .subscribeSince b _ _ | .unsubscribe b => inferInstanceAs (Decidable (a ≠ b))
  | .enqueue _ _ _ => .isTrue trivial
  | .getPicks b n => inferInstanceAs (Decidable (a = b → 1 ≤ n →
      ∀ x ∈ (L.store.unread a)[n.toNat - 1]?, x.1 = e.1 → e ∉ (L.store.unread a).drop n.toNat))

/-- As many reads as there are stored picks: enough to come to an empty answer. -/
def readAll (L : Ledger Pick) (a : UInt64) (n : ℤ) : List (Call Pick) :=
  List.replicate L.store.mDeque.length (.getPicks a n)

/-- By the end of the run the entry was evicted, or it was handed out, or reading on until the
answer is empty hands it out. -/
def NotLost (sorting : Sorting Int64 Pick) (L : Ledger Pick) (calls : List (Call Pick))
    (a : UInt64) (n : ℤ) (e : Int64 × Pick) : Prop :=
  let L' := (ledger sorting).final L calls
  (∃ before, before <+: calls ∧ e ∉ ((ledger sorting).final L before).store.mDeque) ∨
    e ∈ (L'.handed a).flatten ∨
    e ∈ (((ledger sorting).final L' (readAll L' a n)).handed a).flatten

section Step

variable {sorting : Sorting Int64 Pick} {L : Ledger Pick} {a : UInt64} {e : Int64 × Pick}

theorem ledger_next_store (call : Call Pick) :
    ((ledger sorting).next L call).store = (pickStore sorting).next L.store call := rfl

theorem ledger_next_handed (call : Call Pick) :
    ((ledger sorting).next L call).handed = L.record call := rfl

/-- What was handed out stays in the book while the subscription lasts. -/
theorem handed_kept {call : Call Pick} (hspare : Spares a e L call)
    (h : e ∈ (L.handed a).flatten) : e ∈ (((ledger sorting).next L call).handed a).flatten := by
  rw [ledger_next_handed]
  cases call with
  | subscribe b => simpa [Ledger.record, Function.update_of_ne hspare] using h
  | subscribeSince b startTime now =>
    rw [Ledger.record]
    split
    · exact h
    · simpa [Function.update_of_ne hspare] using h
  | unsubscribe b => simpa [Ledger.record, Function.update_of_ne hspare] using h
  | enqueue r pick now => exact h
  | getPicks b n =>
    rw [Ledger.record]
    split
    · exact h
    · by_cases hb : a = b
      · subst hb
        rw [Function.update_self, List.flatten_append]
        exact List.mem_append_left _ h
      · rwa [Function.update_of_ne hb]

/-- A read of the subscriber hands the unread entry out or leaves it unread. -/
theorem read_spared (hord : Ordered L.store.mDeque) {n : ℤ} (hn : 1 ≤ n)
    (hspare : Spares a e L (.getPicks a n)) (h : e ∈ L.store.unread a) :
    e ∈ L.store.batch a n ∨ e ∈ (L.store.markRead a (L.store.batch a n)).unread a ∧
      (L.store.markRead a (L.store.batch a n)).unread a =
        rest n.toNat (L.store.unread a) := by
  have hu : Ordered (L.store.unread a) := hord.sublist (L.store.unread_sublist a)
  have hsplit := List.take_append_drop n.toNat (L.store.unread a)
  rw [← hsplit] at h
  rcases List.mem_append.mp h with htake | hdrop
  · exact Or.inl htake
  right
  have hlen : n.toNat < (L.store.unread a).length := by
    by_contra hc
    simp [List.drop_eq_nil_iff.mpr (not_lt.mp hc)] at hdrop
  have hx : (L.store.unread a)[n.toNat - 1]? = some (L.store.unread a)[n.toNat - 1] :=
    List.getElem?_eq_getElem (by omega)
  generalize (L.store.unread a)[n.toNat - 1] = x at hx
  have hlast := L.store.batch_getLast? hn hx
  have hlt : x.1 < e.1 := by
    rw [← hsplit] at hu
    have hle := (List.pairwise_append.mp hu).2.2 x (List.mem_of_getLast? hlast) e hdrop
    exact lt_of_le_of_ne hle fun heq => hspare rfl hn x hx heq hdrop
  have hbatch : Ordered (L.store.batch a n) := hu.sublist (L.store.batch_sublist a n)
  have hrest := L.store.unread_markRead hord a n fun y hy =>
    ne_maxValue_of_lt ((hbatch.le_last hy hlast).trans_lt hlt)
  refine ⟨?_, hrest⟩
  rw [hrest, rest_eq_after hu hlast]
  exact mem_after.mpr ⟨List.mem_of_mem_drop hdrop, hlt⟩

/-- An enqueue leaves the entry unread or evicts it. -/
theorem enqueue_spared (r : Int64) (pick : Pick) (now : Int64)
    (h : e ∈ L.store.unread a) (hstored : e ∈ (L.store.enqueue sorting r pick now).mDeque) :
    e ∈ (L.store.enqueue sorting r pick now).unread a := by
  cases hc : L.store.mCursorMap[a]? with
  | none => simp [PickStore.unread_of_none hc] at h
  | some c =>
    rw [PickStore.unread_of_cursor hc] at h
    have hce : c ≤ e.1 := (mem_since.mp h).2
    have hcursor : (L.store.enqueue sorting r pick now).mCursorMap[a]? = _ :=
      PickStore.enqueue_cursor sorting L.store r pick now a
    rw [hc, Option.map_some] at hcursor
    rw [PickStore.unread_of_cursor hcursor]
    apply mem_since.mpr
    refine ⟨hstored, ?_⟩
    by_cases hmax : c = MAX_TIME
    · -- the entry itself is then at MAX_TIME
      rw [hmax] at hce
      exact le_trans (Int64.le_maxValue _) hce
    · rwa [if_neg hmax]

/-- One call: an entry that is stored and handed out or unread stays so, or it is evicted. -/
theorem spared_step (hord : Ordered L.store.mDeque) (call : Call Pick)
    (hspare : Spares a e L call) (h : e ∈ (L.handed a).flatten ∨ e ∈ L.store.unread a)
    (hstored : e ∈ ((ledger sorting).next L call).store.mDeque) :
    e ∈ (((ledger sorting).next L call).handed a).flatten ∨
      e ∈ ((ledger sorting).next L call).store.unread a := by
  rcases h with h | h
  · exact Or.inl (handed_kept hspare h)
  rw [ledger_next_store] at hstored ⊢
  cases call with
  | subscribe b =>
    right
    have hne : b ≠ a := fun he => hspare he.symm
    simpa [PickStore.unread, PickStore.subscribe, Std.ExtTreeMap.getElem?_insert, hne] using h
  | subscribeSince b startTime now =>
    right
    have hne : b ≠ a := fun he => hspare he.symm
    rw [next_subscribeSince]
    split
    · exact h
    · simpa [PickStore.unread, Std.ExtTreeMap.getElem?_insert, hne] using h
  | unsubscribe b =>
    right
    have hne : b ≠ a := fun he => hspare he.symm
    simpa [PickStore.unread, PickStore.unsubscribe, Std.ExtTreeMap.getElem?_erase, hne] using h
  | enqueue r pick now => exact Or.inr (enqueue_spared r pick now h hstored)
  | getPicks b n =>
    by_cases hn : 1 ≤ n
    · rw [ledger_next_getPicks sorting L b hn, next_getPicks sorting L.store b hn]
      by_cases hb : a = b
      · subst hb
        rcases read_spared hord hn hspare h with hbatch | ⟨hrest, -⟩
        · left
          simp [hbatch]
        · exact Or.inr hrest
      · right
        have hne : b ≠ a := fun he => hb he.symm
        rw [PickStore.unread, PickStore.markRead_cursor_ne _ hne, PickStore.markRead_mDeque]
        exact h
    · rw [next_getPicks_of_lt sorting L.store b (by omega)]
      exact Or.inr h

end Step

section Run

variable {sorting : Sorting Int64 Pick} {L : Ledger Pick} {a : UInt64} {e : Int64 × Pick}

theorem handed_kept_run {calls : List (Call Pick)}
    (hspare : (ledger sorting).Meets (Spares a e) L calls) (h : e ∈ (L.handed a).flatten) :
    e ∈ (((ledger sorting).final L calls).handed a).flatten := by
  have keep (L : Ledger Pick) (call : Call Pick) (h : e ∈ (L.handed a).flatten)
      (hspare : Spares a e L call) : e ∈ (((ledger sorting).next L call).handed a).flatten :=
    handed_kept hspare h
  exact Machine.invariant _ keep h hspare

theorem spared_run {calls : List (Call Pick)} (hord : Ordered L.store.mDeque)
    (hspare : (ledger sorting).Meets (Spares a e) L calls)
    (h : e ∈ (L.handed a).flatten ∨ e ∈ L.store.unread a) :
    (∃ before, before <+: calls ∧ e ∉ ((ledger sorting).final L before).store.mDeque) ∨
      e ∈ (((ledger sorting).final L calls).handed a).flatten ∨
        e ∈ ((ledger sorting).final L calls).store.unread a := by
  induction calls generalizing L with
  | nil => exact Or.inr h
  | cons call calls ih =>
    by_cases hstored : e ∈ ((ledger sorting).next L call).store.mDeque
    · have hord' : Ordered ((ledger sorting).next L call).store.mDeque :=
        next_ordered sorting L.store call hord
      rcases ih hord' hspare.2 (spared_step hord call hspare.1 h hstored) with hgone | hkept
      · obtain ⟨before, hbefore, hevicted⟩ := hgone
        exact Or.inl ⟨call :: before, List.cons_prefix_cons.mpr ⟨rfl, hbefore⟩, hevicted⟩
      · exact Or.inr hkept
    · exact Or.inl ⟨[call], List.cons_prefix_cons.mpr ⟨rfl, List.nil_prefix⟩, hstored⟩

/-- Reading on hands out an unread entry: every read before that leaves less unread. -/
theorem reads_hand_out (hord : Ordered L.store.mDeque) {n : ℤ} (hn : 1 ≤ n) {k : ℕ}
    (hspare : (ledger sorting).Meets (Spares a e) L (List.replicate k (.getPicks a n)))
    (hk : (L.store.unread a).length ≤ k) (h : e ∈ L.store.unread a) :
    e ∈ (((ledger sorting).final L (List.replicate k (.getPicks a n))).handed a).flatten := by
  induction k generalizing L with
  | zero => simp [List.eq_nil_of_length_eq_zero (Nat.le_zero.mp hk)] at h
  | succ k ih =>
    rw [List.replicate_succ] at hspare ⊢
    obtain ⟨hfirst, hlater⟩ := hspare
    have hnext := ledger_next_getPicks sorting L a hn
    rw [Machine.final_cons]
    rcases read_spared hord hn hfirst h with hbatch | ⟨hunread, hrest⟩
    · apply handed_kept_run hlater
      rw [hnext]
      simp [hbatch]
    · have hlen := length_rest_lt (show 1 ≤ n.toNat by omega) (List.ne_nil_of_mem h)
      apply ih ?_ hlater ?_ ?_
      · rw [hnext]
        exact (PickStore.markRead_mDeque L.store a _).symm ▸ hord
      · rw [hnext]
        change ((L.store.markRead a _).unread a).length ≤ k
        rw [hrest]
        omega
      · rw [hnext]
        exact hunread

end Run

/-- Right after the enqueue the pick is unread for just the subscribers whose cursor covers it. -/
theorem unread_enqueue_iff (sorting : Sorting Int64 Pick) {s : PickStore Pick}
    (hord : Ordered s.mDeque) {a : UInt64} {c r now : Int64} (hc : s.mCursorMap[a]? = some c)
    (pick : Pick) :
    (r, pick) ∈ (s.enqueue sorting r pick now).unread a ↔ Covers s c r now := by
  have hcursor := PickStore.enqueue_cursor sorting s r pick now a
  rw [hc, Option.map_some] at hcursor
  have hstored : (r, pick) ∈ (s.enqueue sorting r pick now).mDeque :=
    PickStore.mem_insertPick.mpr (Or.inr rfl)
  rw [PickStore.unread_of_cursor hcursor, mem_since, and_iff_right hstored]
  by_cases hmax : c = MAX_TIME
  · rw [Covers, if_pos hmax, if_pos hmax]
    constructor
    · intro hle x hx
      have hnewest := (s.exists_newestAfter sorting hord r pick now).2 x
        (PickStore.mem_insertPick.mpr (Or.inl hx))
      exact hnewest.trans hle
    · intro hall
      exact (s.newestAfter_of_le sorting pick now hall).le
  · rw [Covers, if_neg hmax, if_neg hmax]

/-- A pick enqueued late, or at any other time, is not lost to a subscriber whose cursor has not
passed its received time, as long as no later batch ends between it and a pick tied with it. -/
theorem late_pick_not_lost (sorting : Sorting Int64 Pick) {s : PickStore Pick}
    (hs : Reachable sorting s) {a : UInt64} {c : Int64} (hc : s.mCursorMap[a]? = some c)
    {r now : Int64} (hcovers : Covers s c r now) (pick : Pick) (later : List (Call Pick)) {n : ℤ}
    (hn : 1 ≤ n)
    (hlater : (ledger sorting).Meets (Spares a (r, pick))
      (Ledger.opened (s.enqueue sorting r pick now)) later)
    (hreads : (ledger sorting).Meets (Spares a (r, pick))
      ((ledger sorting).final (Ledger.opened (s.enqueue sorting r pick now)) later)
      (readAll ((ledger sorting).final (Ledger.opened (s.enqueue sorting r pick now)) later) a n)) :
    NotLost sorting (Ledger.opened (s.enqueue sorting r pick now)) later a n (r, pick) := by
  have hord : Ordered (s.enqueue sorting r pick now).mDeque :=
    next_ordered sorting s (.enqueue r pick now) hs.ordered
  have hunread := (unread_enqueue_iff sorting hs.ordered hc pick).mpr hcovers
  rcases spared_run hord hlater (Or.inr hunread) with hgone | hhanded | hleft
  · exact Or.inl hgone
  · exact Or.inr (Or.inl hhanded)
  · right; right
    apply reads_hand_out _ hn hreads _ hleft
    · rw [ledger_store]
      exact Machine.invariant_of_step _ (fun s call => next_ordered sorting s call) later hord
    · exact (PickStore.unread_sublist _ a).length_le

section Exact

variable {sorting : Sorting Int64 Pick} {L : Ledger Pick} {a : UInt64} {e : Int64 × Pick}

theorem ledger_reads_handed (hord : Ordered L.store.mDeque)
    (hmax : ∀ x ∈ L.store.mDeque, x.1 ≠ MAX_TIME) {n : ℤ} (hn : 1 ≤ n) (k : ℕ) :
    (((ledger sorting).final L (List.replicate k (.getPicks a n))).handed a).flatten =
      (L.handed a).flatten ++ (batches n.toNat k (L.store.unread a)).flatten := by
  induction k generalizing L with
  | zero => simp [batches]
  | succ k ih =>
    have hd := PickStore.markRead_mDeque L.store a (L.store.batch a n)
    have hrest := L.store.unread_markRead hord a n fun x hx => hmax x (L.store.mem_of_mem_batch hx)
    rw [List.replicate_succ, Machine.final_cons, ledger_next_getPicks sorting L a hn,
      ih (by rw [hd]; exact hord) (by rw [hd]; exact hmax), hrest]
    simp [batches, PickStore.batch]

/-- A stored pick that was not handed out and is not unread is lost. -/
theorem lost_of_not_unread (hord : Ordered L.store.mDeque)
    (hmax : ∀ x ∈ L.store.mDeque, x.1 ≠ MAX_TIME) (hstored : e ∈ L.store.mDeque)
    (hhanded : e ∉ (L.handed a).flatten) (hunread : e ∉ L.store.unread a) {n : ℤ} (hn : 1 ≤ n) :
    ¬ NotLost sorting L [] a n e := by
  intro hcases
  rcases hcases with ⟨before, hbefore, hgone⟩ | h | h
  · rw [List.prefix_nil.mp hbefore] at hgone
    exact hgone hstored
  · exact hhanded h
  · rw [Machine.final_nil, readAll, ledger_reads_handed hord hmax hn] at h
    rcases List.mem_append.mp h with h | h
    · exact hhanded h
    · exact hunread ((batches_flatten_sublist (by omega) _ _).subset h)

/-- The condition on the cursor is exact: a pick it does not cover is lost at once. -/
theorem uncovered_lost {s : PickStore Pick} (hord : Ordered s.mDeque)
    (hmax : ∀ x ∈ s.mDeque, x.1 ≠ MAX_TIME) {c r now : Int64} (hc : s.mCursorMap[a]? = some c)
    (hr : r ≠ MAX_TIME) (hcovers : ¬ Covers s c r now) (pick : Pick) {n : ℤ} (hn : 1 ≤ n) :
    ¬ NotLost sorting (Ledger.opened (s.enqueue sorting r pick now)) [] a n (r, pick) := by
  have hsub : (s.cleanDequeAt now).mDeque.Sublist s.mDeque := PickStore.cleanDeque_sublist _ _
  apply lost_of_not_unread (next_ordered sorting s (.enqueue r pick now) hord)
  · intro x hx
    rcases PickStore.mem_insertPick.mp hx with hx | rfl
    · exact hmax x (hsub.subset hx)
    · exact hr
  · exact PickStore.mem_insertPick.mpr (Or.inr rfl)
  · exact List.not_mem_nil
  · exact fun h => hcovers ((unread_enqueue_iff sorting hord hc pick).mp h)
  · exact hn

/-- So is the one on the batches: a pick passed over stays behind the cursor. -/
theorem passed_over_lost (hord : Ordered L.store.mDeque)
    (hmax : ∀ x ∈ L.store.mDeque, x.1 ≠ MAX_TIME) (hhanded : e ∉ (L.handed a).flatten) {m : ℤ}
    (hm : 1 ≤ m) (hsplit : ¬ Spares a e L (.getPicks a m)) (hbatch : e ∉ L.store.batch a m)
    {n : ℤ} (hn : 1 ≤ n) :
    ¬ NotLost sorting ((ledger sorting).next L (.getPicks a m)) [] a n e := by
  have hd := PickStore.markRead_mDeque L.store a (L.store.batch a m)
  simp only [Spares, not_forall, not_not] at hsplit
  obtain ⟨-, -, x, hx, htied, hdrop⟩ := hsplit
  have hstored : e ∈ L.store.mDeque :=
    (L.store.unread_sublist a).subset (List.mem_of_mem_drop hdrop)
  have hlast := L.store.batch_getLast? hm hx
  rw [ledger_next_getPicks sorting L a hm]
  apply lost_of_not_unread (by rw [hd]; exact hord) (by rw [hd]; exact hmax)
    (by rw [hd]; exact hstored)
  · simp [hhanded, hbatch]
  · have hu : Ordered (L.store.unread a) := hord.sublist (L.store.unread_sublist a)
    change e ∉ (L.store.markRead a _).unread a
    rw [L.store.unread_markRead hord a m fun y hy => hmax y (L.store.mem_of_mem_batch hy),
      rest_eq_after hu hlast]
    intro h
    exact absurd htied (mem_after.mp h).2.ne
  · exact hn

end Exact

/-- Two stored picks and two readers: one that has read them, one without a start time. -/
def twoRead : PickStore ℕ :=
  (pickStore (Sorting.stable Int64 ℕ)).final (Construction.build (Sorting.stable Int64 ℕ) (.new {}))
    [.subscribeSince 101 0 60, .subscribeSince 103 0 60, .enqueue 10 100 60, .enqueue 12 120 60,
      .getPicks 101 8, .subscribe 102]

/-- A third reader, that has read nothing yet, does get the pick that came late. -/
theorem late_pick_not_lost_twoRead :
    NotLost (Sorting.stable Int64 ℕ)
      (Ledger.opened (twoRead.enqueue (Sorting.stable Int64 ℕ) 11 110 60))
      [.getPicks 103 1, .enqueue 9 90 60] 103 1 (11, 110) :=
  late_pick_not_lost (c := 0) (Sorting.stable Int64 ℕ) ⟨_, _, rfl⟩ (by decide) (by decide) 110
    [.getPicks 103 1, .enqueue 9 90 60] (by decide) (by decide) (by decide)

/-- The other two never get it: one has read past it, one starts at the newest pick. -/
theorem twoRead_late_pick_lost :
    ¬ NotLost (Sorting.stable Int64 ℕ)
        (Ledger.opened (twoRead.enqueue (Sorting.stable Int64 ℕ) 11 110 60)) [] 101 1 (11, 110) ∧
      ¬ NotLost (Sorting.stable Int64 ℕ)
        (Ledger.opened (twoRead.enqueue (Sorting.stable Int64 ℕ) 11 110 60)) [] 102 1
        (11, 110) := by
  constructor
  · exact uncovered_lost (c := 13) (Reachable.ordered ⟨_, _, rfl⟩) (by decide) (by decide) (by decide) (by decide) 110
      (by decide)
  · exact uncovered_lost (c := MAX_TIME) (Reachable.ordered ⟨_, _, rfl⟩) (by decide) (by decide) (by decide)
      (by decide) 110 (by decide)

end PickBroker
