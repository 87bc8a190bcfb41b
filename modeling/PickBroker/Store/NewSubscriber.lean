import PickBroker.Store.Operations

namespace PickBroker

open Framework

variable {Pick : Type*}

/-- Entries to enqueue, each with the clock reading of its call. -/
def enqueues (items : List ((Int64 × Pick) × Int64)) : List (Call Pick) :=
  items.map fun item => .enqueue item.1.1 item.1.2 item.2

/-- The cleaning of an enqueue finds nothing to evict. -/
def EvictsNothing (s : PickStore Pick) : Call Pick → Prop
  | .enqueue _ _ now => (s.cleanDequeAt now).mDeque = s.mDeque
  | _ => True

instance [DecidableEq Pick] (s : PickStore Pick) (call : Call Pick) :
    Decidable (EvictsNothing s call) :=
  match call with
  | .enqueue _ _ now => inferInstanceAs (Decidable ((s.cleanDequeAt now).mDeque = s.mDeque))
  | .subscribe _ | .subscribeSince _ _ _ | .unsubscribe _ | .getPicks _ _ => .isTrue trivial

/-- A call that allows for all new entries hands out exactly these. -/
def HandsOut (sorting : Sorting Int64 Pick) (s : PickStore Pick) (a : UInt64)
    (new : List (Int64 × Pick)) : Prop :=
  ∀ n : ℤ, new.length ≤ n →
    (pickStore sorting).answer s (.getPicks a n) = .picks ((s.batch a n).map Prod.snd) ∧
      (s.batch a n).Perm new

/-- A cursor that the next enqueue does not rewrite: it is set, or the newest pick is stored at
MAX_TIME. -/
def Settled (s : PickStore Pick) (c : Int64) : Prop :=
  c = MAX_TIME → ∃ e ∈ s.mDeque, e.1 = MAX_TIME

section Enqueue

variable {s : PickStore Pick} {r : Int64} {pick : Pick} {now : Int64}

theorem enqueue_perm (sorting : Sorting Int64 Pick)
    (hkeep : EvictsNothing s (.enqueue r pick now)) :
    (s.enqueue sorting r pick now).mDeque.Perm (s.mDeque ++ [(r, pick)]) := by
  have h := PickStore.insertPick_perm sorting (s.cleanDequeAt now).mDeque (r, pick)
  have hdeque : (s.cleanDequeAt now).mDeque = s.mDeque := hkeep
  rw [hdeque] at h
  rw [PickStore.enqueue_mDeque, hdeque]
  exact h

/-- A settled cursor stays where it is. -/
theorem Settled.enqueue (sorting : Sorting Int64 Pick) (hord : Ordered s.mDeque) {c : Int64}
    (h : Settled s c) (hkeep : EvictsNothing s (.enqueue r pick now)) {a : UInt64}
    (hc : s.mCursorMap[a]? = some c) :
    Settled (s.enqueue sorting r pick now) c ∧
      (s.enqueue sorting r pick now).mCursorMap[a]? = some c := by
  have hperm := enqueue_perm sorting hkeep
  have hmem (e : Int64 × Pick) (he : e ∈ s.mDeque) : e ∈ (s.enqueue sorting r pick now).mDeque :=
    hperm.mem_iff.mpr (List.mem_append_left _ he)
  constructor
  · intro hmax
    obtain ⟨e, he, ht⟩ := h hmax
    exact ⟨e, hmem e he, ht⟩
  · rw [PickStore.enqueue_cursor, hc, Option.map_some]
    by_cases hmax : c = MAX_TIME
    · obtain ⟨e, he, ht⟩ := h hmax
      have hle := (s.exists_newestAfter sorting hord r pick now).2 e (hmem e he)
      rw [ht] at hle
      have hnewest := le_antisymm (Int64.le_maxValue _) hle
      rw [if_pos hmax, hnewest, hmax]
      rfl
    · rw [if_neg hmax]

/-- The first enqueue after a subscription puts the cursor at the newest stored pick. -/
theorem enqueue_settles (sorting : Sorting Int64 Pick) (hord : Ordered s.mDeque) {a : UInt64}
    (hc : s.mCursorMap[a]? = some MAX_TIME) (r : Int64) (pick : Pick) (now : Int64) :
    Settled (s.enqueue sorting r pick now) (s.newestAfter sorting r pick now) ∧
      (s.enqueue sorting r pick now).mCursorMap[a]? = some (s.newestAfter sorting r pick now) := by
  obtain ⟨e, he, ht⟩ := (s.exists_newestAfter sorting hord r pick now).1
  constructor
  · intro hmax
    exact ⟨e, he, ht.trans hmax⟩
  · rw [PickStore.enqueue_cursor, hc]
    simp

end Enqueue

/-- Enqueues that evict nothing add their entries and keep every settled cursor. -/
theorem final_enqueues (sorting : Sorting Int64 Pick) {s : PickStore Pick}
    (hord : Ordered s.mDeque) {items : List ((Int64 × Pick) × Int64)}
    (hkeep : (pickStore sorting).Meets EvictsNothing s (enqueues items)) {a : UInt64} {c : Int64}
    (hc : s.mCursorMap[a]? = some c) (h : Settled s c) :
    ((pickStore sorting).final s (enqueues items)).mDeque.Perm
        (s.mDeque ++ items.map Prod.fst) ∧
      ((pickStore sorting).final s (enqueues items)).mCursorMap[a]? = some c := by
  induction items generalizing s with
  | nil => simp [enqueues, hc]
  | cons item items ih =>
    obtain ⟨hfirst, hlater⟩ := hkeep
    obtain ⟨h', hc'⟩ := h.enqueue sorting hord hfirst hc
    obtain ⟨hperm, hcursor⟩ := ih (next_ordered sorting s _ hord) hlater hc' h'
    refine ⟨?_, hcursor⟩
    have hstep := (enqueue_perm sorting hfirst).append_right (items.map Prod.fst)
    rw [List.append_assoc] at hstep
    exact hperm.trans hstep

/-- What a new subscriber finds after some enqueues is what stands at or after the newest pick
right after the first of them. -/
theorem unread_new_subscriber (sorting : Sorting Int64 Pick) {s : PickStore Pick}
    (hord : Ordered s.mDeque) {a : UInt64} (hc : s.mCursorMap[a]? = some MAX_TIME)
    {item : (Int64 × Pick) × Int64} {items : List ((Int64 × Pick) × Int64)}
    (hkeep : (pickStore sorting).Meets EvictsNothing s (enqueues (item :: items))) :
    (((pickStore sorting).final s (enqueues (item :: items))).unread a).Perm
      (since (s.newestAfter sorting item.1.1 item.1.2 item.2) s.mDeque ++
        since (s.newestAfter sorting item.1.1 item.1.2 item.2) ((item :: items).map Prod.fst)) := by
  obtain ⟨hfirst, hlater⟩ := hkeep
  obtain ⟨hsettled, hcursor⟩ := enqueue_settles sorting hord hc item.1.1 item.1.2 item.2
  have hord' := next_ordered sorting s (.enqueue item.1.1 item.1.2 item.2) hord
  obtain ⟨hperm, hend⟩ := final_enqueues sorting hord' hlater hcursor hsettled
  have hall := hperm.trans ((enqueue_perm sorting hfirst).append_right _)
  rw [List.append_assoc] at hall
  rw [← since_append, enqueues, List.map_cons, Machine.final_cons]
  exact (PickStore.unread_of_cursor hend).symm ▸ hall.filter _

/-- The answer holds all that is unread when the maximum allows for it. -/
theorem handsOut_iff (sorting : Sorting Int64 Pick) (s : PickStore Pick) (a : UInt64)
    {new : List (Int64 × Pick)} (hnew : new ≠ []) :
    HandsOut sorting s a new ↔ (s.unread a).Perm new := by
  have hpos : 1 ≤ new.length := List.length_pos_iff.mpr hnew
  constructor
  · intro h
    have hbatch := (h (max new.length (s.unread a).length) (le_max_left _ _)).2
    rwa [PickStore.batch, List.take_of_length_le (by omega)] at hbatch
  · intro h n hn
    refine ⟨answer_getPicks sorting s a (by omega), ?_⟩
    rwa [PickStore.batch, List.take_of_length_le (by have := h.length_eq; omega)]

/-- A subscriber without a start time gets exactly the new picks when the first of them is newer
than every stored one and no later one is older than the first. -/
theorem new_subscriber_iff (sorting : Sorting Int64 Pick) {s : PickStore Pick}
    (hs : Reachable sorting s) (a : UInt64) (item : (Int64 × Pick) × Int64)
    (items : List ((Int64 × Pick) × Int64))
    (hkeep : (pickStore sorting).Meets EvictsNothing (s.subscribe a) (enqueues (item :: items))) :
    HandsOut sorting ((pickStore sorting).final (s.subscribe a) (enqueues (item :: items))) a
        ((item :: items).map Prod.fst) ↔
      (∀ e ∈ s.mDeque, e.1 < item.1.1) ∧ ∀ later ∈ items, item.1.1 ≤ later.1.1 := by
  have hord : Ordered (s.subscribe a).mDeque := hs.ordered
  have hc : (s.subscribe a).mCursorMap[a]? = some MAX_TIME := by simp [PickStore.subscribe]
  have hunread := unread_new_subscriber sorting hord hc hkeep
  have hclean : ((s.subscribe a).cleanDequeAt item.2).mDeque = s.mDeque := hkeep.1
  rw [handsOut_iff sorting _ a (by simp)]
  obtain ⟨⟨y, hy, hyn⟩, -⟩ := (s.subscribe a).exists_newestAfter sorting hord item.1.1 item.1.2
    item.2
  have hmem : y ∈ s.mDeque ∨ y = item.1 := by
    rw [PickStore.enqueue_mDeque, hclean] at hy
    exact PickStore.mem_insertPick.mp hy
  have hle := fun h => (s.subscribe a).newestAfter_of_le sorting item.1.2 item.2
    (r := item.1.1) (by rw [hclean]; exact h)
  generalize (s.subscribe a).newestAfter sorting item.1.1 item.1.2 item.2 = t at hunread hyn hle
  constructor
  · intro hperm
    have hsame := hunread.symm.trans hperm
    have hnew : since t ((item :: items).map Prod.fst) = (item :: items).map Prod.fst := by
      apply since_eq_self
      intro e he
      rcases List.mem_append.mp (hsame.mem_iff.mpr he) with h | h
      · exact (mem_since.mp h).2
      · exact (mem_since.mp h).2
    have hnone : since t s.mDeque = [] := by
      have hlen := hsame.length_eq
      rw [List.length_append, hnew] at hlen
      exact List.eq_nil_of_length_eq_zero (Nat.add_eq_right.mp hlen)
    have hold : ∀ e ∈ s.mDeque, e.1 < t := fun e he => not_le.mp fun h =>
      List.not_mem_nil (hnone ▸ mem_since.mpr ⟨he, h⟩)
    have hfirst : item.1.1 = t := by
      rcases hmem with h | rfl
      · exact absurd hyn (hold y h).ne
      · exact hyn
    rw [hfirst]
    refine ⟨hold, ?_⟩
    intro later hlater
    have hin : later.1 ∈ since t ((item :: items).map Prod.fst) := by
      rw [hnew]
      exact List.mem_map_of_mem (List.mem_cons_of_mem _ hlater)
    exact (mem_since.mp hin).2
  · intro hparts
    obtain ⟨hold, hlater⟩ := hparts
    have ht : t = item.1.1 := hle fun e he => (hold e he).le
    have hnone : since t s.mDeque = [] := since_eq_nil fun e he => ht ▸ hold e he
    have hnew : since t ((item :: items).map Prod.fst) = (item :: items).map Prod.fst := by
      apply since_eq_self
      intro e he
      obtain ⟨i, hi, rfl⟩ := List.mem_map.mp he
      rcases List.mem_cons.mp hi with rfl | hi
      · exact ht.le
      · exact ht.le.trans (hlater i hi)
    rw [hnew] at hunread
    change List.Perm _ (since t s.mDeque ++ _) at hunread
    rwa [hnone, List.nil_append] at hunread

/-- One stored pick, received at 10. -/
def oneStored : PickStore ℕ :=
  (pickStore (Sorting.stable Int64 ℕ)).final
    (Construction.build (Sorting.stable Int64 ℕ) (.new {})) [.enqueue 10 100 60]

theorem new_subscriber_oneStored :
    HandsOut (Sorting.stable Int64 ℕ)
        ((pickStore (Sorting.stable Int64 ℕ)).final (oneStored.subscribe 101)
          (enqueues [((12, 120), 60), ((12, 121), 60)])) 101
        ([((12, 120), 60), ((12, 121), 60)].map Prod.fst) ↔
      (∀ e ∈ oneStored.mDeque, e.1 < 12) ∧
        ∀ later ∈ [(((12, 121), 60) : (Int64 × ℕ) × Int64)], 12 ≤ later.1.1 :=
  new_subscriber_iff (Sorting.stable Int64 ℕ) ⟨_, _, rfl⟩ 101 ((12, 120), 60) [((12, 121), 60)]
    (by decide)

/-- A pick received before the stored one: the subscriber gets the stored one instead. -/
theorem oneStored_old_pick_handed_out :
    ¬ HandsOut (Sorting.stable Int64 ℕ)
        ((pickStore (Sorting.stable Int64 ℕ)).final (oneStored.subscribe 101)
          (enqueues [((5, 50), 60)])) 101 [(5, 50)] := by
  intro h
  have hbatch := (h 1 (by decide)).2
  revert hbatch
  decide

end PickBroker
