import PickBroker.Framework.Feeds
import PickBroker.Store.Refinement

namespace PickBroker

open Framework

variable {Pick : Type*}

/-- The start time that a cursor stands for when it is put in the map. -/
def startOf (cursor : Int64) : Option Int64 := if cursor = MAX_TIME then none else some cursor

/-- A time behind all that has entered. -/
def Later (entered : List (Int64 × Pick)) (r : Int64) : Prop := ∀ e ∈ entered, e.1 < r

/-- The store of one subscriber against its history: all that is stored has entered, in strictly
increasing order, and the cursor stands for what waits. -/
structure Feeds (s : PickStore Pick) (a : UInt64) (entered : List (Int64 × Pick))
    (F : Feed Int64 Pick) : Prop where
  stored : s.mDeque.Sublist entered
  cursor : ∀ future, (∀ r ∈ future, Later entered r) →
    CursorFor s.mDeque future s.mCursorMap[a]? (some F.sub)

/-- What `cleanDeque` evicts at this reading of the clock. -/
def PickStore.gone (s : PickStore Pick) (now : Int64) (e : Int64 × Pick) : Bool :=
  s.evicts (now - s.mMaxHistory) e

/-- The times of all that has entered go up, and stay below MAX_TIME. -/
structure Increasing (entered : List (Int64 × Pick)) : Prop where
  increasing : entered.Pairwise fun x y => x.1 < y.1
  below : ∀ e ∈ entered, e.1 < MAX_TIME

namespace Increasing

variable {entered : List (Int64 × Pick)}

theorem ordered (h : Increasing entered) : Ordered entered := h.increasing.imp fun hlt => hlt.le

theorem sublist (h : Increasing entered) {l : List (Int64 × Pick)} (hl : l.Sublist entered) :
    Increasing l :=
  ⟨h.increasing.sublist hl, fun e he => h.below e (hl.subset he)⟩

theorem front {l k : List (Int64 × Pick)} (h : Increasing (l ++ k)) : Increasing l :=
  h.sublist (List.sublist_append_left l k)

theorem later {l : List (Int64 × Pick)} {e : Int64 × Pick} (h : Increasing (l ++ [e])) :
    Later l e.1 := by
  intro x hx
  exact (List.pairwise_append.mp h.increasing).2.2 x hx e (List.mem_singleton_self e)

/-- Sorting leaves a list whose times go up as it is. -/
theorem sort_eq (sorting : Sorting Int64 Pick) {l : List (Int64 × Pick)} (h : Increasing l) : sorting.sort l = l := by
  have hnodup : ((sorting.sort l).map Prod.fst).Nodup := by
    rw [((sorting.perm l).map Prod.fst).nodup_iff]
    exact List.pairwise_map.mpr (h.increasing.imp fun hlt => hlt.ne)
  have hstrict : (sorting.sort l).Pairwise fun x y => x.1 < y.1 :=
    (sorting.ordered l).imp₂ (fun _ _ hle hne => lt_of_le_of_ne hle hne)
      (List.pairwise_map.mp hnodup)
  apply (sorting.perm l).eq_of_pairwise ?_ hstrict h.increasing
  intro x y _ _ hxy hyx
  exact absurd hyx hxy.not_gt

end Increasing

section Store

variable {s : PickStore Pick} {entered : List (Int64 × Pick)}

theorem cleanDequeAt_mDeque (s : PickStore Pick) (h : Ordered s.mDeque) (now : Int64) :
    (s.cleanDequeAt now).mDeque = s.mDeque.filter fun e => !s.gone now e :=
  s.cleanDeque_mDeque h _

/-- A pick later than all that has entered goes to the back of what the cleaning leaves. -/
theorem enqueue_mDeque_of_later (sorting : Sorting Int64 Pick) (hs : s.mDeque.Sublist entered)
    (h : Increasing entered) {r : Int64} (hr : Later entered r) (pick : Pick) (now : Int64) :
    (s.enqueue sorting r pick now).mDeque =
      (s.mDeque.filter fun e => !s.gone now e) ++ [(r, pick)] := by
  have hkept := cleanDequeAt_mDeque s (h.sublist hs).ordered now
  have hold : ∀ e ∈ (s.cleanDequeAt now).mDeque, e.1 ≤ r := by
    intro e he
    rw [hkept] at he
    exact (hr e (hs.subset (List.mem_filter.mp he).1)).le
  rw [PickStore.enqueue_mDeque, PickStore.insertPick_of_le sorting hold, hkept]

theorem stored_enqueue (sorting : Sorting Int64 Pick) (hs : s.mDeque.Sublist entered)
    (h : Increasing entered) {r : Int64} (hr : Later entered r) (pick : Pick) (now : Int64) :
    (s.enqueue sorting r pick now).mDeque.Sublist (entered ++ [(r, pick)]) := by
  rw [enqueue_mDeque_of_later sorting hs h hr]
  exact (List.filter_sublist.trans hs).append_right [(r, pick)]

theorem stored_cleanDequeAt (hs : s.mDeque.Sublist entered) (now : Int64) :
    (s.cleanDequeAt now).mDeque.Sublist entered := (s.cleanDeque_sublist _).trans hs

end Store

namespace Feeds

variable {s : PickStore Pick} {a : UInt64} {entered : List (Int64 × Pick)}
  {F : Feed Int64 Pick}

/-- What waits for the subscriber is what `getPicks` would hand it. -/
theorem unread (h : Feeds s a entered F) : s.unread a = F.sub.pending := by
  have hc := h.cursor [] (by simp)
  generalize hcur : s.mCursorMap[a]? = cur at hc
  cases hc with
  | present pending _ _ => rw [PickStore.unread_of_cursor hcur, pending]

theorem subscribe (s : PickStore Pick) (a : UInt64) (c : Int64) :
    Feeds { s with mCursorMap := s.mCursorMap.insert a c } a s.mDeque
      (Feed.opened { start := startOf c, pending := since c s.mDeque }) := by
  refine ⟨List.Sublist.refl _, ?_⟩
  intro future _
  rw [Std.ExtTreeMap.getElem?_insert_self]
  refine .present rfl ?_ ?_
  · intro e he b hb
    rw [startOf] at hb
    split at hb
    · cases hb
    · cases hb
      exact (mem_since.mp he).2
  · intro r _
    by_cases hc : c = MAX_TIME <;> simp [startOf, hc, Entitled, Feed.opened]

/-- Nothing that happens to the cursors of others matters. -/
theorem other (h : Feeds s a entered F) {s' : PickStore Pick} (hdeque : s'.mDeque = s.mDeque)
    (hcursor : s'.mCursorMap[a]? = s.mCursorMap[a]?) : Feeds s' a entered F := by
  refine ⟨by rw [hdeque]; exact h.stored, ?_⟩
  rw [hdeque, hcursor]
  exact h.cursor

theorem clean (h : Feeds s a entered F) (hinc : Increasing entered) (now : Int64) :
    Feeds (s.cleanDequeAt now) a entered (F.evict (s.gone now)) := by
  have hkept := cleanDequeAt_mDeque s (hinc.sublist h.stored).ordered now
  refine ⟨stored_cleanDequeAt h.stored now, ?_⟩
  intro future hfuture
  have hc := h.cursor future hfuture
  have hmap : (s.cleanDequeAt now).mCursorMap = s.mCursorMap := PickStore.cleanDeque_mCursorMap _ _
  rw [hmap, hkept]
  generalize s.mCursorMap[a]? = cur at hc
  cases hc with
  | present pending entitled ahead =>
    refine .present ?_ (fun e he => entitled e (List.mem_filter.mp he).1) ahead
    simp only [Feed.evict, pending]
    rw [since, since, List.filter_filter, List.filter_filter]
    exact List.filter_congr fun e _ => Bool.and_comm _ _

theorem enqueue (h : Feeds s a entered F) (sorting : Sorting Int64 Pick) {r : Int64} {pick : Pick}
    (hinc : Increasing (entered ++ [(r, pick)])) (now : Int64) :
    Feeds (s.enqueue sorting r pick now) a (entered ++ [(r, pick)])
      ((F.evict (s.gone now)).publish (r, pick)) := by
  have hlater := hinc.later
  have hold := hinc.front
  have hdeque := enqueue_mDeque_of_later sorting h.stored hold hlater pick now
  have hkept := cleanDequeAt_mDeque s (hold.sublist h.stored).ordered now
  refine ⟨stored_enqueue sorting h.stored hold hlater pick now, ?_⟩
  intro future hfuture
  have hc := h.cursor (r :: future) (by
    intro t ht
    rcases List.mem_cons.mp ht with rfl | ht
    · exact hlater
    · exact fun e he => hfuture t ht e (List.mem_append_left _ he))
  have hfilter : (s.mDeque.filter fun e => !s.gone now e) =
      s.mDeque.filter fun e => !s.gone now e := rfl
  have hmove := hc.enqueue (fun e he => hold.below e (h.stored.subset he)) hfilter
    (fun t ht => hfuture t ht (r, pick) (by simp)) (fun e he => hlater e (h.stored.subset he)) pick
  have hnewest : s.newestAfter sorting r pick now = r := by
    apply PickStore.newestAfter_of_le
    intro e he
    rw [hkept] at he
    exact (hlater e (h.stored.subset (List.mem_filter.mp he).1)).le
  rw [PickStore.enqueue_cursor, hnewest, hdeque, Feed.publish_sub]
  exact hmove

/-- A batch is the front of what waits. -/
theorem getPicks (h : Feeds s a entered F) (hinc : Increasing entered) {n : ℤ} (hn : 1 ≤ n) :
    s.batch a n = F.sub.pending.take n.toNat ∧
      Feeds (s.markRead a (s.batch a n)) a entered (F.fetch n.toNat) := by
  have hbatch : s.batch a n = F.sub.pending.take n.toNat := by rw [PickStore.batch, h.unread]
  refine ⟨hbatch, ?_⟩
  have hstore := hinc.sublist h.stored
  have hsub : s.batch a n ⊆ s.mDeque := fun e he => s.mem_of_mem_batch he
  have hdrop : (s.markRead a (s.batch a n)).unread a = F.sub.pending.drop n.toNat := by
    have hstrict : (s.unread a).Pairwise fun x y => x.1 < y.1 :=
      hstore.increasing.sublist (s.unread_sublist a)
    rw [PickStore.unread_markRead s hstore.ordered a n fun e he => (hstore.below e (hsub he)).ne,
      ← h.unread]
    apply (rest_eq_drop_iff (by omega) (hstrict.imp fun hlt => hlt.le)).mpr
    intro x y hx hy
    obtain ⟨hi, rfl⟩ := List.getElem?_eq_some_iff.mp hx
    obtain ⟨hj, rfl⟩ := List.getElem?_eq_some_iff.mp hy
    exact (List.pairwise_iff_getElem.mp hstrict _ _ hi hj (by omega)).ne
  refine ⟨by rw [PickStore.markRead_mDeque]; exact h.stored, ?_⟩
  intro future hfuture
  have hc := h.cursor future hfuture
  rw [PickStore.markRead_mDeque]
  cases hlast : (s.batch a n).getLast? with
  | none =>
    have hnil := List.getLast?_eq_none_iff.mp hlast
    rw [hnil, PickStore.markRead_nil, h.unread] at hdrop
    rw [hnil, PickStore.markRead_nil]
    have hsame : (F.fetch n.toNat).sub = F.sub := by simp [Feed.fetch, ← hdrop]
    rw [hsame]
    exact hc
  | some e =>
    have he : e ∈ s.batch a n := List.mem_of_getLast? hlast
    have hpending : e ∈ F.sub.pending := by
      rw [hbatch] at he
      exact List.mem_of_mem_take he
    have hcur := PickStore.markRead_cursor_last s (a := a) hlast
    rw [PickStore.unread_of_cursor hcur, PickStore.markRead_mDeque] at hdrop
    rw [hcur]
    generalize s.mCursorMap[a]? = cur at hc
    cases hc with
    | present pending entitled ahead =>
      refine .present hdrop.symm (fun x hx => entitled x (List.mem_of_mem_drop hx)) ?_
      intro r hr
      have hlt : e.1 < r := hfuture r hr e (h.stored.subset (hsub he))
      refine ⟨fun _ b hb => (entitled e hpending b hb).trans hlt.le, fun _ => Or.inr ?_⟩
      exact (add_one_le_iff (hstore.below e (hsub he)).ne).mpr hlt

end Feeds

end PickBroker
