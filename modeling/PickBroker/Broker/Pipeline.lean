import PickBroker.Broker.Broker

namespace PickBroker

open Framework

/-- What the processor has in its hands. -/
inductive Hand where
  | empty
  | taken (receivedTime : Int64) (pick : V1.Pick)
  | duplicate
  | inserted (receivedTime : Int64) (pick : V1.Pick)

namespace Hand

/-- The pick in the processor's hands. -/
def picks : Hand → List V1.Pick
  | .empty | .duplicate => []
  | .taken _ pick | .inserted _ pick => [pick]

/-- The pick in the processor's hands that the database has not been asked to add yet. -/
def unpresented : Hand → List V1.Pick
  | .taken _ pick => [pick]
  | _ => []

/-- The pick in the processor's hands that has got into the table. -/
def unenqueued : Hand → List V1.Pick
  | .inserted _ pick => [pick]
  | _ => []

/-- How many duplicates are not counted yet. -/
def uncounted : Hand → ℕ
  | .duplicate => 1
  | _ => 0

end Hand

def PickProcessor.hand : PickProcessor → Hand
  | .loop | .takePick | .returned => .empty
  | .readDatabase receivedTime pick | .add receivedTime pick => .taken receivedTime pick
  | .countDuplicate => .duplicate
  | .readSubscribeService receivedTime pick | .enqueue receivedTime pick =>
    .inserted receivedTime pick

/-- The broker without its threads: where the picks are on their way from the publishers to the
store, and the table beside it. -/
structure Pipeline (Bytes : Type*) where
  callbacks : List V1.Pick
  queue : List V1.Pick
  hand : Hand
  table : UniqueTable Int64 Bytes
  store : List (Int64 × V1.Pick)
  metrics : MetricsSingleton

def Broker.pipeline {Bytes : Type*} (B : Broker Bytes) : Pipeline Bytes where
  callbacks := B.callbacks
  queue := B.mInputQueue
  hand := B.pickProcessor.hand
  table := B.mDatabase.object.picks
  store := B.mPickStore.mDeque
  metrics := B.mMetrics

def MetricsSingleton.countOverflows (m : MetricsSingleton) (n : ℕ) : MetricsSingleton :=
  { m with mOverflowInputPicksCounter := m.mOverflowInputPicksCounter + Int64.ofNat n }

/-- The actions that move no pick. -/
def Action.quiet : Action → Bool
  | .refused _ | .overran _ | .calledAfterReset _ | .writer _ _ => true
  | _ => false

/-- What a cleaning with a cutoff may leave of the store. -/
structure Cleans (cutoff : Int64) (store kept : List (Int64 × V1.Pick)) : Prop where
  sublist : kept.Sublist store
  keeps : ∀ e ∈ store, ¬ e.1 < cutoff → e ∈ kept

namespace Pipeline

variable {Bytes : Type*} [DecidableEq Bytes] (codec : Codec Bytes) (capacity : ℕ)

/-- Everything that can happen to the picks in one step. -/
inductive Step : Pipeline Bytes → List Action → Pipeline Bytes → Prop
  | idle {P : Pipeline Bytes} {actions : List Action} (h : ∀ a ∈ actions, a.quiet) :
    Step P actions P
  | accept {P : Pipeline Bytes} {popped kept : List V1.Pick} (h : P.queue = popped ++ kept)
    (room : popped.length = P.queue.length + 1 - capacity) (pick : V1.Pick) :
    Step P (popped.map .overflowed ++ [.accepted pick])
      { P with
        callbacks := P.callbacks ++ [pick]
        queue := kept ++ [pick]
        metrics := P.metrics.countOverflows popped.length }
  | ret {P : Pipeline Bytes} {i : ℕ} {pick : V1.Pick} (h : P.callbacks[i]? = some pick) :
    Step P [.returned pick]
      { P with
        callbacks := P.callbacks.eraseIdx i
        metrics := P.metrics.incrementPicksReceivedCounter }
  | take {P : Pipeline Bytes} {pick : V1.Pick} {queue : List V1.Pick} (hand : P.hand = .empty)
    (h : P.queue = pick :: queue) (receivedTime : Int64) :
    Step P [.took pick] { P with queue := queue, hand := .taken receivedTime pick }
  | insert {P : Pipeline Bytes} {receivedTime : Int64} {pick : V1.Pick} {proto : Bytes}
    (hand : P.hand = .taken receivedTime pick) (h : codec.serialize pick = some proto)
    (new : proto ∉ P.table.values) :
    Step P [.inserted receivedTime pick]
      { P with
        hand := .inserted receivedTime pick
        table := P.table.insertOrIgnore (receivedTime, proto) }
  | duplicate {P : Pipeline Bytes} {receivedTime : Int64} {pick : V1.Pick} {proto : Bytes}
    (hand : P.hand = .taken receivedTime pick) (h : codec.serialize pick = some proto)
    (old : proto ∈ P.table.values) :
    Step P [.duplicate pick] { P with hand := .duplicate }
  | count {P : Pipeline Bytes} (hand : P.hand = .duplicate) :
    Step P []
      { P with hand := .empty, metrics := P.metrics.incrementDuplicatePicksReceivedCounter }
  | fail {P : Pipeline Bytes} {receivedTime : Int64} {pick : V1.Pick}
    (hand : P.hand = .taken receivedTime pick) (e : Exception) :
    Step P [.failed pick e] { P with hand := .empty }
  | enqueue {P : Pipeline Bytes} {receivedTime cutoff : Int64} {pick : V1.Pick}
    {kept store : List (Int64 × V1.Pick)} (hand : P.hand = .inserted receivedTime pick)
    (clean : Cleans cutoff P.store kept) (h : store.Perm (kept ++ [(receivedTime, pick)])) :
    Step P [.cleanedBefore cutoff, .enqueued receivedTime pick]
      { P with hand := .empty, store := store }
  | throw {P : Pipeline Bytes} {receivedTime cutoff : Int64} {pick : V1.Pick}
    {kept : List (Int64 × V1.Pick)} (hand : P.hand = .inserted receivedTime pick)
    (clean : Cleans cutoff P.store kept) (e : Exception) :
    Step P [.cleanedBefore cutoff, .notEnqueued pick e]
      { P with hand := .empty, store := kept }
  | delete {P : Pipeline Bytes} (time : Int64) :
    Step P [.deletedBefore time] { P with table := P.table.deleteBefore time }

end Pipeline

/-! What a run has reported so far, sorted by what became of the picks. -/

section Trace

variable (tr : List Action)

def accepted : List V1.Pick := tr.filterMap fun | .accepted pick => some pick | _ => none

def returned : List V1.Pick := tr.filterMap fun | .returned pick => some pick | _ => none

def overflowed : List V1.Pick := tr.filterMap fun | .overflowed pick => some pick | _ => none

def took : List V1.Pick := tr.filterMap fun | .took pick => some pick | _ => none

/-- The picks that have left the queue. -/
def dequeued : List V1.Pick :=
  tr.filterMap fun | .overflowed pick | .took pick => some pick | _ => none

def inserted : List (Int64 × V1.Pick) :=
  tr.filterMap fun | .inserted receivedTime pick => some (receivedTime, pick) | _ => none

def duplicates : List V1.Pick := tr.filterMap fun | .duplicate pick => some pick | _ => none

/-- The picks the database did not take. -/
def rejected : List V1.Pick := tr.filterMap fun | .failed pick _ => some pick | _ => none

/-- The picks the database has been asked to add, whatever it said. -/
def presented : List V1.Pick :=
  tr.filterMap fun
    | .inserted _ pick | .duplicate pick | .failed pick _ => some pick
    | _ => none

def enqueuedPicks : List (Int64 × V1.Pick) :=
  tr.filterMap fun | .enqueued receivedTime pick => some (receivedTime, pick) | _ => none

/-- The picks that got into the table and not into the store. -/
def notEnqueued : List V1.Pick :=
  tr.filterMap fun | .notEnqueued pick _ => some pick | _ => none

/-- The picks that have been handed to the subscribe service, whatever came of it. -/
def handedOver : List V1.Pick :=
  tr.filterMap fun | .enqueued _ pick | .notEnqueued pick _ => some pick | _ => none

/-- The cutoffs of the database cleaner. -/
def deletions : List Int64 := tr.filterMap fun | .deletedBefore time => some time | _ => none

end Trace

section Membership

variable {tr : List Action}

theorem mem_filterMap_iff {α β : Type*} {f : α → Option β} {g : β → α}
    (h : ∀ a b, f a = some b ↔ a = g b) {l : List α} {b : β} : b ∈ l.filterMap f ↔ g b ∈ l := by
  rw [List.mem_filterMap]
  constructor
  · intro hparts
    obtain ⟨a, ha, heq⟩ := hparts
    rwa [(h a b).mp heq] at ha
  · intro hmem
    exact ⟨g b, hmem, (h _ b).mpr rfl⟩

@[simp] theorem mem_deletions {time : Int64} : time ∈ deletions tr ↔ .deletedBefore time ∈ tr :=
  mem_filterMap_iff fun a _ => by cases a <;> simp

@[simp] theorem mem_enqueuedPicks {t : Int64} {pick : V1.Pick} :
    (t, pick) ∈ enqueuedPicks tr ↔ .enqueued t pick ∈ tr :=
  mem_filterMap_iff (g := fun e : Int64 × V1.Pick => Action.enqueued e.1 e.2) fun a _ => by
    cases a <;> simp [Prod.ext_iff]

end Membership

/-- What is neither in one part nor in the other is in none. -/
theorem filterMap_perm {α β : Type*} {f g h : α → Option β}
    (split : ∀ a, (f a = g a ∧ h a = none) ∨ (f a = h a ∧ g a = none)) (l : List α) :
    (l.filterMap f).Perm (l.filterMap g ++ l.filterMap h) := by
  induction l with
  | nil => exact List.Perm.refl _
  | cons a l ih =>
    rcases split a with ⟨hf, hnone⟩ | ⟨hf, hnone⟩
    · cases hg : g a with
      | none => simpa [hf, hg, hnone] using ih
      | some b => simpa [hf, hg, hnone] using ih.cons b
    · cases hh : h a with
      | none => simpa [hf, hh, hnone] using ih
      | some b => simpa [hf, hh, hnone] using (ih.cons b).trans List.perm_middle.symm

theorem filterMap_sublist {α β : Type*} {f g : α → Option β} (h : ∀ a b, f a = some b → g a = some b)
    (l : List α) : (l.filterMap f).Sublist (l.filterMap g) := by
  induction l with
  | nil => exact List.Sublist.slnil
  | cons a l ih =>
    cases hf : f a with
    | some b => simpa [hf, h a b hf] using ih
    | none =>
      cases hg : g a with
      | none => simpa [hf, hg] using ih
      | some b => simpa [hf, hg] using ih.cons b

theorem took_sublist (tr : List Action) : (took tr).Sublist (dequeued tr) := by
  apply filterMap_sublist
  intro a pick h
  cases a <;> simp_all

theorem dequeued_perm (tr : List Action) : (dequeued tr).Perm (overflowed tr ++ took tr) := by
  apply filterMap_perm
  intro a
  cases a <;> simp

theorem presented_perm (tr : List Action) :
    (presented tr).Perm ((inserted tr).map Prod.snd ++ duplicates tr ++ rejected tr) := by
  let known (a : Action) : Option V1.Pick :=
    match a with
    | .inserted _ pick | .duplicate pick => some pick
    | _ => none
  have hknown : (tr.filterMap known).Perm ((inserted tr).map Prod.snd ++ duplicates tr) := by
    rw [inserted, List.map_filterMap]
    apply filterMap_perm
    intro a
    cases a <;> simp [known]
  have hall : (presented tr).Perm (tr.filterMap known ++ rejected tr) := by
    apply filterMap_perm
    intro a
    cases a <;> simp [known]
  exact hall.trans (hknown.append_right _)

theorem handedOver_perm (tr : List Action) :
    (handedOver tr).Perm ((enqueuedPicks tr).map Prod.snd ++ notEnqueued tr) := by
  rw [enqueuedPicks, List.map_filterMap]
  apply filterMap_perm
  intro a
  cases a <;> simp

theorem filterMap_none {α β : Type*} {p : α → Bool} {f : α → Option β}
    (hf : ∀ a, p a → f a = none) {l : List α} (h : ∀ a ∈ l, p a) : l.filterMap f = [] :=
  List.filterMap_eq_nil_iff.mpr fun a ha => hf a (h a ha)

theorem lists_append (tr actions : List Action) :
    accepted (tr ++ actions) = accepted tr ++ accepted actions ∧
      returned (tr ++ actions) = returned tr ++ returned actions ∧
      overflowed (tr ++ actions) = overflowed tr ++ overflowed actions ∧
      took (tr ++ actions) = took tr ++ took actions ∧
      dequeued (tr ++ actions) = dequeued tr ++ dequeued actions ∧
      inserted (tr ++ actions) = inserted tr ++ inserted actions ∧
      duplicates (tr ++ actions) = duplicates tr ++ duplicates actions ∧
      rejected (tr ++ actions) = rejected tr ++ rejected actions ∧
      presented (tr ++ actions) = presented tr ++ presented actions ∧
      enqueuedPicks (tr ++ actions) = enqueuedPicks tr ++ enqueuedPicks actions ∧
      notEnqueued (tr ++ actions) = notEnqueued tr ++ notEnqueued actions ∧
      handedOver (tr ++ actions) = handedOver tr ++ handedOver actions ∧
      deletions (tr ++ actions) = deletions tr ++ deletions actions := by
  refine ⟨?_, ?_, ?_, ?_, ?_, ?_, ?_, ?_, ?_, ?_, ?_, ?_, ?_⟩
  all_goals exact List.filterMap_append

/-- A quiet step is in none of the lists. -/
theorem quiet_lists {actions : List Action} (h : ∀ a ∈ actions, a.quiet) :
    accepted actions = [] ∧ returned actions = [] ∧ overflowed actions = [] ∧ took actions = [] ∧
      dequeued actions = [] ∧ inserted actions = [] ∧ duplicates actions = [] ∧
      rejected actions = [] ∧ presented actions = [] ∧ enqueuedPicks actions = [] ∧
      notEnqueued actions = [] ∧ handedOver actions = [] ∧ deletions actions = [] := by
  refine ⟨?_, ?_, ?_, ?_, ?_, ?_, ?_, ?_, ?_, ?_, ?_, ?_, ?_⟩
  all_goals
    refine filterMap_none ?_ h
    intro a ha
    cases a <;> first | rfl | cases ha

end PickBroker
