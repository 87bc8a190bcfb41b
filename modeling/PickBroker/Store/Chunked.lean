import PickBroker.Store.Operations

namespace PickBroker

open Framework

variable {Pick : Type*} {sorting : Sorting Int64 Pick} {s : PickStore Pick} {a : UInt64}

/-- Reading `n` picks at a time reaches an empty answer, and what came before it is, put together,
what one call that allows for all stored picks returns. -/
def ChunksMatch (sorting : Sorting Int64 Pick) (s : PickStore Pick) (a : UInt64) (n : ℤ) : Prop :=
  ∃ chunks : List (List Pick), (∀ chunk ∈ chunks, chunk ≠ []) ∧
    (pickStore sorting).answers s (List.replicate (chunks.length + 1) (.getPicks a n)) =
      chunks.map .picks ++ [.picks []] ∧
    ∀ N : ℤ, 1 ≤ N → s.mDeque.length ≤ N →
      (pickStore sorting).answer s (.getPicks a N) = .picks chunks.flatten

/-- While no pick is stored at MAX_TIME, repeated reads are the batches of what is unread. -/
theorem answers_reads (h : Ordered s.mDeque) (hmax : ∀ e ∈ s.mDeque, e.1 ≠ MAX_TIME) {n : ℤ}
    (hn : 1 ≤ n) (k : ℕ) :
    (pickStore sorting).answers s (List.replicate k (.getPicks a n)) =
      (batches n.toNat k (s.unread a)).map fun b => .picks (b.map Prod.snd) := by
  induction k generalizing s with
  | zero => rfl
  | succ k ih =>
    have hd := PickStore.markRead_mDeque s a (s.batch a n)
    have hrest := s.unread_markRead h a n fun e he => hmax e (s.mem_of_mem_batch he)
    rw [List.replicate_succ, Machine.answers_cons, answer_getPicks sorting s a hn,
      next_getPicks sorting s a hn, ih (by rwa [hd]) (by rwa [hd]), hrest]
    rfl

theorem final_reads_unread (h : Ordered s.mDeque) (hmax : ∀ e ∈ s.mDeque, e.1 ≠ MAX_TIME) {n : ℤ}
    (hn : 1 ≤ n) (k : ℕ) :
    ((pickStore sorting).final s (List.replicate k (.getPicks a n))).unread a =
      left n.toNat k (s.unread a) := by
  induction k generalizing s with
  | zero => rfl
  | succ k ih =>
    have hd := PickStore.markRead_mDeque s a (s.batch a n)
    have hrest := s.unread_markRead h a n fun e he => hmax e (s.mem_of_mem_batch he)
    rw [List.replicate_succ, Machine.final_cons, next_getPicks sorting s a hn,
      ih (by rwa [hd]) (by rwa [hd]), hrest]
    rfl

/-- A subscriber always has unread picks while one is stored at MAX_TIME: reading it wraps the
read mark around. -/
theorem unread_ne_nil (hmax : ∃ e ∈ s.mDeque, e.1 = MAX_TIME) (hsub : s.mCursorMap[a]?.isSome)
    {n : ℤ} (hn : 1 ≤ n) (k : ℕ) :
    ((pickStore sorting).final s (List.replicate k (.getPicks a n))).unread a ≠ [] := by
  induction k generalizing s with
  | zero =>
    obtain ⟨e, he, ht⟩ := hmax
    obtain ⟨c, hc⟩ := Option.isSome_iff_exists.mp hsub
    have hmem : e ∈ s.unread a := by
      rw [PickStore.unread_of_cursor hc]
      exact mem_since.mpr ⟨he, ht ▸ Int64.le_maxValue c⟩
    exact List.ne_nil_of_mem hmem
  | succ k ih =>
    rw [List.replicate_succ, Machine.final_cons, next_getPicks sorting s a hn]
    have hsub' : (s.markRead a (s.batch a n)).mCursorMap[a]?.isSome := by
      cases hl : (s.batch a n).getLast? with
      | none =>
        rw [List.getLast?_eq_none_iff.mp hl, PickStore.markRead_nil]
        exact hsub
      | some e => simp [PickStore.markRead_cursor_last s hl]
    exact ih (by rwa [PickStore.markRead_mDeque]) hsub'

/-- The answer to one more read is empty only when nothing is left unread. -/
theorem unread_eq_nil_of_answers {n : ℤ} (hn : 1 ≤ n) {k : ℕ} {before : List (Answer Pick)}
    (h : (pickStore sorting).answers s (List.replicate (k + 1) (.getPicks a n)) =
      before ++ [.picks []]) :
    ((pickStore sorting).final s (List.replicate k (.getPicks a n))).unread a = [] := by
  rw [List.replicate_succ', Machine.answers_append, Machine.answers_cons, Machine.answers_nil,
    answer_getPicks sorting _ a hn] at h
  have hlast := (List.append_inj' h rfl).2
  simp only [List.cons.injEq, Answer.picks.injEq, List.map_eq_nil_iff, and_true] at hlast
  rcases List.take_eq_nil_iff.mp hlast with h0 | h0
  · omega
  · exact h0

/-- A call that allows for all stored picks returns all that is unread. -/
theorem answer_getPicks_all {N : ℤ} (hN : 1 ≤ N) (hall : s.mDeque.length ≤ N) :
    (pickStore sorting).answer s (.getPicks a N) = .picks ((s.unread a).map Prod.snd) := by
  have hle : (s.unread a).length ≤ N.toNat := by
    have := (s.unread_sublist a).length_le
    omega
  rw [answer_getPicks sorting s a hN, PickStore.batch, List.take_of_length_le hle]

/-- Chunked reading is reading at once exactly when no chunk boundary falls between two unread
picks received at the same time, and no pick is stored at MAX_TIME. -/
theorem chunksMatch_iff (sorting : Sorting Int64 Pick) {s : PickStore Pick}
    (hs : Reachable sorting s) {a : UInt64} {c : Int64} (hc : s.mCursorMap[a]? = some c) {n : ℤ}
    (hn : 1 ≤ n) : ChunksMatch sorting s a n ↔
      (∀ e ∈ s.mDeque, e.1 ≠ MAX_TIME) ∧ NoTieAcross n.toNat (since c s.mDeque) := by
  have hord := hs.ordered
  have hn' : 1 ≤ n.toNat := by omega
  have hunread := PickStore.unread_of_cursor hc
  have hsince := hord.since c
  constructor
  · intro hparts
    obtain ⟨chunks, -, hanswers, hall⟩ := hparts
    have hend := unread_eq_nil_of_answers hn hanswers
    have hmax : ∀ e ∈ s.mDeque, e.1 ≠ MAX_TIME := by
      intro e he ht
      exact unread_ne_nil ⟨e, he, ht⟩ (by simp [hc]) hn chunks.length hend
    refine ⟨hmax, ?_⟩
    have hleft : left n.toNat chunks.length (since c s.mDeque) = [] := by
      rw [← hunread, ← final_reads_unread hord hmax hn, hend]
    apply (batches_flatten_eq_iff hn' chunks.length hsince hleft).mp
    have hchunks : chunks =
        (batches n.toNat chunks.length (since c s.mDeque)).map (List.map Prod.snd) := by
      rw [answers_reads hord hmax hn, batches_succ, hunread, hleft, List.map_append] at hanswers
      have h := (List.append_inj' hanswers rfl).1
      have h' := congrArg (List.map fun | Answer.picks r => r | _ => []) h.symm
      simpa [Function.comp_def] using h'
    have hsame := hall (max 1 s.mDeque.length) (le_max_left _ _) (le_max_right _ _)
    rw [answer_getPicks_all (le_max_left _ _) (le_max_right _ _), hunread, Answer.picks.injEq,
      hchunks, ← List.map_flatten] at hsame
    have hlen := congrArg List.length hsame
    rw [List.length_map, List.length_map] at hlen
    exact (batches_flatten_sublist hn' _ _).eq_of_length hlen.symm
  · intro hparts
    obtain ⟨hmax, htie⟩ := hparts
    obtain ⟨k, hleft, hne⟩ := exists_batches hn' (since c s.mDeque)
    have hlen : (batches n.toNat k (since c s.mDeque)).length = k := length_batches ..
    refine ⟨(batches n.toNat k (since c s.mDeque)).map (List.map Prod.snd), ?_, ?_, ?_⟩
    · intro chunk hchunk
      obtain ⟨b, hb, rfl⟩ := List.mem_map.mp hchunk
      simpa using hne b hb
    · rw [answers_reads hord hmax hn, List.length_map, hlen, batches_succ, hunread, hleft]
      simp
    · intro N hN hle
      rw [answer_getPicks_all hN hle, hunread, ← List.map_flatten,
        (batches_flatten_eq_iff hn' k hsince hleft).mpr htie]

/-- Three picks received at the same time. -/
def threeAtOnce : PickStore ℕ :=
  (pickStore (Sorting.stable Int64 ℕ)).final (Construction.build (Sorting.stable Int64 ℕ) (.new {}))
    [.subscribeSince 101 0 60, .enqueue 5 50 60, .enqueue 5 51 60, .enqueue 5 52 60]

theorem chunksMatch_iff_threeAtOnce :
    ChunksMatch (Sorting.stable Int64 ℕ) threeAtOnce 101 3 ↔
      (∀ e ∈ threeAtOnce.mDeque, e.1 ≠ MAX_TIME) ∧ NoTieAcross 3 (since 0 threeAtOnce.mDeque) :=
  chunksMatch_iff (Sorting.stable Int64 ℕ) ⟨_, _, rfl⟩ (by decide) (by decide)

/-- Two at a time, the third one is passed over. -/
theorem threeAtOnce_chunks_lose :
    ¬ ChunksMatch (Sorting.stable Int64 ℕ) threeAtOnce 101 2 := by
  intro hparts
  obtain ⟨chunks, hne, hanswers, hall⟩ := hparts
  have h3 := hall 3 (by decide) (by decide)
  have he : (pickStore (Sorting.stable Int64 ℕ)).answer threeAtOnce (.getPicks 101 3) =
    .picks [50, 51, 52] := by decide
  rw [he, Answer.picks.injEq] at h3
  cases chunks with
  | nil => simp at h3
  | cons first chunks =>
    rw [List.length_cons, List.replicate_succ, List.replicate_succ, Machine.answers_cons,
      Machine.answers_cons] at hanswers
    injection hanswers with h1 h2
    injection h1 with h1
    cases chunks with
    | nil =>
      subst h1
      revert h3
      decide
    | cons second chunks =>
      injection h2 with h2
      injection h2 with h2
      exact hne second (by simp) (h2.symm.trans (by decide))

end PickBroker
