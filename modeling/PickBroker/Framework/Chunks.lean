import PickBroker.Framework.TimedLog

namespace PickBroker.Framework

variable {τ π : Type*} [LinearOrder τ]

/-- What is left to read after a batch of `n` when the reader goes on behind the key of the
last entry it got: entries tied with that one are passed over. -/
def rest (n : ℕ) (l : List (τ × π)) : List (τ × π) :=
  match (l.take n).getLast? with
  | none => l
  | some e => after e.1 (l.drop n)

/-- The first `k` batches of at most `n` entries. -/
def batches (n : ℕ) : ℕ → List (τ × π) → List (List (τ × π))
  | 0, _ => []
  | k + 1, l => l.take n :: batches n k (rest n l)

/-- What is left to read after `k` batches. -/
def left (n : ℕ) : ℕ → List (τ × π) → List (τ × π)
  | 0, l => l
  | k + 1, l => left n k (rest n l)

/-- No batch boundary falls between two entries with equal keys. -/
def NoTieAcross (n : ℕ) (l : List (τ × π)) : Prop :=
  ∀ j x y, 1 ≤ j → l[j * n - 1]? = some x → l[j * n]? = some y → x.1 ≠ y.1

@[simp] theorem rest_nil (n : ℕ) : rest n ([] : List (τ × π)) = [] := by simp [rest]

theorem length_batches (n k : ℕ) (l : List (τ × π)) : (batches n k l).length = k := by
  induction k generalizing l with
  | zero => rfl
  | succ k ih => exact congrArg (· + 1) (ih (rest n l))

theorem batches_succ (n k : ℕ) (l : List (τ × π)) :
    batches n (k + 1) l = batches n k l ++ [(left n k l).take n] := by
  induction k generalizing l with
  | zero => rfl
  | succ k ih => exact congrArg (List.cons _) (ih (rest n l))

/-- A batch of a non-empty log has a last entry, and `rest` goes on behind its key. -/
theorem exists_last_of_take {n : ℕ} (hn : 1 ≤ n) {l : List (τ × π)} (hl : l ≠ []) :
    ∃ e, (l.take n).getLast? = some e ∧ rest n l = after e.1 (l.drop n) := by
  have hne : l.take n ≠ [] := by
    rw [Ne, List.take_eq_nil_iff]
    intro hcases
    rcases hcases with h | h
    · omega
    · exact hl h
  refine ⟨(l.take n).getLast hne, List.getLast?_eq_some_getLast hne, ?_⟩
  simp [rest, List.getLast?_eq_some_getLast hne]

/-- In an ordered log, reading on behind the last entry of a batch leaves what is after it. -/
theorem rest_eq_after {n : ℕ} {l : List (τ × π)} (h : Ordered l) {e : τ × π}
    (he : (l.take n).getLast? = some e) : rest n l = after e.1 l := by
  have hord : Ordered (l.take n) := h.sublist (List.take_sublist n l)
  have hfront : after e.1 (l.take n) = [] := after_eq_nil fun x hx => hord.le_last hx he
  have hsplit : after e.1 l = after e.1 (l.take n) ++ after e.1 (l.drop n) := by
    rw [after, after, after, ← List.filter_append, List.take_append_drop]
  rw [hsplit, hfront, List.nil_append, rest, he]

theorem rest_sublist_drop {n : ℕ} (hn : 1 ≤ n) (l : List (τ × π)) :
    (rest n l).Sublist (l.drop n) := by
  by_cases hl : l = []
  · simp [hl]
  · obtain ⟨e, _, hr⟩ := exists_last_of_take hn hl
    rw [hr]
    exact after_sublist _ _

theorem length_rest_lt {n : ℕ} (hn : 1 ≤ n) {l : List (τ × π)} (hl : l ≠ []) :
    (rest n l).length < l.length := by
  have h := (rest_sublist_drop hn l).length_le
  have hp := List.length_pos_iff.mpr hl
  rw [List.length_drop] at h
  omega

/-- Reading in batches comes to an end, and until then no batch is empty. -/
theorem exists_batches {n : ℕ} (hn : 1 ≤ n) (l : List (τ × π)) :
    ∃ k, left n k l = [] ∧ ∀ b ∈ batches n k l, b ≠ [] := by
  induction hlen : l.length using Nat.strong_induction_on generalizing l with
  | _ m ih =>
    by_cases hl : l = []
    · exact ⟨0, hl, by simp [batches]⟩
    · obtain ⟨k, hk, hne⟩ := ih _ (hlen ▸ length_rest_lt hn hl) (rest n l) rfl
      refine ⟨k + 1, hk, ?_⟩
      intro b hb
      rcases List.mem_cons.mp hb with rfl | hb
      · simp [List.take_eq_nil_iff, hl, show n ≠ 0 by omega]
      · exact hne b hb

/-- Reading in batches invents nothing and keeps the order. -/
theorem batches_flatten_sublist {n : ℕ} (hn : 1 ≤ n) (k : ℕ) (l : List (τ × π)) :
    (batches n k l).flatten.Sublist l := by
  induction k generalizing l with
  | zero => exact List.nil_sublist l
  | succ k ih =>
    have h := (List.Sublist.refl (l.take n)).append ((ih (rest n l)).trans (rest_sublist_drop hn l))
    rwa [List.take_append_drop] at h

omit [LinearOrder τ] in
theorem noTieAcross_iff_drop {n : ℕ} (hn : 1 ≤ n) (l : List (τ × π)) :
    NoTieAcross n l ↔
      (∀ x y, l[n - 1]? = some x → l[n]? = some y → x.1 ≠ y.1) ∧ NoTieAcross n (l.drop n) := by
  have shift (j : ℕ) (hj : 1 ≤ j) : n + (j * n - 1) = (j + 1) * n - 1 ∧ n + j * n = (j + 1) * n := by
    have := Nat.le_mul_of_pos_left n hj
    rw [Nat.succ_mul]
    omega
  constructor
  · intro h
    refine ⟨fun x y hx hy => h 1 x y le_rfl (by simpa using hx) (by simpa using hy), ?_⟩
    intro j x y hj hx hy
    rw [List.getElem?_drop] at hx hy
    rw [(shift j hj).1] at hx
    rw [(shift j hj).2] at hy
    exact h (j + 1) x y (by omega) hx hy
  · rintro ⟨hfirst, htail⟩ j x y hj hx hy
    rcases Nat.lt_or_ge 1 j with h1 | h1
    · obtain ⟨i, rfl⟩ := Nat.exists_eq_add_of_lt h1
      have hi : 1 ≤ 1 + i := by omega
      rw [show 1 + i + 1 = (1 + i) + 1 from rfl] at hx hy
      rw [← (shift (1 + i) hi).1] at hx
      rw [← (shift (1 + i) hi).2] at hy
      exact htail (1 + i) x y hi (by rwa [List.getElem?_drop]) (by rwa [List.getElem?_drop])
    · obtain rfl : j = 1 := by omega
      exact hfirst x y (by simpa using hx) (by simpa using hy)

/-- Nothing is passed over after a batch exactly when its last entry is not tied with the next. -/
theorem rest_eq_drop_iff {n : ℕ} (hn : 1 ≤ n) {l : List (τ × π)} (h : Ordered l) :
    rest n l = l.drop n ↔ ∀ x y, l[n - 1]? = some x → l[n]? = some y → x.1 ≠ y.1 := by
  by_cases hl : l = []
  · simp [hl]
  obtain ⟨e, he, hr⟩ := exists_last_of_take hn hl
  rw [hr]
  cases hd : l.drop n with
  | nil =>
    have hlen : l.length ≤ n := List.drop_eq_nil_iff.mp hd
    simp [after, List.getElem?_eq_none hlen]
  | cons d ds =>
    have hlen : n < l.length := by
      by_contra hc
      simp [List.drop_eq_nil_iff.mpr (not_lt.mp hc)] at hd
    have hy : l[n]? = some d := by
      have := congrArg (·[0]?) hd
      simpa [List.getElem?_drop] using this
    have hx : l[n - 1]? = some e := by
      rw [List.getLast?_take] at he
      simpa [show n ≠ 0 by omega, List.getElem?_eq_getElem (show n - 1 < l.length by omega)] using he
    have hsplit : Ordered (l.take n ++ d :: ds) := by rwa [← hd, List.take_append_drop]
    obtain ⟨_, hds, hcross⟩ := List.pairwise_append.mp hsplit
    have hmem : e ∈ l.take n := List.mem_of_getLast? he
    have hed : e.1 ≤ d.1 := hcross e hmem d (by simp)
    rw [hx, hy]
    constructor
    · intro heq x y hx hy
      cases hx; cases hy
      have : d ∈ after e.1 (d :: ds) := by rw [heq]; simp
      exact (mem_after.mp this).2.ne
    · intro hne
      apply List.filter_eq_self.mpr
      intro z hz
      apply decide_eq_true
      have hlt : e.1 < d.1 := lt_of_le_of_ne hed (hne e d rfl rfl)
      rcases List.mem_cons.mp hz with rfl | hz
      · exact hlt
      · exact hlt.trans_le ((List.pairwise_cons.mp hds).1 z hz)

/-- Batches read to the end yield the whole log exactly when no boundary splits a tie. -/
theorem batches_flatten_eq_iff {n : ℕ} (hn : 1 ≤ n) (k : ℕ) {l : List (τ × π)} (h : Ordered l)
    (hleft : left n k l = []) : (batches n k l).flatten = l ↔ NoTieAcross n l := by
  induction k generalizing l with
  | zero =>
    obtain rfl : l = [] := hleft
    simp [batches, NoTieAcross]
  | succ k ih =>
    have hd : Ordered (l.drop n) := h.sublist (List.drop_sublist n l)
    have hcut : (batches n (k + 1) l).flatten = l ↔ (batches n k (rest n l)).flatten = l.drop n := by
      rw [batches, List.flatten_cons]
      constructor
      · intro he
        exact List.append_cancel_left (he.trans (List.take_append_drop n l).symm)
      · intro he
        rw [he, List.take_append_drop]
    rw [hcut, noTieAcross_iff_drop hn, ← rest_eq_drop_iff hn h]
    constructor
    · intro heq
      have hle : (l.drop n).Sublist (rest n l) := heq ▸ batches_flatten_sublist hn k (rest n l)
      have hr : rest n l = l.drop n := (rest_sublist_drop hn l).antisymm hle
      rw [hr] at heq
      exact ⟨hr, (ih hd (by rw [← hr]; exact hleft)).mp heq⟩
    · intro hparts
      obtain ⟨hr, ht⟩ := hparts
      rw [hr]
      exact (ih hd (by rw [← hr]; exact hleft)).mpr ht

end PickBroker.Framework
