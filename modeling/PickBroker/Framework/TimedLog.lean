import Mathlib.Data.List.Sort

namespace PickBroker.Framework

variable {τ π : Type*}

/-- The entries stand in non-decreasing order of their keys; ties may stand in any order. -/
def Ordered [LE τ] (l : List (τ × π)) : Prop := l.Pairwise fun x y => x.1 ≤ y.1

/-- A sorting function: it may place entries with equal keys as it likes. -/
structure Sorting (τ π : Type*) [LE τ] where
  sort : List (τ × π) → List (τ × π)
  perm : ∀ l, (sort l).Perm l
  ordered : ∀ l, Ordered (sort l)

/-- The entries whose key is at or after `c`. -/
def since [LE τ] [DecidableLE τ] (c : τ) (l : List (τ × π)) : List (τ × π) :=
  l.filter fun e => c ≤ e.1

/-- The entries whose key is after `c`. -/
def after [LT τ] [DecidableLT τ] (c : τ) (l : List (τ × π)) : List (τ × π) :=
  l.filter fun e => c < e.1

/-- The entries whose key is `c`. -/
def tied [DecidableEq τ] (c : τ) (l : List (τ × π)) : List (τ × π) :=
  l.filter fun e => e.1 = c

theorem pairwise_concat {α : Type*} {r : α → α → Prop} {l : List α} {a : α}
    (h : l.Pairwise r) (ha : ∀ x ∈ l, r x a) : (l ++ [a]).Pairwise r := by
  apply List.pairwise_append.mpr
  refine ⟨h, List.pairwise_singleton _ _, ?_⟩
  intro x hx y hy
  rw [List.mem_singleton.mp hy]
  exact ha x hx

section Linear

variable [LinearOrder τ]

/-- Insertion sort keeps entries with equal keys in the order they came in. -/
def Sorting.stable (τ π : Type*) [LinearOrder τ] : Sorting τ π where
  sort := List.insertionSort fun x y => x.1 ≤ y.1
  perm := List.perm_insertionSort _
  ordered l := by
    let _ : Std.Total (fun x y : τ × π => x.1 ≤ y.1) := ⟨fun x y => le_total x.1 y.1⟩
    let _ : IsTrans (τ × π) (fun x y => x.1 ≤ y.1) := ⟨fun _ _ _ h k => le_trans h k⟩
    exact List.pairwise_insertionSort _ l

@[simp] theorem mem_since {c : τ} {l : List (τ × π)} {e : τ × π} :
    e ∈ since c l ↔ e ∈ l ∧ c ≤ e.1 := by simp [since]

@[simp] theorem mem_after {c : τ} {l : List (τ × π)} {e : τ × π} :
    e ∈ after c l ↔ e ∈ l ∧ c < e.1 := by simp [after]

@[simp] theorem since_nil (c : τ) : since c ([] : List (τ × π)) = [] := rfl

theorem since_cons (c : τ) (e : τ × π) (l : List (τ × π)) :
    since c (e :: l) = if c ≤ e.1 then e :: since c l else since c l := by
  by_cases h : c ≤ e.1 <;> simp [since, h]

theorem since_append (c : τ) (l k : List (τ × π)) : since c (l ++ k) = since c l ++ since c k :=
  List.filter_append ..

theorem since_sublist (c : τ) (l : List (τ × π)) : (since c l).Sublist l := List.filter_sublist

theorem after_sublist (c : τ) (l : List (τ × π)) : (after c l).Sublist l := List.filter_sublist

theorem since_eq_self {c : τ} {l : List (τ × π)} (h : ∀ e ∈ l, c ≤ e.1) : since c l = l :=
  List.filter_eq_self.mpr fun e he => decide_eq_true (h e he)

theorem since_eq_nil {c : τ} {l : List (τ × π)} (h : ∀ e ∈ l, e.1 < c) : since c l = [] :=
  List.filter_eq_nil_iff.mpr fun e he => by simpa using h e he

theorem after_eq_nil {c : τ} {l : List (τ × π)} (h : ∀ e ∈ l, e.1 ≤ c) : after c l = [] :=
  List.filter_eq_nil_iff.mpr fun e he => by simpa using h e he

/-- Reading on after `t` from a log already cut at `c` is reading on from the whole log. -/
theorem after_since {c t : τ} (h : c ≤ t) (l : List (τ × π)) : after t (since c l) = after t l := by
  rw [after, since, List.filter_filter]
  apply List.filter_congr
  intro e _
  by_cases ht : t < e.1
  · simp [ht, h.trans ht.le]
  · simp [ht]

theorem Ordered.sublist {l k : List (τ × π)} (h : Ordered l) (hk : k.Sublist l) : Ordered k :=
  List.Pairwise.sublist hk h

theorem Ordered.since {l : List (τ × π)} (h : Ordered l) (c : τ) : Ordered (since c l) :=
  h.sublist (since_sublist c l)

/-- An entry no older than all the others may be put at the end. -/
theorem Ordered.concat {l : List (τ × π)} (h : Ordered l) {e : τ × π}
    (he : ∀ x ∈ l, x.1 ≤ e.1) : Ordered (l ++ [e]) :=
  pairwise_concat h he

/-- The last entry is the newest one. -/
theorem Ordered.le_last {l : List (τ × π)} (h : Ordered l) {e b : τ × π}
    (he : e ∈ l) (hb : l.getLast? = some b) : e.1 ≤ b.1 := by
  obtain ⟨k, rfl⟩ := List.getLast?_eq_some_iff.mp hb
  rcases List.mem_append.mp he with hk | hk
  · exact (List.pairwise_append.mp h).2.2 e hk b (List.mem_singleton_self b)
  · rw [List.mem_singleton.mp hk]

/-- In an ordered log the entries at a key stand before the later ones. -/
theorem Ordered.since_eq_tied_append {l : List (τ × π)} (h : Ordered l) (c : τ) :
    Framework.since c l = tied c l ++ after c l := by
  induction l with
  | nil => rfl
  | cons e l ih =>
    obtain ⟨hle, ht⟩ := List.pairwise_cons.mp h
    have hi := ih ht
    rcases lt_trichotomy e.1 c with hlt | heq | hgt
    · simpa [since_cons, tied, after, hlt.ne, hlt.not_ge, hlt.not_gt] using hi
    · simpa [since_cons, tied, after, heq] using hi
    · have hall : ∀ x ∈ e :: l, c < x.1 := by
        intro x hx
        rcases List.mem_cons.mp hx with rfl | hx
        · exact hgt
        · exact hgt.trans_le (hle x hx)
      have hnone : tied c (e :: l) = [] := List.filter_eq_nil_iff.mpr fun x hx => by
        simpa using (hall x hx).ne'
      have hafter : after c (e :: l) = e :: l := List.filter_eq_self.mpr fun x hx => by
        simpa using hall x hx
      rw [hnone, hafter, since_eq_self fun x hx => (hall x hx).le, List.nil_append]

/-- The last of the first `n` entries since `c` is later than `c` when none is at `c`, or when
fewer than `n` are and a later one follows. -/
theorem Ordered.lt_last_iff {l : List (τ × π)} (h : Ordered l) {c : τ} {n : ℕ} (hn : 1 ≤ n) :
    (∀ e ∈ ((Framework.since c l).take n).getLast?, c < e.1) ↔
      tied c l = [] ∨ (tied c l).length < n ∧ after c l ≠ [] := by
  rw [h.since_eq_tied_append c]
  have hlater : ∀ e ∈ after c l, c < e.1 := fun e he => (mem_after.mp he).2
  have htied : ∀ e ∈ tied c l, e.1 = c := fun e he => by simpa using (List.mem_filter.mp he).2
  rcases Nat.lt_or_ge (tied c l).length n with hlt | hge
  · rw [List.take_append, List.take_of_length_le hlt.le]
    have hpos : n - (tied c l).length ≠ 0 := by omega
    by_cases hnone : after c l = []
    · rw [hnone, List.take_nil, List.append_nil]
      constructor
      · intro hlast
        left
        by_contra hne
        have hmem := List.getLast_mem hne
        have hc := hlast _ (List.getLast?_eq_some_getLast hne)
        exact absurd (htied _ hmem) hc.ne'
      · intro hcases
        rcases hcases with hnil | ⟨_, hne⟩
        · simp [hnil]
        · exact absurd rfl hne
    · have hne : (after c l).take (n - (tied c l).length) ≠ [] := by
        simp [List.take_eq_nil_iff, hpos, hnone]
      rw [List.getLast?_append_of_ne_nil _ hne]
      refine ⟨fun _ => Or.inr ⟨hlt, hnone⟩, ?_⟩
      intro _ e he
      exact hlater e (List.mem_of_mem_take (List.mem_of_getLast? he))
  · rw [List.take_append_of_le_length hge]
    have hne : (tied c l).take n ≠ [] := by
      intro hnil
      rcases List.take_eq_nil_iff.mp hnil with h0 | h0
      · omega
      · simp [h0] at hge
        omega
    constructor
    · intro hlast
      have hmem := List.mem_of_mem_take (List.getLast_mem hne)
      have hc := hlast _ (List.getLast?_eq_some_getLast hne)
      exact absurd (htied _ hmem) hc.ne'
    · intro hcases
      rcases hcases with hnil | ⟨hlt, _⟩
      · simp [hnil] at hne
      · omega

/-- Dropping the old entries from the front drops them all. -/
theorem Ordered.dropWhile_eq_since {l : List (τ × π)} (h : Ordered l) (c : τ) :
    l.dropWhile (fun e => e.1 < c) = Framework.since c l := by
  induction l with
  | nil => rfl
  | cons e l ih =>
    obtain ⟨hle, ht⟩ := List.pairwise_cons.mp h
    by_cases he : e.1 < c
    · rw [List.dropWhile_cons_of_pos (by simpa using he), ih ht, since_cons, if_neg he.not_ge]
    · have hc : c ≤ e.1 := not_lt.mp he
      rw [List.dropWhile_cons_of_neg (by simpa using he)]
      apply Eq.symm
      apply since_eq_self
      intro x hx
      rcases List.mem_cons.mp hx with rfl | hx
      · exact hc
      · exact hc.trans (hle x hx)

end Linear

end PickBroker.Framework
