import PickBroker.Framework.Chunks

namespace PickBroker.Framework

variable {τ π : Type*} [LinearOrder τ]

/-- In an ordered log, what is kept by a test that later keys pass as well is kept at the end. -/
theorem Ordered.filter_suffix {l : List (τ × π)} (h : Ordered l) {p : τ → Bool}
    (hp : ∀ t t', t ≤ t' → p t = true → p t' = true) : (l.filter fun e => p e.1) <:+ l := by
  induction l with
  | nil => exact List.suffix_rfl
  | cons e l ih =>
    obtain ⟨hle, ht⟩ := List.pairwise_cons.mp h
    by_cases he : p e.1 = true
    · have hall : ∀ x ∈ e :: l, p x.1 = true := by
        intro x hx
        rcases List.mem_cons.mp hx with rfl | hx
        · exact he
        · exact hp e.1 x.1 (hle x hx) he
      rewrite [List.filter_eq_self.mpr hall]
      exact List.suffix_rfl
    · rw [List.filter_cons_of_neg (by simpa using he)]
      exact (ih ht).trans (List.suffix_cons e l)

/-- Reading from later reads the end of what is read from earlier. -/
theorem Ordered.since_suffix {l : List (τ × π)} (h : Ordered l) {c c' : τ} (hc : c ≤ c') :
    Framework.since c' l <:+ Framework.since c l := by
  have hsame : Framework.since c' (Framework.since c l) = Framework.since c' l := by
    rw [Framework.since, Framework.since, Framework.since, List.filter_filter]
    apply List.filter_congr
    intro e _
    by_cases he : c' ≤ e.1
    · simp [he, hc.trans he]
    · simp [he]
  rw [← hsame]
  refine (h.since c).filter_suffix (p := fun t => decide (c' ≤ t)) ?_
  intro t t' ht hd
  exact decide_eq_true ((of_decide_eq_true hd).trans ht)

theorem Ordered.after_suffix {l : List (τ × π)} (h : Ordered l) {c c' : τ} (hc : c ≤ c') :
    after c' l <:+ after c l := by
  have hsame : after c' (after c l) = after c' l := by
    rw [after, after, after, List.filter_filter]
    apply List.filter_congr
    intro e _
    by_cases he : c' < e.1
    · simp [he, hc.trans_lt he]
    · simp [he]
  rw [← hsame]
  refine (h.sublist (after_sublist c l)).filter_suffix (p := fun t => decide (c' < t)) ?_
  intro t t' ht hd
  exact decide_eq_true ((of_decide_eq_true hd).trans_le ht)

/-- The last entry of a batch is no younger when the batch begins earlier. -/
theorem Ordered.last_of_take_le {n : ℕ} {l l' : List (τ × π)} (h : Ordered l') (hs : l <:+ l')
    {e e' : τ × π} (he : (l.take n).getLast? = some e) (he' : (l'.take n).getLast? = some e') :
    e'.1 ≤ e.1 := by
  obtain ⟨p, rfl⟩ := hs
  obtain ⟨-, -, hcross⟩ := List.pairwise_append.mp h
  have hord : Ordered l := h.sublist (List.sublist_append_right p l)
  have hmem : e ∈ l := List.mem_of_mem_take (List.mem_of_getLast? he)
  have hmem' : e' ∈ p.take n ++ l.take (n - p.length) := by
    rw [← List.take_append]
    exact List.mem_of_getLast? he'
  rcases List.mem_append.mp hmem' with hp | hl
  · exact hcross e' (List.mem_of_mem_take hp) e hmem
  · have hfirst : l.take (n - p.length) ⊆ l.take n := List.take_subset_take_left l (by omega)
    exact (hord.sublist (List.take_sublist n l)).le_last (hfirst hl) he

/-- What is left after a batch is the end of what is left after one that began earlier. -/
theorem Ordered.rest_suffix {n : ℕ} (hn : 1 ≤ n) {l l' : List (τ × π)} (h : Ordered l')
    (hs : l <:+ l') : rest n l <:+ rest n l' := by
  by_cases hl : l = []
  · simp [hl]
  have hl' : l' ≠ [] := by
    intro hnil
    rw [hnil] at hs
    exact hl (List.suffix_nil.mp hs)
  obtain ⟨e, he, -⟩ := exists_last_of_take hn hl
  obtain ⟨e', he', -⟩ := exists_last_of_take hn hl'
  rw [rest_eq_after (h.sublist hs.sublist) he, rest_eq_after h he']
  have hle : e'.1 ≤ e.1 := h.last_of_take_le hs he he'
  have hsame : after e.1 l = after e.1 l' := by
    obtain ⟨p, rfl⟩ := hs
    have hmem : e ∈ l := List.mem_of_mem_take (List.mem_of_getLast? he)
    have hfront : after e.1 p = [] :=
      after_eq_nil fun x hx => (List.pairwise_append.mp h).2.2 x hx e hmem
    have hsplit : after e.1 (p ++ l) = after e.1 p ++ after e.1 l := List.filter_append ..
    rw [hsplit, hfront, List.nil_append]
  rw [hsame]
  exact h.after_suffix hle

/-- A reader that begins earlier gets at least as many entries from every number of batches. -/
theorem Ordered.length_batches_le {n : ℕ} (hn : 1 ≤ n) (k : ℕ) {l l' : List (τ × π)}
    (h : Ordered l') (hs : l <:+ l') :
    (batches n k l).flatten.length ≤ (batches n k l').flatten.length := by
  induction k generalizing l l' with
  | zero => rfl
  | succ k ih =>
    have hrest := ih (h.sublist ((rest_sublist_drop hn l').trans (List.drop_sublist n l')))
      (h.rest_suffix hn hs)
    have hlength := hs.length_le
    simp only [batches, List.flatten_cons, List.length_append, List.length_take]
    omega

end PickBroker.Framework
