import Mathlib.Order.Basic
import Mathlib.Order.Nat
import PickBroker.Framework.Machine

namespace PickBroker.Framework.Machine

variable {σ ι ο : Type*} (M : Machine σ ι ο)

section Steps

variable (kind : σ → ι → Prop) [∀ s i, Decidable (kind s i)]

/-- How many steps of a run are of a kind. -/
def steps : σ → List ι → ℕ
  | _, [] => 0
  | s, i :: is => (if kind s i then 1 else 0) + steps (M.next s i) is

@[simp] theorem steps_nil (s : σ) : M.steps kind s [] = 0 := rfl

@[simp] theorem steps_cons (s : σ) (i : ι) (is : List ι) :
    M.steps kind s (i :: is) = (if kind s i then 1 else 0) + M.steps kind (M.next s i) is := rfl

/-- Steps told by their inputs alone are counted there. -/
theorem steps_eq_countP (p : ι → Bool) (s : σ) (is : List ι) :
    M.steps (fun _ i => p i = true) s is = is.countP p := by
  induction is generalizing s with
  | nil => rfl
  | cons i is ih =>
    rw [steps_cons, ih, List.countP_cons]
    omega

/-- Where every step of the kind is paid for out of the potential of the state it is taken in, or
by what it reports, a run takes no more of them than its potential and its reports pay for. -/
theorem steps_add_potential_le (M : Machine σ ι (List ο)) {ok : σ → ι → Prop} {Inv : σ → Prop}
    (potential : σ → ℕ) (income : List ο → ℕ) (hnil : income [] = 0)
    (happend : ∀ a b, income (a ++ b) = income a + income b)
    (keep : ∀ s i, Inv s → ok s i → Inv (M.next s i))
    (pays : ∀ s i, Inv s → ok s i → (if kind s i then 1 else 0) + potential (M.next s i) ≤
      potential s + income (M.answer s i))
    {s : σ} {is : List ι} (h : Inv s) (hok : M.Meets ok s is) :
    M.steps kind s is + potential (M.final s is) ≤ potential s + income (M.trace s is) := by
  induction is generalizing s with
  | nil => simp [hnil]
  | cons i is ih =>
    have hstep := pays s i h hok.1
    have hrest := ih (keep s i h hok.1) hok.2
    rw [steps_cons, final_cons, trace_cons, happend]
    omega

/-- Where every step of the kind is paid for out of a potential, a run takes no more of them than
the potential it starts with. -/
theorem steps_le_potential (M : Machine σ ι ο) {Inv : σ → Prop} (potential : σ → ℕ)
    (keep : ∀ s i, Inv s → Inv (M.next s i))
    (pays : ∀ s i, Inv s → (if kind s i then 1 else 0) + potential (M.next s i) ≤ potential s)
    {s : σ} (h : Inv s) (is : List ι) : M.steps kind s is ≤ potential s := by
  induction is generalizing s with
  | nil => exact Nat.zero_le _
  | cons i is ih =>
    have hstep := pays s i h
    have hrest := ih (keep s i h)
    rw [steps_cons]
    omega

end Steps

section Backward

variable {M} {P : σ → Prop}

/-- What no step brings back has held all along a run that it holds at the end of. -/
theorem holds_of_final (back : ∀ s i, P (M.next s i) → P s) {s : σ} {is : List ι}
    (h : P (M.final s is)) : P s := by
  induction is generalizing s with
  | nil => exact h
  | cons i is ih => exact back s i (ih h)

theorem meets_of_final (back : ∀ s i, P (M.next s i) → P s) {s : σ} {is : List ι}
    (h : P (M.final s is)) : M.Meets (fun s _ => P s) s is := by
  induction is generalizing s with
  | nil => trivial
  | cons i is ih => exact ⟨back s i (holds_of_final back h), ih h⟩

end Backward

section Measure

variable {M} {ok : σ → ι → Prop} {Inv : σ → Prop} {measure : σ → ℕ}

/-- A measure that no step raises, no run raises. -/
theorem measure_final_le (keep : ∀ s i, Inv s → ok s i → Inv (M.next s i))
    (descend : ∀ s i, Inv s → ok s i → measure (M.next s i) ≤ measure s) {s : σ} {is : List ι}
    (h : Inv s) (hok : M.Meets ok s is) : measure (M.final s is) ≤ measure s := by
  induction is generalizing s with
  | nil => exact le_rfl
  | cons i is ih => exact (ih (keep s i h hok.1) hok.2).trans (descend s i h hok.1)

/-- A step of a helpful kind lowers the measure where it is enabled, and it remains so until the
measure is lowered: a run that takes such a step lowers the measure. -/
theorem measure_final_lt {helpful : ι → Prop} {enabled : σ → Prop}
    (keep : ∀ s i, Inv s → ok s i → Inv (M.next s i))
    (descend : ∀ s i, Inv s → ok s i → measure (M.next s i) ≤ measure s)
    (lower : ∀ s i, Inv s → ok s i → enabled s → helpful i → measure (M.next s i) < measure s)
    (persist : ∀ s i, Inv s → ok s i → enabled s →
      enabled (M.next s i) ∨ measure (M.next s i) < measure s)
    {s : σ} {is : List ι} (h : Inv s) (hok : M.Meets ok s is) (henabled : enabled s)
    (hhelp : ∃ i ∈ is, helpful i) : measure (M.final s is) < measure s := by
  induction is generalizing s with
  | nil =>
    obtain ⟨i, hi, -⟩ := hhelp
    cases hi
  | cons i is ih =>
    have hnext := keep s i h hok.1
    have hrest := measure_final_le keep descend hnext hok.2
    by_cases hi : helpful i
    · exact hrest.trans_lt (lower s i h hok.1 henabled hi)
    · have hlater : ∃ j ∈ is, helpful j := by
        obtain ⟨j, hj, hhelpful⟩ := hhelp
        rcases List.mem_cons.mp hj with rfl | hj
        · exact absurd hhelpful hi
        · exact ⟨j, hj, hhelpful⟩
      rcases persist s i h hok.1 henabled with hstill | hlower
      · exact (ih hnext hok.2 hstill hlater).trans_le (descend s i h hok.1)
      · exact hrest.trans_lt hlower

/-- Rounds that lower the measure, unless the goal is reached, come to it: there are no more of
them than the measure allows. -/
theorem reaches_of_rounds {goal : σ → Prop} {round : List ι → Prop}
    (keep : ∀ s i, Inv s → ok s i → Inv (M.next s i))
    (stay : ∀ s i, Inv s → ok s i → goal s → goal (M.next s i))
    (lower : ∀ s is, Inv s → M.Meets ok s is → round is →
      goal s ∨ measure (M.final s is) < measure s)
    {s : σ} {rounds : List (List ι)} (h : Inv s) (hok : M.Meets ok s rounds.flatten)
    (hrounds : ∀ is ∈ rounds, round is) (henough : measure s < rounds.length) :
    goal (M.final s rounds.flatten) := by
  have hstay : ∀ s is, Inv s → M.Meets ok s is → goal s → goal (M.final s is) := by
    intro s is h hok hgoal
    have hkeep : ∀ s i, Inv s ∧ goal s → ok s i → Inv (M.next s i) ∧ goal (M.next s i) :=
      fun s i hs hi => ⟨keep s i hs.1 hi, stay s i hs.1 hi hs.2⟩
    exact (M.invariant hkeep ⟨h, hgoal⟩ hok).2
  induction rounds generalizing s with
  | nil => cases henough
  | cons is rounds ih =>
    rw [List.flatten_cons] at hok ⊢
    obtain ⟨hround, hrest⟩ := (meets_append M ok s is rounds.flatten).mp hok
    rcases lower s is h hround (hrounds is (by simp)) with hgoal | hlower
    · exact hstay s _ h hok hgoal
    · rw [final_append]
      apply ih (M.invariant keep h hround) hrest fun js hjs => hrounds js (by simp [hjs])
      rw [List.length_cons] at henough
      omega

end Measure

end PickBroker.Framework.Machine
