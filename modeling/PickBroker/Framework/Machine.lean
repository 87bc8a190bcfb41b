import Mathlib.Data.List.Basic

namespace PickBroker.Framework

/-- A deterministic system: every input moves the state and is answered. -/
structure Machine (σ ι ο : Type*) where
  step : σ → ι → σ × ο

namespace Machine

variable {σ τ ι ο : Type*}

def next (M : Machine σ ι ο) (s : σ) (i : ι) : σ := (M.step s i).1

def answer (M : Machine σ ι ο) (s : σ) (i : ι) : ο := (M.step s i).2

/-- The state a run ends in. -/
def final (M : Machine σ ι ο) : σ → List ι → σ
  | s, [] => s
  | s, i :: is => final M (M.next s i) is

/-- The answers of a run, one for each input. -/
def answers (M : Machine σ ι ο) : σ → List ι → List ο
  | _, [] => []
  | s, i :: is => M.answer s i :: answers M (M.next s i) is

/-- Every step of the run is taken from a state where `ok` allows its input. -/
def Meets (M : Machine σ ι ο) (ok : σ → ι → Prop) : σ → List ι → Prop
  | _, [] => True
  | s, i :: is => ok s i ∧ Meets M ok (M.next s i) is

/-- All that the steps of a run report, where a step reports a list. -/
def trace (M : Machine σ ι (List ο)) (s : σ) (is : List ι) : List ο := (M.answers s is).flatten

instance decidableMeets (M : Machine σ ι ο) (ok : σ → ι → Prop) [∀ s i, Decidable (ok s i)] :
    (s : σ) → (is : List ι) → Decidable (M.Meets ok s is)
  | _, [] => .isTrue trivial
  | s, i :: is =>
    have := decidableMeets M ok (M.next s i) is
    inferInstanceAs (Decidable (ok s i ∧ M.Meets ok (M.next s i) is))

@[simp] theorem final_nil (M : Machine σ ι ο) (s : σ) : M.final s [] = s := rfl

@[simp] theorem final_cons (M : Machine σ ι ο) (s : σ) (i : ι) (is : List ι) :
    M.final s (i :: is) = M.final (M.next s i) is := rfl

@[simp] theorem answers_nil (M : Machine σ ι ο) (s : σ) : M.answers s [] = [] := rfl

@[simp] theorem answers_cons (M : Machine σ ι ο) (s : σ) (i : ι) (is : List ι) :
    M.answers s (i :: is) = M.answer s i :: M.answers (M.next s i) is := rfl

@[simp] theorem meets_nil (M : Machine σ ι ο) (ok : σ → ι → Prop) (s : σ) : M.Meets ok s [] :=
  trivial

@[simp] theorem meets_cons (M : Machine σ ι ο) (ok : σ → ι → Prop) (s : σ) (i : ι) (is : List ι) :
    M.Meets ok s (i :: is) ↔ ok s i ∧ M.Meets ok (M.next s i) is := Iff.rfl

theorem final_append (M : Machine σ ι ο) (s : σ) (is js : List ι) :
    M.final s (is ++ js) = M.final (M.final s is) js := by
  induction is generalizing s with
  | nil => rfl
  | cons i is ih => exact ih (M.next s i)

theorem answers_append (M : Machine σ ι ο) (s : σ) (is js : List ι) :
    M.answers s (is ++ js) = M.answers s is ++ M.answers (M.final s is) js := by
  induction is generalizing s with
  | nil => rfl
  | cons i is ih => exact congrArg (List.cons _) (ih (M.next s i))

theorem answers_getElem? (M : Machine σ ι ο) (s : σ) (is : List ι) (k : ℕ) :
    (M.answers s is)[k]? = is[k]?.map (M.answer (M.final s (is.take k))) := by
  induction is generalizing s k with
  | nil => rfl
  | cons i is ih =>
    cases k with
    | zero => rfl
    | succ k => exact ih (M.next s i) k

@[simp] theorem trace_nil (M : Machine σ ι (List ο)) (s : σ) : M.trace s [] = [] := rfl

@[simp] theorem trace_cons (M : Machine σ ι (List ο)) (s : σ) (i : ι) (is : List ι) :
    M.trace s (i :: is) = M.answer s i ++ M.trace (M.next s i) is := rfl

theorem trace_append (M : Machine σ ι (List ο)) (s : σ) (is js : List ι) :
    M.trace s (is ++ js) = M.trace s is ++ M.trace (M.final s is) js := by
  rw [trace, answers_append, List.flatten_append]
  rfl

theorem meets_and (M : Machine σ ι ο) (ok ok' : σ → ι → Prop) (s : σ) (is : List ι) :
    M.Meets (fun s i => ok s i ∧ ok' s i) s is ↔ M.Meets ok s is ∧ M.Meets ok' s is := by
  induction is generalizing s with
  | nil => simp
  | cons i is ih =>
    rw [meets_cons, meets_cons, meets_cons, ih]
    tauto

theorem meets_append (M : Machine σ ι ο) (ok : σ → ι → Prop) (s : σ) (is js : List ι) :
    M.Meets ok s (is ++ js) ↔ M.Meets ok s is ∧ M.Meets ok (M.final s is) js := by
  induction is generalizing s with
  | nil => simp
  | cons i is ih =>
    rw [List.cons_append, meets_cons, meets_cons, ih, final_cons]
    tauto

/-- A condition on the inputs alone. -/
theorem meets_of_forall (M : Machine σ ι ο) {P : ι → Prop} (s : σ) {is : List ι}
    (h : ∀ i ∈ is, P i) : M.Meets (fun _ i => P i) s is := by
  induction is generalizing s with
  | nil => trivial
  | cons i is ih => exact ⟨h i (by simp), ih _ fun j hj => h j (by simp [hj])⟩

theorem meets_true (M : Machine σ ι ο) (s : σ) (is : List ι) : M.Meets (fun _ _ => True) s is :=
  M.meets_of_forall s fun _ _ => trivial

/-- What holds at first and is kept by every allowed step holds wherever the run ends. -/
theorem invariant (M : Machine σ ι ο) {ok : σ → ι → Prop} {Inv : σ → Prop}
    (keep : ∀ s i, Inv s → ok s i → Inv (M.next s i)) {s : σ} {is : List ι}
    (h : Inv s) (hok : M.Meets ok s is) : Inv (M.final s is) := by
  induction is generalizing s with
  | nil => exact h
  | cons i is ih => exact ih (keep s i h hok.1) hok.2

/-- What the invariant gives for every allowed input, every step of the run has. -/
theorem meets_of_invariant (M : Machine σ ι ο) {ok ok' : σ → ι → Prop} {Inv : σ → Prop}
    (keep : ∀ s i, Inv s → ok s i → Inv (M.next s i)) (imp : ∀ s i, Inv s → ok s i → ok' s i)
    {s : σ} {is : List ι} (h : Inv s) (hok : M.Meets ok s is) : M.Meets ok' s is := by
  induction is generalizing s with
  | nil => trivial
  | cons i is ih => exact ⟨imp s i h hok.1, ih (keep s i h hok.1) hok.2⟩

/-- An invariant that needs no condition on the inputs. -/
theorem invariant_of_step (M : Machine σ ι ο) {Inv : σ → Prop}
    (keep : ∀ s i, Inv s → Inv (M.next s i)) {s : σ} (is : List ι) (h : Inv s) :
    Inv (M.final s is) := by
  induction is generalizing s with
  | nil => exact h
  | cons i is ih => exact ih (keep s i h)

/-- An invariant of the state together with what has been reported so far. -/
theorem invariant_trace (M : Machine σ ι (List ο)) {ok : σ → ι → Prop} {Inv : σ → List ο → Prop}
    (keep : ∀ s i tr, Inv s tr → ok s i → Inv (M.next s i) (tr ++ M.answer s i)) {s : σ}
    {is : List ι} (h : Inv s []) (hok : M.Meets ok s is) :
    Inv (M.final s is) (M.trace s is) := by
  have hrun : ∀ tr, Inv s tr → Inv (M.final s is) (tr ++ M.trace s is) := by
    clear h
    induction is generalizing s with
    | nil =>
      intro tr h
      simpa using h
    | cons i is ih =>
      intro tr h
      have htail := ih hok.2 (tr ++ M.answer s i) (keep s i tr h hok.1)
      rwa [List.append_assoc] at htail
  exact hrun [] h

/-- What all reports of a run have, the reports of each of its steps have. -/
theorem forall_mem_trace_iff (M : Machine σ ι (List ο)) {p : ο → Prop} (s : σ) (is : List ι) :
    (∀ a ∈ M.trace s is, p a) ↔ M.Meets (fun s i => ∀ a ∈ M.answer s i, p a) s is := by
  induction is generalizing s with
  | nil => simp
  | cons i is ih => rw [trace_cons, List.forall_mem_append, ih, meets_cons]

/-- Conditions that agree wherever the invariant holds are met by the same runs. -/
theorem meets_congr (M : Machine σ ι ο) {ok ok' : σ → ι → Prop} {Inv : σ → Prop}
    (keep : ∀ s i, Inv s → Inv (M.next s i)) (agree : ∀ s i, Inv s → (ok s i ↔ ok' s i))
    {s : σ} (h : Inv s) (is : List ι) : M.Meets ok s is ↔ M.Meets ok' s is := by
  induction is generalizing s with
  | nil => simp
  | cons i is ih => simp [agree s i h, ih (keep s i h)]

/-- A run that breaks its condition breaks it at a first step. -/
theorem exists_first_break (M : Machine σ ι ο) {ok : σ → ι → Prop} {s : σ} {is : List ι}
    (h : ¬ M.Meets ok s is) :
    ∃ before i after, is = before ++ i :: after ∧ M.Meets ok s before ∧
      ¬ ok (M.final s before) i := by
  induction is generalizing s with
  | nil => exact absurd trivial h
  | cons i is ih =>
    by_cases hi : ok s i
    · obtain ⟨before, j, after, he, hb, hj⟩ := ih fun ht => h ⟨hi, ht⟩
      exact ⟨i :: before, j, after, by rw [he]; rfl, ⟨hi, hb⟩, hj⟩
    · exact ⟨[], i, is, rfl, trivial, hi⟩

/-- A property of states that a step of the run keeps exactly when `ok` allows the input holds all
along the run exactly when the run meets `ok`. -/
theorem always_iff_meets (M : Machine σ ι ο) {ok : σ → ι → Prop} {Inv P : σ → Prop} {is : List ι}
    (keep : ∀ s i, Inv s → Inv (M.next s i))
    (step : ∀ s, ∀ i ∈ is, Inv s → P s → (P (M.next s i) ↔ ok s i)) {s : σ} (hs : Inv s)
    (hP : P s) : (∀ before, before <+: is → P (M.final s before)) ↔ M.Meets ok s is := by
  induction is generalizing s with
  | nil =>
    constructor
    · intro _
      trivial
    · intro _ before hb
      rw [List.prefix_nil.mp hb]
      exact hP
  | cons i is ih =>
    have hhead := step s i (by simp) hs hP
    have htail (hnext : P (M.next s i)) :=
      ih (fun s j hj => step s j (by simp [hj])) (keep s i hs) hnext
    constructor
    · intro h
      have hnext : P (M.next s i) := h [i] (by simp)
      refine ⟨hhead.mp hnext, (htail hnext).mp ?_⟩
      intro before hb
      exact h (i :: before) ((List.prefix_cons_inj i).mpr hb)
    · rintro ⟨hi, hmeets⟩ before hb
      have hnext : P (M.next s i) := hhead.mpr hi
      cases before with
      | nil => exact hP
      | cons j before =>
        obtain ⟨rfl, hrest⟩ := List.cons_prefix_cons.mp hb
        exact (htail hnext).mpr hmeets before hrest

/-- Two machines answer a run alike when related states, read together with the inputs
still to come, answer the next input alike and stay related. -/
theorem answers_eq_of_simulation (M : Machine σ ι ο) (N : Machine τ ι ο)
    (R : List ι → σ → τ → Prop)
    (sim : ∀ i is s t, R (i :: is) s t →
      M.answer s i = N.answer t i ∧ R is (M.next s i) (N.next t i))
    {is : List ι} {s : σ} {t : τ} (h : R is s t) : M.answers s is = N.answers t is := by
  induction is generalizing s t with
  | nil => rfl
  | cons i is ih =>
    obtain ⟨he, hr⟩ := sim i is s t h
    rw [answers_cons, answers_cons, he, ih hr]

end Machine

end PickBroker.Framework
