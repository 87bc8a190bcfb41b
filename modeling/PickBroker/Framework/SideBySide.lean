import PickBroker.Framework.Machine

namespace PickBroker.Framework.Machine

variable {σ τ ι κ κ' ο ο' : Type*}

/-- Two machines driven by one run, of which each reads the inputs in its own way. -/
def beside (M : Machine σ κ ο) (N : Machine τ κ' ο') (left : ι → κ) (right : ι → κ') :
    Machine (σ × τ) ι (ο × ο') where
  step s i :=
    ((M.next s.1 (left i), N.next s.2 (right i)), M.answer s.1 (left i), N.answer s.2 (right i))

section Beside

variable (M : Machine σ κ ο) (N : Machine τ κ' ο') (left : ι → κ) (right : ι → κ')

@[simp] theorem next_beside (s : σ × τ) (i : ι) :
    (M.beside N left right).next s i = (M.next s.1 (left i), N.next s.2 (right i)) := rfl

/-- Neither machine notices the other one. -/
theorem final_beside (s : σ) (t : τ) (is : List ι) :
    (M.beside N left right).final (s, t) is =
      (M.final s (is.map left), N.final t (is.map right)) := by
  induction is generalizing s t with
  | nil => rfl
  | cons i is ih => exact ih (M.next s (left i)) (N.next t (right i))

/-- A relation that one step keeps exactly when `ok` allows the input relates the two machines all
along a run exactly when the run meets `ok`. -/
theorem always_beside_iff {Inv R : σ × τ → Prop} {ok : σ × τ → ι → Prop} {is : List ι}
    (keep : ∀ s i, Inv s → Inv ((M.beside N left right).next s i))
    (step : ∀ s, ∀ i ∈ is, Inv s → R s → (R ((M.beside N left right).next s i) ↔ ok s i))
    {s : σ} {t : τ} (hs : Inv (s, t)) (hR : R (s, t)) :
    (∀ before, before <+: is →
        R (M.final s (before.map left), N.final t (before.map right))) ↔
      (M.beside N left right).Meets ok (s, t) is := by
  have hrun := always_iff_meets (M.beside N left right) keep step hs hR
  simpa only [final_beside] using hrun

end Beside

end PickBroker.Framework.Machine
