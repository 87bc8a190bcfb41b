import PickBroker.Framework.Machine

namespace PickBroker.Framework.Machine

variable {σ ι ο : Type*}

/-- The answers of a run to the inputs an observer gave. -/
def answersTo (M : Machine σ ι ο) (mine : ι → Bool) : σ → List ι → List ο
  | _, [] => []
  | s, i :: is =>
    if mine i then M.answer s i :: answersTo M mine (M.next s i) is
    else answersTo M mine (M.next s i) is

/-- Two states look alike to an observer: inputs left out of the run keep the relation, the kept
ones keep it on both sides, and the observer's own inputs are answered alike. -/
structure Unwinding (M : Machine σ ι ο) (mine keep : ι → Bool) (R : σ → σ → Prop) : Prop where
  kept : ∀ i, mine i = true → keep i = true
  answer : ∀ i s t, mine i = true → R s t → M.answer s i = M.answer t i
  consistent : ∀ i s t, keep i = true → R s t → R (M.next s i) (M.next t i)
  respects : ∀ i s t, keep i = false → R s t → R (M.next s i) t

/-- Leaving out the inputs that are not kept changes none of the observer's answers. -/
theorem Unwinding.answersTo_filter {M : Machine σ ι ο} {mine keep : ι → Bool} {R : σ → σ → Prop}
    (h : M.Unwinding mine keep R) {s t : σ} (hR : R s t) (is : List ι) :
    M.answersTo mine s is = M.answersTo mine t (is.filter keep) := by
  induction is generalizing s t with
  | nil => rfl
  | cons i is ih =>
    cases hk : keep i with
    | true =>
      have htail := ih (h.consistent i s t hk hR)
      rw [List.filter_cons_of_pos hk, answersTo, answersTo, htail]
      cases hm : mine i with
      | true => simp [h.answer i s t hm hR]
      | false => rfl
    | false =>
      have hm : mine i = false := by
        cases hm : mine i with
        | true => exact absurd (h.kept i hm) (by simp [hk])
        | false => rfl
      have htail := ih (h.respects i s t hk hR)
      rw [List.filter_cons_of_neg (by simp [hk]), answersTo, hm, htail]
      rfl

end PickBroker.Framework.Machine
