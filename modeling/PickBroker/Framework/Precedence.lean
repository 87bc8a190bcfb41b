import PickBroker.Framework.Machine

namespace PickBroker.Framework

variable {α σ ι : Type*}

/-- Each entry of the history has before it what it needs. -/
def Preceded (needs : List α → α → Prop) (tr : List α) : Prop :=
  ∀ before a after, tr = before ++ a :: after → needs before a

variable {needs : List α → α → Prop} {tr actions : List α}

theorem preceded_nil : Preceded needs [] := by
  intro before a after h
  simp at h

theorem Preceded.append (h : Preceded needs tr)
    (hnew : ∀ front a after, actions = front ++ a :: after → needs (tr ++ front) a) :
    Preceded needs (tr ++ actions) := by
  intro before a after hsplit
  rcases List.append_eq_append_iff.mp hsplit with ⟨front, hbefore, hactions⟩ | ⟨rest, htr, hrest⟩
  · rw [hbefore]
    exact hnew front a after hactions
  · cases rest with
    | nil =>
      have hnone := hnew [] a after hrest.symm
      rwa [htr, List.append_nil, List.append_nil] at hnone
    | cons b rest =>
      cases hrest
      exact h before a rest htr

namespace Machine

/-- When the invariant provides what the reports of every step need, no run lacks it. -/
theorem preceded_trace (M : Machine σ ι (List α)) {ok : σ → ι → Prop} {Inv : σ → List α → Prop}
    (keep : ∀ s i tr, Inv s tr → ok s i → Inv (M.next s i) (tr ++ M.answer s i))
    (step : ∀ s i tr, Inv s tr → ok s i → ∀ front a after, M.answer s i = front ++ a :: after →
      needs (tr ++ front) a)
    {s : σ} {is : List ι} (h : Inv s []) (hok : M.Meets ok s is) :
    Preceded needs (M.trace s is) := by
  have hkeep : ∀ s i tr, Inv s tr ∧ Preceded needs tr → ok s i →
      Inv (M.next s i) (tr ++ M.answer s i) ∧ Preceded needs (tr ++ M.answer s i) := by
    intro s i tr hinv hi
    exact ⟨keep s i tr hinv.1 hi, hinv.2.append (step s i tr hinv.1 hi)⟩
  exact (M.invariant_trace hkeep ⟨h, preceded_nil⟩ hok).2

end Machine

end PickBroker.Framework
