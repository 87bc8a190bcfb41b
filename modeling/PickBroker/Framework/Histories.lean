import PickBroker.Framework.Machine

namespace PickBroker.Framework

/-- Which events put a thing into a state, and which drop it again. -/
structure History (ο α : Type*) where
  puts : ο → α → Prop
  drops : ο → α → Prop

namespace History

variable {ο α : Type*} (H : History ο α)

/-- None of the events drops it. -/
def Spares (tr : List ο) (a : α) : Prop := ∀ i ∈ tr, ¬ H.drops i a

/-- It was there before or has been put there, and it has been spared since. -/
def Remains (initially : α → Prop) (tr : List ο) (a : α) : Prop :=
  (initially a ∧ H.Spares tr a) ∨
    ∃ before i after, tr = before ++ i :: after ∧ H.puts i a ∧ H.Spares after a

variable {H} {initially initially' : α → Prop} {tr tr' : List ο} {a : α}

theorem spares_append : H.Spares (tr ++ tr') a ↔ H.Spares tr a ∧ H.Spares tr' a :=
  List.forall_mem_append

theorem remains_nil : H.Remains initially [] a ↔ initially a := by
  simp [Remains, Spares]

theorem remains_congr (h : initially a ↔ initially' a) :
    H.Remains initially tr a ↔ H.Remains initially' tr a := by
  simp only [Remains, h]

/-- What happens first may be taken for what was there before. -/
theorem remains_append :
    H.Remains initially (tr ++ tr') a ↔ H.Remains (H.Remains initially tr) tr' a := by
  constructor
  · intro h
    rcases h with ⟨hinit, hspared⟩ | ⟨before, i, after, hsplit, hput, hspared⟩
    · obtain ⟨hfirst, hlater⟩ := spares_append.mp hspared
      exact Or.inl ⟨Or.inl ⟨hinit, hfirst⟩, hlater⟩
    · rcases List.append_eq_append_iff.mp hsplit with ⟨front, -, hsecond⟩ | ⟨rest, hfirst, hrest⟩
      · exact Or.inr ⟨front, i, after, hsecond, hput, hspared⟩
      · cases rest with
        | nil => exact Or.inr ⟨[], i, after, hrest.symm, hput, hspared⟩
        | cons j rest =>
          cases hrest
          obtain ⟨hbetween, hlater⟩ := spares_append.mp hspared
          exact Or.inl ⟨Or.inr ⟨before, i, rest, hfirst, hput, hbetween⟩, hlater⟩
  · intro h
    rcases h with ⟨hheld, hspared⟩ | ⟨before, i, after, rfl, hput, hlater⟩
    · rcases hheld with ⟨hinit, hfirst⟩ | ⟨before, i, after, rfl, hput, hbetween⟩
      · exact Or.inl ⟨hinit, spares_append.mpr ⟨hfirst, hspared⟩⟩
      · exact Or.inr ⟨before, i, after ++ tr', by simp, hput,
          spares_append.mpr ⟨hbetween, hspared⟩⟩
    · exact Or.inr ⟨tr ++ before, i, after, by simp, hput, hlater⟩

/-- Events that neither put nor drop it leave it as it is. -/
theorem remains_of_quiet (hputs : ∀ i ∈ tr, ¬ H.puts i a) (hdrops : H.Spares tr a) :
    H.Remains initially tr a ↔ initially a := by
  constructor
  · intro h
    rcases h with ⟨hinit, -⟩ | ⟨before, i, after, rfl, hput, -⟩
    · exact hinit
    · exact absurd hput (hputs i (by simp))
  · exact fun hinit => Or.inl ⟨hinit, hdrops⟩

theorem remains_singleton {i : ο} :
    H.Remains initially [i] a ↔ initially a ∧ ¬ H.drops i a ∨ H.puts i a := by
  have hspares : H.Spares [i] a ↔ ¬ H.drops i a := by simp [Spares]
  constructor
  · intro h
    rcases h with ⟨hinit, hspared⟩ | ⟨before, j, after, hsplit, hput, -⟩
    · exact Or.inl ⟨hinit, hspares.mp hspared⟩
    · have hmem : j ∈ [i] := hsplit ▸ (by simp)
      exact Or.inr (List.mem_singleton.mp hmem ▸ hput)
  · intro h
    rcases h with ⟨hinit, hkept⟩ | hput
    · exact Or.inl ⟨hinit, hspares.mpr hkept⟩
    · exact Or.inr ⟨[], i, [], rfl, hput, by simp [Spares]⟩

end History

namespace Machine

variable {σ ι ο α : Type*} (M : Machine σ ι (List ο)) {H : History ο α} (holds : σ → α → Prop)

/-- When the reports of every step account for what it holds, those of a run do. -/
theorem holds_iff_remains
    (accounts : ∀ s i a, holds (M.next s i) a ↔ H.Remains (holds s) (M.answer s i) a)
    (s : σ) (is : List ι) (a : α) :
    holds (M.final s is) a ↔ H.Remains (holds s) (M.trace s is) a := by
  induction is generalizing s with
  | nil => exact History.remains_nil.symm
  | cons i is ih =>
    rw [final_cons, ih, trace_cons, History.remains_append]
    exact History.remains_congr (accounts s i a)

/-- When no step puts a thing where one in conflict with it is, no run does. -/
theorem conflicting_gone (conflicts : α → α → Prop)
    (accounts : ∀ s i a, holds (M.next s i) a ↔ H.Remains (holds s) (M.answer s i) a)
    (fresh : ∀ s i before x after b, M.answer s i = before ++ x :: after → H.puts x b →
      ∀ a, conflicts a b → ¬ H.Remains (holds s) before a)
    {s : σ} {is : List ι} {before after : List ο} {x : ο} {a b : α}
    (hsplit : M.trace s is = before ++ x :: after) (hput : H.puts x b) (hconflict : conflicts a b) :
    ¬ H.Remains (holds s) before a := by
  induction is generalizing s before with
  | nil => simp at hsplit
  | cons i is ih =>
    have hlater : ∀ front, before = M.answer s i ++ front →
        M.trace (M.next s i) is = front ++ x :: after → ¬ H.Remains (holds s) before a := by
      intro front hbefore htrace hremains
      rw [hbefore, History.remains_append] at hremains
      exact ih htrace ((History.remains_congr (accounts s i a)).mpr hremains)
    rw [trace_cons] at hsplit
    rcases List.append_eq_append_iff.mp hsplit with ⟨front, hbefore, htrace⟩ | ⟨rest, hfirst, hrest⟩
    · exact hlater front hbefore htrace
    · cases rest with
      | nil => exact hlater [] (by simpa using hfirst.symm) hrest.symm
      | cons y rest =>
        cases hrest
        exact fresh s i before x rest b hfirst hput a hconflict

end Machine

end PickBroker.Framework
