import Mathlib.Data.List.Nodup

namespace PickBroker.Framework

/-- A table of rows with a key and a value, no value twice. -/
structure UniqueTable (τ β : Type*) where
  rows : List (τ × β) := []
  unique : (rows.map Prod.snd).Nodup := by exact List.nodup_nil

namespace UniqueTable

variable {τ β : Type*}

def values (T : UniqueTable τ β) : List β := T.rows.map Prod.snd

/-- A row whose value is already there is not inserted. -/
def insertOrIgnore [DecidableEq β] (T : UniqueTable τ β) (row : τ × β) : UniqueTable τ β :=
  if h : row.2 ∈ T.values then T
  else
    { rows := T.rows ++ [row]
      unique := by
        rw [List.map_append, List.nodup_append_comm]
        exact List.nodup_cons.mpr ⟨h, T.unique⟩ }

/-- The rows with a key below `t` are deleted. -/
def deleteBefore [LT τ] [DecidableLT τ] (T : UniqueTable τ β) (t : τ) : UniqueTable τ β where
  rows := T.rows.filter fun row => ¬ row.1 < t
  unique := T.unique.sublist (List.filter_sublist.map Prod.snd)

end UniqueTable

/-- What may be asked of a table over time. -/
inductive TableEdit (τ β : Type*) where
  | insert (row : τ × β)
  | deleteBefore (t : τ)

namespace UniqueTable

variable {τ β : Type*}

section Edits

variable [DecidableEq β] [LT τ] [DecidableLT τ]

def edit (T : UniqueTable τ β) : TableEdit τ β → UniqueTable τ β
  | .insert row => T.insertOrIgnore row
  | .deleteBefore t => T.deleteBefore t

def run : UniqueTable τ β → List (TableEdit τ β) → UniqueTable τ β
  | T, [] => T
  | T, e :: edits => run (T.edit e) edits

/-- No edit deletes what has the key `t`. -/
def Spares (t : τ) (edits : List (TableEdit τ β)) : Prop :=
  ∀ t', .deleteBefore t' ∈ edits → ¬ t < t'

/-- The row was there or was inserted when its value was not, and it has been spared since. -/
def Held (T : UniqueTable τ β) (edits : List (TableEdit τ β)) (row : τ × β) : Prop :=
  (row ∈ T.rows ∧ Spares row.1 edits) ∨
    ∃ before after, edits = before ++ .insert row :: after ∧ row.2 ∉ (T.run before).values ∧
      Spares row.1 after

end Edits

@[simp] theorem mem_values {T : UniqueTable τ β} {b : β} :
    b ∈ T.values ↔ ∃ t, (t, b) ∈ T.rows := by
  simp [values]

theorem rows_insertOrIgnore [DecidableEq β] {T : UniqueTable τ β} {row : τ × β}
    (h : row.2 ∉ T.values) : (T.insertOrIgnore row).rows = T.rows ++ [row] := by
  rw [insertOrIgnore, dif_neg h]

theorem insertOrIgnore_of_mem [DecidableEq β] {T : UniqueTable τ β} {row : τ × β}
    (h : row.2 ∈ T.values) : T.insertOrIgnore row = T := by
  rw [insertOrIgnore, dif_pos h]

theorem rows_nodup (T : UniqueTable τ β) : T.rows.Nodup := T.unique.of_map _

section Order

variable [LT τ] [DecidableLT τ]

@[simp] theorem mem_deleteBefore {T : UniqueTable τ β} {t : τ} {row : τ × β} :
    row ∈ (T.deleteBefore t).rows ↔ row ∈ T.rows ∧ ¬ row.1 < t := by
  simp [deleteBefore]

end Order

theorem mem_insertOrIgnore [DecidableEq β] {T : UniqueTable τ β} {row new : τ × β} :
    row ∈ (T.insertOrIgnore new).rows ↔ row ∈ T.rows ∨ row = new ∧ row.2 ∉ T.values := by
  by_cases h : new.2 ∈ T.values
  · rw [insertOrIgnore_of_mem h]
    constructor
    · exact Or.inl
    · intro hcases
      rcases hcases with hrow | ⟨rfl, hnew⟩
      · exact hrow
      · exact absurd h hnew
  · rw [rows_insertOrIgnore h, List.mem_append, List.mem_singleton]
    constructor
    · intro hcases
      rcases hcases with hrow | rfl
      · exact Or.inl hrow
      · exact Or.inr ⟨rfl, h⟩
    · intro hcases
      rcases hcases with hrow | ⟨rfl, -⟩
      · exact Or.inl hrow
      · exact Or.inr rfl

theorem spares_cons_insert [LT τ] {edits : List (TableEdit τ β)} {t : τ} {new : τ × β} :
    Spares t (.insert new :: edits) ↔ Spares t edits := by
  simp [Spares]

theorem spares_cons_deleteBefore [LT τ] {edits : List (TableEdit τ β)} {t t' : τ} :
    Spares t ((.deleteBefore t' : TableEdit τ β) :: edits) ↔ ¬ t < t' ∧ Spares t edits := by
  simp [Spares, or_imp, forall_and]

section Edits

variable [DecidableEq β] [LT τ] [DecidableLT τ] {T : UniqueTable τ β} {e : TableEdit τ β}
  {edits : List (TableEdit τ β)} {row : τ × β}

/-- The first edit is either the one that inserted the row, or has left it. -/
theorem held_cons_iff : T.Held (e :: edits) row ↔ (T.edit e).Held edits row := by
  constructor
  · intro hcases
    rcases hcases with ⟨hrow, hspared⟩ | ⟨before, after, heq, hnew, hspared⟩
    · cases e with
      | insert new =>
        exact Or.inl ⟨mem_insertOrIgnore.mpr (Or.inl hrow), spares_cons_insert.mp hspared⟩
      | deleteBefore t =>
        obtain ⟨hkept, hlater⟩ := spares_cons_deleteBefore.mp hspared
        exact Or.inl ⟨mem_deleteBefore.mpr ⟨hrow, hkept⟩, hlater⟩
    · cases before with
      | nil =>
        obtain ⟨rfl, rfl⟩ := List.cons.inj heq
        exact Or.inl ⟨mem_insertOrIgnore.mpr (Or.inr ⟨rfl, hnew⟩), hspared⟩
      | cons first before =>
        obtain ⟨rfl, rfl⟩ := List.cons.inj heq
        exact Or.inr ⟨before, after, rfl, hnew, hspared⟩
  · intro hcases
    rcases hcases with ⟨hrow, hspared⟩ | ⟨before, after, rfl, hnew, hspared⟩
    · cases e with
      | insert new =>
        rcases mem_insertOrIgnore.mp hrow with hold | ⟨rfl, hnew⟩
        · exact Or.inl ⟨hold, spares_cons_insert.mpr hspared⟩
        · exact Or.inr ⟨[], edits, rfl, hnew, hspared⟩
      | deleteBefore t =>
        obtain ⟨hold, hkept⟩ := mem_deleteBefore.mp hrow
        exact Or.inl ⟨hold, spares_cons_deleteBefore.mpr ⟨hkept, hspared⟩⟩
    · exact Or.inr ⟨e :: before, after, rfl, hnew, hspared⟩

theorem mem_run_iff : row ∈ (T.run edits).rows ↔ T.Held edits row := by
  induction edits generalizing T with
  | nil => simp [run, Held, Spares]
  | cons e edits ih => rw [run, ih, held_cons_iff]

end Edits

end UniqueTable

end PickBroker.Framework
