import PickBroker.Broker.Broker
import PickBroker.Database.Operations

namespace PickBroker

open Framework

variable {Bytes : Type*}

/-- What `sqlite3_step` returns: a row, the end of the rows, or an error code. -/
inductive StepResult where
  | SQLITE_ROW
  | SQLITE_DONE
  | failed (rc : ℕ)
  deriving DecidableEq

/-- The rows that the loop of `load` sees: it ends at the first result that is not a row. -/
def rowsSeen (results : List StepResult) : ℕ :=
  (results.takeWhile fun rc => rc = .SQLITE_ROW).length

/-- The loading statement whose steps go like that. -/
def LoadStatement.stepping (prepare : Bool) (results : List StepResult) : LoadStatement :=
  { prepare := prepare, yields := some (rowsSeen results) }

/-- Every row, parsed and in the order of the rows. -/
def Parsed (codec : Codec Bytes) (rows : List (Int64 × Bytes)) (result : List (Int64 × V1.Pick)) :
    Prop :=
  List.Forall₂ (fun row e => e.1 = row.1 ∧ codec.parse row.2 = some e.2) rows result

/-- The load returns every row of the table, or throws. -/
def CompleteOrThrows (codec : Codec Bytes) (orderBy : Sorting Int64 Bytes) (db : Database Bytes)
    (stmt : LoadStatement) : Prop :=
  (∃ e, db.load codec orderBy stmt = .error e) ∨
    ∃ result, db.load codec orderBy stmt = .ok result ∧
      Parsed codec (orderBy.sort db.picks.rows) result

section Parse

variable {codec : Codec Bytes} {rows : List (Int64 × Bytes)}

theorem parseRows_ok {result : List (Int64 × V1.Pick)}
    (h : Database.parseRows codec rows = .ok result) : Parsed codec rows result := by
  induction rows generalizing result with
  | nil =>
    cases h
    exact List.Forall₂.nil
  | cons row rows ih =>
    obtain ⟨loadTime, proto⟩ := row
    rw [Database.parseRows] at h
    cases hparse : codec.parse proto with
    | none =>
      rw [hparse] at h
      cases h
    | some pick =>
      rw [hparse] at h
      cases hrest : Database.parseRows codec rows with
      | error e =>
        rw [hrest] at h
        cases h
      | ok rest =>
        rw [hrest] at h
        cases h
        exact List.Forall₂.cons ⟨rfl, hparse⟩ (ih hrest)

/-- Only bytes that do not parse make the loop throw. -/
theorem parseRows_error_iff :
    (∃ e, Database.parseRows codec rows = .error e) ↔
      ∃ row ∈ rows, codec.parse row.2 = none := by
  induction rows with
  | nil => simp [Database.parseRows]
  | cons row rows ih =>
    obtain ⟨loadTime, proto⟩ := row
    rw [Database.parseRows, List.exists_mem_cons_iff]
    cases hparse : codec.parse proto with
    | none => simp
    | some pick =>
      rw [← ih]
      cases hrest : Database.parseRows codec rows with
      | error e => simp [Except.map]
      | ok rest => simp [Except.map]

end Parse

/-- A load is complete or throws exactly when it cannot start, sees every row, or has seen a row
that does not parse; every other end of the rows passes for the last one. -/
theorem load_complete_or_throws_iff (codec : Codec Bytes) (orderBy : Sorting Int64 Bytes)
    (db : Database Bytes) (prepare : Bool) (results : List StepResult) :
    CompleteOrThrows codec orderBy db (.stepping prepare results) ↔
      db.mIsOpen = false ∨ prepare = false ∨ db.picks.rows.length ≤ rowsSeen results ∨
        ∃ row ∈ (orderBy.sort db.picks.rows).take (rowsSeen results),
          codec.parse row.2 = none := by
  have hlength : (orderBy.sort db.picks.rows).length = db.picks.rows.length :=
    (orderBy.perm _).length_eq
  rw [CompleteOrThrows]
  cases hopen : db.mIsOpen with
  | false => simp [Database.load, hopen]
  | true =>
    cases prepare with
    | false => simp [Database.load, hopen, LoadStatement.stepping]
    | true =>
      have hload : db.load codec orderBy (.stepping true results) =
          Database.parseRows codec ((orderBy.sort db.picks.rows).take (rowsSeen results)) := by
        simp [Database.load, hopen, LoadStatement.stepping]
      rw [hload, parseRows_error_iff]
      simp only [Bool.true_eq_false, false_or]
      constructor
      · intro hcases
        rcases hcases with hbad | ⟨result, hparse, hall⟩
        · exact Or.inr hbad
        · left
          have hseen := (parseRows_ok hparse).length_eq
          have hevery := hall.length_eq
          rw [List.length_take] at hseen
          omega
      · intro hcases
        rcases hcases with hseen | hbad
        · rw [List.take_of_length_le (hlength.trans_le hseen)]
          cases hparse : Database.parseRows codec (orderBy.sort db.picks.rows) with
          | error e => exact Or.inl (parseRows_error_iff.mp ⟨e, hparse⟩)
          | ok result => exact Or.inr ⟨result, rfl, parseRows_ok hparse⟩
        · exact Or.inl hbad

/-- Two picks, of which the second cannot be read. -/
def twoStoredPicks : Database V1.Pick where
  picks :=
    { rows := [(10, samplePick), (20, otherPhase)]
      unique := by decide }

def readError : List StepResult := [.SQLITE_ROW, .failed 10]

/-- The load returns the first pick alone, and the broker starts with it. -/
theorem twoStoredPicks_backfill_truncated :
    ¬ CompleteOrThrows Codec.plain (Sorting.stable Int64 V1.Pick) twoStoredPicks
        (.stepping true readError) ∧
      twoStoredPicks.load Codec.plain (Sorting.stable Int64 V1.Pick) (.stepping true readError) =
        .ok [(10, samplePick)] ∧
      ∃ B, Broker.new Codec.plain (Sorting.stable Int64 V1.Pick) (Sorting.stable Int64 V1.Pick)
          bothServices (some twoStoredPicks) (.stepping true readError) 30 false = .ok B ∧
        B.mPickStore.mDeque = [(10, samplePick)] := by
  have hload : twoStoredPicks.load Codec.plain (Sorting.stable Int64 V1.Pick)
      (.stepping true readError) = .ok [(10, samplePick)] := by decide
  refine ⟨?_, hload, ⟨_, rfl, by decide⟩⟩
  intro hcases
  rcases hcases with ⟨e, herror⟩ | ⟨result, hok, hall⟩
  · rw [hload] at herror
    cases herror
  · rw [hload] at hok
    cases hok
    have hlength := hall.length_eq
    revert hlength
    decide

end PickBroker
