import PickBroker.Database.Table

namespace PickBroker

open Framework

variable {Bytes : Type*} [DecidableEq Bytes] {codec : Codec Bytes} {orderBy : Sorting Int64 Bytes}
  {db : Database Bytes}

/-- `add` returns for a row it has inserted, and calls a pick a duplicate that was stored. -/
structure AddTruthful (codec : Codec Bytes) (db : Database Bytes) (receivedTime : Int64)
    (pick : V1.Pick) (stmt : Statement) : Prop where
  inserted : (db.add codec receivedTime pick stmt).1 = .ok () →
    ∃ proto, codec.serialize pick = some proto ∧
      (db.add codec receivedTime pick stmt).2.picks.rows =
        db.picks.rows ++ [(receivedTime, proto)]
  duplicate : (∃ what, (db.add codec receivedTime pick stmt).1 =
      .error (.DuplicatePickException what)) →
    ∃ proto, codec.serialize pick = some proto ∧ proto ∈ db.picks.values

/-- `deletePicksBefore` returns the number of rows this call has removed. -/
def DeleteTruthful (db : Database Bytes) (time : Int64) (stmt : Statement) : Prop :=
  ∀ n, (db.deletePicksBefore time stmt).1 = .ok n →
    (db.deletePicksBefore time stmt).2.picks.rows.length + n = db.picks.rows.length

def Truthful (codec : Codec Bytes) (db : Database Bytes) : DatabaseCall → Prop
  | .add receivedTime pick stmt => AddTruthful codec db receivedTime pick stmt
  | .deletePicksBefore time stmt => DeleteTruthful db time stmt
  | .load _ => True

/-- A deletion that gets as far as its step completes it, or follows a change of no row. -/
def CountsItsOwn (db : Database Bytes) : DatabaseCall → Prop
  | .deletePicksBefore _ stmt =>
    db.mIsOpen = true → stmt.prepare = true → stmt.bindInt64 = true →
      stmt.step = true ∨ db.changes = 0
  | _ => True

theorem add_truthful (db : Database Bytes) (receivedTime : Int64) (pick : V1.Pick)
    (stmt : Statement) : AddTruthful codec db receivedTime pick stmt := by
  rcases db.add_cases codec receivedTime pick stmt with
    ⟨proto, hproto, hnew, hadd⟩ | ⟨proto, hproto, hold, hadd⟩ | ⟨e, he, hadd⟩
  · refine ⟨fun _ => ⟨proto, hproto, ?_⟩, fun h => ?_⟩
    · rw [hadd]
      exact UniqueTable.rows_insertOrIgnore hnew
    · rw [hadd] at h
      obtain ⟨what, hwhat⟩ := h
      cases hwhat
  · refine ⟨fun h => ?_, fun _ => ⟨proto, hproto, hold⟩⟩
    rw [hadd] at h
    cases h
  · refine ⟨fun h => ?_, fun h => ?_⟩
    · rw [hadd] at h
      cases h
    · rw [hadd] at h
      obtain ⟨what, hwhat⟩ := h
      exact absurd (Except.error.inj hwhat) (he what)

omit [DecidableEq Bytes] in
/-- The number left over from an earlier statement is right only when it is zero. -/
theorem delete_truthful_iff (db : Database Bytes) (time : Int64) (stmt : Statement) :
    DeleteTruthful db time stmt ↔ CountsItsOwn db (.deletePicksBefore time stmt) := by
  rw [DeleteTruthful, CountsItsOwn]
  cases hopen : db.mIsOpen with
  | false => simp [Database.deletePicksBefore, hopen]
  | true =>
    cases hprepare : stmt.prepare with
    | false => simp [Database.deletePicksBefore, hopen, hprepare]
    | true =>
      cases hint : stmt.bindInt64 with
      | false => simp [Database.deletePicksBefore, hopen, hprepare, hint]
      | true =>
        cases hstep : stmt.step with
        | false =>
          have hfails : db.deletePicksBefore time stmt = (.ok db.changes, db) := by
            simp [Database.deletePicksBefore, hopen, hprepare, hint, hstep]
          rw [hfails]
          constructor
          · intro h _ _ _
            have hleft : (db.picks.rows.length : ℤ) + db.changes = db.picks.rows.length :=
              h db.changes rfl
            exact Or.inr (by omega)
          · intro h n hn
            have hzero : db.changes = 0 := (h rfl rfl rfl).resolve_left (by simp)
            cases hn
            simp [hzero]
        | true =>
          have hdeletes : stmt.deletes = true := by simp [Statement.deletes, hprepare, hint, hstep]
          rw [Database.deletePicksBefore_completes hopen hdeletes]
          constructor
          · intro _ _ _ _
            exact Or.inl rfl
          · intro _ n hn
            cases hn
            have hsplit := List.length_eq_length_filter_add
              (l := db.picks.rows) fun row => decide (row.1 < time)
            simp only [UniqueTable.deleteBefore, decide_not]
            omega

/-- A history of calls is told truthfully exactly when no deletion fails at its step while
`sqlite3_changes` still speaks of rows of an earlier statement. -/
theorem changes_truthful_iff (db : Database Bytes) (calls : List DatabaseCall) :
    (pickDatabase codec orderBy).Meets (Truthful codec) db calls ↔
      (pickDatabase codec orderBy).Meets CountsItsOwn db calls := by
  have keep (_ : Database Bytes) (_ : DatabaseCall) (_ : True) : True := trivial
  have agree (db : Database Bytes) (call : DatabaseCall) (_ : True) :
      Truthful codec db call ↔ CountsItsOwn db call := by
    cases call with
    | add receivedTime pick stmt =>
      exact ⟨fun _ => trivial, fun _ => add_truthful db receivedTime pick stmt⟩
    | deletePicksBefore time stmt => exact delete_truthful_iff db time stmt
    | load stmt => exact Iff.rfl
  exact Machine.meets_congr _ keep agree trivial calls

/-- A pick is added, then a deletion finds the database busy. -/
def addsThenBusy : List DatabaseCall :=
  [.add 10 primaryPick {}, .deletePicksBefore 20 { step := false }]

/-- The deletion that removes nothing reports the row that was added. -/
theorem busy_deletion_reports_one :
    let D := (pickDatabase Codec.plain (Sorting.stable Int64 V1.Pick)).final {}
      (addsThenBusy.take 1)
    (D.deletePicksBefore 20 { step := false }).1 = .ok 1 ∧
      (D.deletePicksBefore 20 { step := false }).2.picks.rows = D.picks.rows ∧
      ¬ (pickDatabase Codec.plain (Sorting.stable Int64 V1.Pick)).Meets (Truthful Codec.plain) {}
        addsThenBusy := by
  refine ⟨by decide, by decide, ?_⟩
  intro h
  have hdelete := h.2.1 1 (by decide)
  revert hdelete
  decide

end PickBroker
