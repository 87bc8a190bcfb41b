import PickBroker.Database.Operations
import PickBroker.Framework.Machine

namespace PickBroker

open Framework

variable {Bytes : Type*}

inductive DatabaseCall where
  | add (receivedTime : Int64) (pick : V1.Pick) (stmt : Statement)
  | deletePicksBefore (time : Int64) (stmt : Statement)
  | load (stmt : LoadStatement)

inductive DatabaseAnswer where
  | added (result : Except Exception Unit)
  | deleted (result : Except Exception ℤ)
  | loaded (result : Except Exception (List (Int64 × V1.Pick)))

/-- The calls on one database handle, which its mutex puts one after the other. -/
def pickDatabase [DecidableEq Bytes] (codec : Codec Bytes) (orderBy : Sorting Int64 Bytes) :
    Machine (Database Bytes) DatabaseCall DatabaseAnswer where
  step db
    | .add receivedTime pick stmt =>
      let (result, db) := db.add codec receivedTime pick stmt
      (db, .added result)
    | .deletePicksBefore time stmt =>
      let (result, db) := db.deletePicksBefore time stmt
      (db, .deleted result)
    | .load stmt => (db, .loaded (db.load codec orderBy stmt))

/-- sqlite executes the statement of the call to its end. -/
def DatabaseCall.succeeds : DatabaseCall → Bool
  | .add _ _ stmt => stmt.completes
  | .deletePicksBefore _ stmt => stmt.deletes
  | .load stmt => stmt.prepare && stmt.yields.isNone

/-- A pick with bytes and with the parts that `add` asks for. -/
structure Storable (codec : Codec Bytes) (pick : V1.Pick) : Prop where
  stream_identifier : pick.stream_identifier.isSome
  time : pick.time.isSome
  algorithm : pick.algorithm.isSome
  serialize : (codec.serialize pick).isSome

instance (codec : Codec Bytes) (pick : V1.Pick) : Decidable (Storable codec pick) :=
  decidable_of_iff (pick.stream_identifier.isSome ∧ pick.time.isSome ∧ pick.algorithm.isSome ∧
      (codec.serialize pick).isSome)
    ⟨fun ⟨hs, ht, ha, hb⟩ => ⟨hs, ht, ha, hb⟩, fun ⟨hs, ht, ha, hb⟩ => ⟨hs, ht, ha, hb⟩⟩

/-- What a call asks of a table of distinct picks. -/
def DatabaseCall.edit? (codec : Codec Bytes) : DatabaseCall → Option (TableEdit Int64 V1.Pick)
  | .add receivedTime pick _ =>
    if Storable codec pick then some (.insert (receivedTime, pick)) else none
  | .deletePicksBefore time _ => some (.deleteBefore time)
  | .load _ => none

/-- The open database holds the bytes of the picks of `T`, row by row. -/
structure Represents (codec : Codec Bytes) (db : Database Bytes) (T : UniqueTable Int64 V1.Pick) :
    Prop where
  isOpen : db.mIsOpen = true
  rows : (db.picks.rows.map fun row => (row.1, some row.2)) =
    T.rows.map fun e => (e.1, codec.serialize e.2)
  storable : ∀ pick ∈ T.values, Storable codec pick

theorem represents_empty (codec : Codec Bytes) : Represents codec {} {} :=
  ⟨rfl, rfl, by simp [UniqueTable.values]⟩

section Represents

variable {codec : Codec Bytes} {db : Database Bytes} {T : UniqueTable Int64 V1.Pick}

theorem Represents.written (h : Represents codec db T) : db.Written codec := by
  intro row hrow
  have hmem : (row.1, some row.2) ∈ db.picks.rows.map fun row => (row.1, some row.2) :=
    List.mem_map_of_mem hrow
  rw [h.rows] at hmem
  obtain ⟨e, -, he⟩ := List.mem_map.mp hmem
  exact ⟨e.2, (Prod.mk.inj he).2⟩

/-- A pick is in the table exactly when its bytes are in a row. -/
theorem Represents.mem_values (h : Represents codec db T) {pick : V1.Pick} {proto : Bytes}
    (hproto : codec.serialize pick = some proto) :
    proto ∈ db.picks.values ↔ pick ∈ T.values := by
  constructor
  · intro hmem
    obtain ⟨t, hrow⟩ := UniqueTable.mem_values.mp hmem
    have hrow' : (t, some proto) ∈ db.picks.rows.map fun row => (row.1, some row.2) :=
      List.mem_map_of_mem hrow
    rw [h.rows] at hrow'
    obtain ⟨e, he, heq⟩ := List.mem_map.mp hrow'
    have hbytes : codec.serialize e.2 = some proto := (Prod.mk.inj heq).2
    rw [codec.serialize_inj hproto hbytes]
    exact UniqueTable.mem_values.mpr ⟨e.1, he⟩
  · intro hmem
    obtain ⟨t, hrow⟩ := UniqueTable.mem_values.mp hmem
    have hrow' : (t, some proto) ∈ T.rows.map fun e => (e.1, codec.serialize e.2) :=
      List.mem_map.mpr ⟨(t, pick), hrow, by rw [hproto]⟩
    rw [← h.rows] at hrow'
    obtain ⟨row, hrow, heq⟩ := List.mem_map.mp hrow'
    have hbytes : row.2 = proto := Option.some.inj (Prod.mk.inj heq).2
    rw [← hbytes]
    exact UniqueTable.mem_values.mpr ⟨row.1, hrow⟩

/-- A choice of rows by their received times is the same choice on both sides. -/
theorem Represents.filter (h : Represents codec db T) (p : Int64 → Bool) :
    ((db.picks.rows.filter fun row => p row.1).map fun row => (row.1, some row.2)) =
      (T.rows.filter fun e => p e.1).map fun e => (e.1, codec.serialize e.2) := by
  have hrows := congrArg (List.filter fun x : Int64 × Option Bytes => p x.1) h.rows
  rwa [List.filter_map, List.filter_map] at hrows

theorem Represents.deleteBefore (h : Represents codec db T) (time : Int64) {changes : ℤ} :
    Represents codec
      { db with picks := db.picks.deleteBefore time, changes := changes }
      (T.deleteBefore time) := by
  refine ⟨h.isOpen, ?_, ?_⟩
  · simpa only [UniqueTable.deleteBefore, decide_not] using h.filter fun t => !decide (t < time)
  · intro pick hpick
    obtain ⟨t, hrow⟩ := UniqueTable.mem_values.mp hpick
    have hold := (UniqueTable.mem_deleteBefore.mp hrow).1
    exact h.storable pick (UniqueTable.mem_values.mpr ⟨t, hold⟩)

theorem Represents.insert [DecidableEq Bytes] (h : Represents codec db T) {pick : V1.Pick}
    {proto : Bytes} (hproto : codec.serialize pick = some proto) (hstorable : Storable codec pick)
    (hnew : proto ∉ db.picks.values) (receivedTime : Int64) {changes : ℤ} :
    Represents codec
      { db with
        picks := db.picks.insertOrIgnore (receivedTime, proto), changes := changes }
      (T.insertOrIgnore (receivedTime, pick)) := by
  have hnew' : pick ∉ T.values := fun hmem => hnew ((h.mem_values hproto).mpr hmem)
  refine ⟨h.isOpen, ?_, ?_⟩
  · rw [UniqueTable.rows_insertOrIgnore hnew, UniqueTable.rows_insertOrIgnore hnew',
      List.map_append, List.map_append, h.rows]
    simp [hproto]
  · intro q hq
    obtain ⟨t, hrow⟩ := UniqueTable.mem_values.mp hq
    rcases UniqueTable.mem_insertOrIgnore.mp hrow with hold | ⟨heq, -⟩
    · exact h.storable q (UniqueTable.mem_values.mpr ⟨t, hold⟩)
    · rw [(Prod.mk.inj heq).2]
      exact hstorable

end Represents

section Calls

variable {codec : Codec Bytes} {orderBy : Sorting Int64 Bytes} {db : Database Bytes}
  {T : UniqueTable Int64 V1.Pick}

theorem Represents.ready (h : Represents codec db T) {pick : V1.Pick} {stmt : Statement}
    (hstorable : Storable codec pick) (hstmt : stmt.completes = true) :
    ∃ proto, Database.Ready codec db pick stmt proto := by
  obtain ⟨hidentifier, htime, halgorithm, hbytes⟩ := hstorable
  obtain ⟨proto, hproto⟩ := Option.isSome_iff_exists.mp hbytes
  exact ⟨proto, by simpa using hidentifier, by simpa using htime, by simpa using halgorithm,
    h.isOpen, hproto, hstmt⟩

theorem not_ready {pick : V1.Pick} {stmt : Statement} (hstorable : ¬ Storable codec pick)
    (proto : Bytes) : ¬ Database.Ready codec db pick stmt proto := by
  intro hready
  apply hstorable
  refine ⟨?_, ?_, ?_, ?_⟩
  · simpa using hready.stream_identifier
  · simpa using hready.time
  · simpa using hready.algorithm
  · simp [hready.serialize]

theorem Represents.deletePicksBefore (h : Represents codec db T) (time : Int64) {stmt : Statement}
    (hstmt : stmt.deletes = true) :
    (db.deletePicksBefore time stmt).1 =
        .ok (T.rows.filter fun e => decide (e.1 < time)).length ∧
      Represents codec (db.deletePicksBefore time stmt).2 (T.deleteBefore time) := by
  have hlength := congrArg List.length (h.filter fun t => decide (t < time))
  rw [List.length_map, List.length_map] at hlength
  rw [Database.deletePicksBefore_completes h.isOpen hstmt, hlength]
  exact ⟨rfl, h.deleteBefore time⟩

theorem Represents.load (h : Represents codec db T) {stmt : LoadStatement}
    (hprepare : stmt.prepare = true) (hyields : stmt.yields = none) :
    ∃ result, db.load codec orderBy stmt = .ok result ∧ Ordered result ∧
      (result.map Prod.snd).Nodup ∧ ∀ row, row ∈ result ↔ row ∈ T.rows := by
  have hstmt : stmt = {} := by
    cases stmt
    simp_all
  obtain ⟨result, hload, hmap⟩ := Database.load_sorted orderBy h.written h.isOpen
  have hbytes : ∀ e ∈ result, ∃ proto, codec.serialize e.2 = some proto := by
    intro e he
    have hmem : (e.1, codec.serialize e.2) ∈
        result.map fun e => (e.1, codec.serialize e.2) := List.mem_map_of_mem he
    rw [hmap] at hmem
    obtain ⟨row, -, hrow⟩ := List.mem_map.mp hmem
    exact ⟨row.2, (Prod.mk.inj hrow).2.symm⟩
  have hperm : (result.map fun e => (e.1, codec.serialize e.2)).Perm
      (T.rows.map fun e => (e.1, codec.serialize e.2)) := by
    rw [hmap, ← h.rows]
    exact (orderBy.perm _).map _
  have hsame {e f : Int64 × V1.Pick} {proto : Bytes} (hf : codec.serialize f.2 = some proto)
      (heq : (e.1, codec.serialize e.2) = (f.1, codec.serialize f.2)) : e = f := by
    obtain ⟨htime, hpick⟩ := Prod.mk.inj heq
    exact Prod.ext htime (codec.serialize_inj (hpick.trans hf) hf)
  refine ⟨result, hstmt ▸ hload, ?_, ?_, ?_⟩
  · have hsorted := orderBy.ordered db.picks.rows
    have hkeys : result.map Prod.fst = (orderBy.sort db.picks.rows).map Prod.fst := by
      have hfst := congrArg (List.map Prod.fst) hmap
      simpa [List.map_map, Function.comp_def] using hfst
    rw [Ordered, ← List.pairwise_map] at hsorted ⊢
    rwa [hkeys]
  · apply List.Nodup.of_map codec.serialize
    have hvalues : (result.map Prod.snd).map codec.serialize =
        ((orderBy.sort db.picks.rows).map Prod.snd).map some := by
      have hsnd := congrArg (List.map Prod.snd) hmap
      simpa [List.map_map, Function.comp_def] using hsnd
    rw [hvalues]
    apply List.Nodup.map (Option.some_injective _)
    exact ((orderBy.perm db.picks.rows).map Prod.snd).nodup_iff.mpr db.picks.unique
  · intro row
    constructor
    · intro hrow
      obtain ⟨proto, hproto⟩ := hbytes row hrow
      obtain ⟨e, he, heq⟩ := List.mem_map.mp (hperm.subset (List.mem_map_of_mem hrow))
      rwa [← hsame hproto heq]
    · intro hrow
      have hstored := h.storable row.2 (UniqueTable.mem_values.mpr ⟨row.1, hrow⟩)
      obtain ⟨proto, hproto⟩ := Option.isSome_iff_exists.mp hstored.serialize
      obtain ⟨e, he, heq⟩ := List.mem_map.mp (hperm.symm.subset (List.mem_map_of_mem hrow))
      rwa [← hsame hproto heq]

variable [DecidableEq Bytes]

/-- A duplicate is refused exactly when its bytes are stored, and leaves the rows alone. -/
theorem add_duplicate_iff (h : Represents codec db T) (receivedTime : Int64) (pick : V1.Pick)
    {stmt : Statement} (hstmt : stmt.completes = true) :
    ((∃ what, (db.add codec receivedTime pick stmt).1 = .error (.DuplicatePickException what)) ↔
        ∃ proto, codec.serialize pick = some proto ∧ proto ∈ db.picks.values) ∧
      ((∃ what, (db.add codec receivedTime pick stmt).1 =
          .error (.DuplicatePickException what)) →
        (db.add codec receivedTime pick stmt).2.picks = db.picks) := by
  by_cases hstorable : Storable codec pick
  · obtain ⟨proto, hready⟩ := h.ready hstorable hstmt
    rw [Database.add_ready hready]
    by_cases hold : proto ∈ db.picks.values
    · rw [if_pos hold]
      exact ⟨⟨fun _ => ⟨proto, hready.serialize, hold⟩, fun _ => ⟨_, rfl⟩⟩, fun _ => rfl⟩
    · rw [if_neg hold]
      refine ⟨⟨?_, ?_⟩, ?_⟩
      · intro hparts
        obtain ⟨what, hanswer⟩ := hparts
        cases hanswer
      · intro hparts
        obtain ⟨proto', hproto', hmem⟩ := hparts
        rw [hready.serialize] at hproto'
        exact absurd (Option.some.inj hproto' ▸ hmem) hold
      · intro hparts
        obtain ⟨what, hanswer⟩ := hparts
        cases hanswer
  · have hnot : ∀ proto, ¬ Database.Ready codec db pick stmt proto := not_ready hstorable
    obtain ⟨e, he, hadd⟩ := Database.add_not_ready hnot receivedTime
    rw [hadd]
    refine ⟨⟨?_, ?_⟩, fun _ => rfl⟩
    · intro hparts
      obtain ⟨what, hanswer⟩ := hparts
      exact absurd (Except.error.inj hanswer) (he what)
    · intro hparts
      obtain ⟨proto, hproto, hmem⟩ := hparts
      exact absurd (h.storable pick ((h.mem_values hproto).mp hmem)) hstorable

/-- One call does to the rows what it asks of the table. -/
theorem Represents.next (h : Represents codec db T) {call : DatabaseCall}
    (hcall : call.succeeds = true) :
    Represents codec ((pickDatabase codec orderBy).next db call)
      (T.run (call.edit? codec).toList) := by
  cases call with
  | add receivedTime pick stmt =>
    change Represents codec (db.add codec receivedTime pick stmt).2 _
    by_cases hstorable : Storable codec pick
    · obtain ⟨proto, hready⟩ := h.ready hstorable hcall
      rw [Database.add_ready hready, DatabaseCall.edit?, if_pos hstorable]
      by_cases hold : proto ∈ db.picks.values
      · have hold' : (receivedTime, pick).2 ∈ T.values := (h.mem_values hready.serialize).mp hold
        rw [if_pos hold, Option.toList_some, UniqueTable.run, UniqueTable.edit,
          UniqueTable.insertOrIgnore_of_mem hold']
        exact ⟨h.isOpen, h.rows, h.storable⟩
      · rw [if_neg hold]
        exact h.insert hready.serialize hstorable hold receivedTime
    · have hnot : ∀ proto, ¬ Database.Ready codec db pick stmt proto := not_ready hstorable
      obtain ⟨e, -, hadd⟩ := Database.add_not_ready hnot receivedTime
      rw [hadd, DatabaseCall.edit?, if_neg hstorable]
      exact h
  | deletePicksBefore time stmt => exact (h.deletePicksBefore time hcall).2
  | load stmt => exact h

theorem Represents.final (h : Represents codec db T) {calls : List DatabaseCall}
    (hcalls : ∀ call ∈ calls, call.succeeds = true) :
    Represents codec ((pickDatabase codec orderBy).final db calls)
      (T.run (calls.filterMap (DatabaseCall.edit? codec))) := by
  induction calls generalizing db T with
  | nil => exact h
  | cons call calls ih =>
    have hnext : Represents codec ((pickDatabase codec orderBy).next db call)
        (T.run (call.edit? codec).toList) := h.next (hcalls call (by simp))
    have hrest := ih hnext fun c hc => hcalls c (by simp [hc])
    rw [List.filterMap_cons]
    cases hedit : call.edit? codec with
    | none =>
      rw [hedit] at hrest
      exact hrest
    | some e =>
      rw [hedit] at hrest
      exact hrest

/-- Over any history of calls that sqlite executes, an open database is the table of the picks
that were added and not deleted since: what `add` refuses, what a deletion removes and counts, and
what a load yields are told by that table. -/
theorem database_is_table (h : Represents codec db T) (calls : List DatabaseCall)
    (hcalls : ∀ call ∈ calls, call.succeeds = true) :
    let D := (pickDatabase codec orderBy).final db calls
    let edits := calls.filterMap (DatabaseCall.edit? codec)
    Represents codec D (T.run edits) ∧
      (∀ receivedTime pick stmt, stmt.completes = true →
        ((∃ what, (D.add codec receivedTime pick stmt).1 =
            .error (.DuplicatePickException what)) ↔
          ∃ proto, codec.serialize pick = some proto ∧ proto ∈ D.picks.values) ∧
        ((∃ what, (D.add codec receivedTime pick stmt).1 =
            .error (.DuplicatePickException what)) →
          (D.add codec receivedTime pick stmt).2.picks = D.picks)) ∧
      (∀ time stmt, stmt.deletes = true →
        (D.deletePicksBefore time stmt).1 =
          .ok ((T.run edits).rows.filter fun e => decide (e.1 < time)).length ∧
        Represents codec (D.deletePicksBefore time stmt).2 ((T.run edits).deleteBefore time)) ∧
      ∀ stmt : LoadStatement, stmt.prepare = true → stmt.yields = none →
        ∃ result, D.load codec orderBy stmt = .ok result ∧ Ordered result ∧
          (result.map Prod.snd).Nodup ∧ ∀ row, row ∈ result ↔ T.Held edits row := by
  have hfinal : Represents codec ((pickDatabase codec orderBy).final db calls)
      (T.run (calls.filterMap (DatabaseCall.edit? codec))) := h.final hcalls
  refine ⟨hfinal, ?_, ?_, ?_⟩
  · intro receivedTime pick stmt hstmt
    exact add_duplicate_iff hfinal receivedTime pick hstmt
  · intro time stmt hstmt
    exact hfinal.deletePicksBefore time hstmt
  · intro stmt hprepare hyields
    obtain ⟨result, hload, hordered, hnodup, hmem⟩ := hfinal.load hprepare hyields
    refine ⟨result, hload, hordered, hnodup, ?_⟩
    intro row
    rw [hmem row, UniqueTable.mem_run_iff]

end Calls

def primaryPick : V1.Pick :=
  { stream_identifier := some {}, time := some {}, algorithm := some {} }

def secondaryPick : V1.Pick := { primaryPick with phase_hint := some .PHASE_HINT_S }

/-- Two picks in the wrong order, one of them once more, a deletion of nothing and a load. -/
def addsOutOfOrder : List DatabaseCall :=
  [.add 20 primaryPick {}, .add 10 secondaryPick {}, .add 30 primaryPick {}, .deletePicksBefore 10 {},
    .load {}]

theorem database_is_table_addsOutOfOrder :
    let D := (pickDatabase Codec.plain (Sorting.stable Int64 V1.Pick)).final {} addsOutOfOrder
    let edits := addsOutOfOrder.filterMap (DatabaseCall.edit? Codec.plain)
    D.picks.rows = [(20, primaryPick), (10, secondaryPick)] ∧
      ∃ result, D.load Codec.plain (Sorting.stable Int64 V1.Pick) {} = .ok result ∧
        Ordered result ∧ (result.map Prod.snd).Nodup ∧
        ∀ row, row ∈ result ↔ ({} : UniqueTable Int64 V1.Pick).Held edits row := by
  refine ⟨by decide, ?_⟩
  exact (database_is_table (represents_empty Codec.plain) addsOutOfOrder (by decide)).2.2.2 {} rfl
    rfl

end PickBroker
