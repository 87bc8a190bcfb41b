import PickBroker.Broker.Refinement
import PickBroker.Broker.Identifier
import Mathlib.Algebra.Group.Int.Defs
import Mathlib.Algebra.Group.Nat.Defs

namespace PickBroker

open Framework

/-- Nothing but whitespace. -/
def Blank (code : String) : Prop := ∀ c ∈ code.toList, isspace c = true

/-- A code that is unset or blank. -/
def Missing (code : Option String) : Prop := ∀ c ∈ code, Blank c

/-- A pick lacks something it has to have. -/
inductive Malformed (pick : V1.Pick) : Prop where
  | no_stream_identifier (h : pick.stream_identifier = none)
  | no_time (h : pick.time = none)
  | no_algorithm (h : pick.algorithm = none)
  | network (identifier : V1.StreamIdentifier) (h : pick.stream_identifier = some identifier)
      (missing : Missing identifier.network)
  | station (identifier : V1.StreamIdentifier) (h : pick.stream_identifier = some identifier)
      (missing : Missing identifier.station)
  | channel (identifier : V1.StreamIdentifier) (h : pick.stream_identifier = some identifier)
      (missing : Missing identifier.channel)
  | version (algorithm : V1.Algorithm) (h : pick.algorithm = some algorithm)
      (unset : algorithm.version = none)

/-- A code that is set and does not fit into its buffer twice. -/
def Overflows (code : Option String) : Prop := ∃ c ∈ code, ¬ Fits c

/-- A code overruns its buffer, and no code that is checked before it is missing. -/
def V1.StreamIdentifier.Overruns (identifier : V1.StreamIdentifier) : Prop :=
  Overflows identifier.network ∨ ¬ Missing identifier.network ∧
    (Overflows identifier.station ∨ ¬ Missing identifier.station ∧
      (Overflows identifier.channel ∨ ¬ Missing identifier.channel ∧
        Overflows identifier.location_code))

/-- The checks come to the identifier of the pick, and a code of it overruns its buffer. -/
def Overruns (pick : V1.Pick) : Prop :=
  pick.time ≠ none ∧ pick.algorithm ≠ none ∧
    ∃ identifier, pick.stream_identifier = some identifier ∧ identifier.Overruns

/-- The time of a timestamp as a number. -/
def nanoseconds (time : V1.Timestamp) : ℤ := time.seconds.toInt * 1000000000 + time.nanos.toInt

/-- The pick's time is later than the clock. -/
def FromFuture (pick : V1.Pick) (now : Int64) : Prop :=
  ∃ time, pick.time = some time ∧ now.toInt < nanoseconds time

/-- The pick with its identifier and its algorithm checked and fixed. -/
def FixedPick (pick pick' : V1.Pick) : Prop :=
  ∃ identifier algorithm identifier' algorithm', pick.stream_identifier = some identifier ∧
    pick.algorithm = some algorithm ∧
    checkAndFixStreamIdentifier identifier = .ok identifier' ∧
    checkAndFixAlgorithm algorithm = .ok algorithm' ∧
    pick' = { pick with stream_identifier := some identifier', algorithm := some algorithm' }

/-- 64 bits hold the time, or the number they hold instead is on the same side of the clock. -/
def TellsFuture (time : V1.Timestamp) (now : Int64) : Prop :=
  (-2 ^ 63 ≤ nanoseconds time ∧ nanoseconds time < 2 ^ 63) ∨
    (2 ^ 63 ≤ nanoseconds time ∧ now.toInt < (nanoseconds time).bmod (2 ^ 64)) ∨
    (nanoseconds time < -2 ^ 63 ∧ (nanoseconds time).bmod (2 ^ 64) ≤ now.toInt)

/-- How `addPickCallback` is to treat a pick: it overruns no buffer, refuses what is malformed or
from the future and leaves the broker as it is, and appends any other pick, checked and fixed, to
what it keeps of the queue. -/
structure AcceptsExactly {Bytes : Type*} (B : Broker Bytes) (pick : V1.Pick) (now : Int64) :
    Prop where
  inside : .overran pick ∉ (B.addPickCallback pick now).2
  refuses_iff : (∃ what, (B.addPickCallback pick now).2 = [.refused (.invalid_argument what)]) ↔
    Malformed pick ∨ FromFuture pick now
  unchanged : (∃ e, (B.addPickCallback pick now).2 = [.refused e]) →
    (B.addPickCallback pick now).1 = B
  appended : (∀ e, (B.addPickCallback pick now).2 ≠ [.refused e]) →
    ∃ kept pick', kept <:+ B.mInputQueue ∧ FixedPick pick pick' ∧
      (B.addPickCallback pick now).1.mInputQueue = kept ++ [pick']

section Time

theorem toInt_toNanoseconds (time : V1.Timestamp) :
    time.toNanoseconds.toInt = (nanoseconds time).bmod (2 ^ 64) := by
  have hbillion : (1000000000 : Int64).toInt = 1000000000 := by decide
  rw [V1.Timestamp.toNanoseconds, Int64.toInt_add, Int64.toInt_mul, Int32.toInt_toInt64, hbillion,
    nanoseconds]
  exact Int.bmod_add_bmod ..

/-- The comparison in 64 bits is right exactly then. -/
theorem tellsFuture_iff (time : V1.Timestamp) (now : Int64) :
    (now < time.toNanoseconds ↔ now.toInt < nanoseconds time) ↔ TellsFuture time now := by
  rw [Int64.lt_iff_toInt_lt, toInt_toNanoseconds, TellsFuture]
  have hlow := now.le_toInt
  have hhigh := now.toInt_lt
  generalize nanoseconds time = v
  by_cases hbelow : v < -2 ^ 63
  · omega
  · by_cases habove : 2 ^ 63 ≤ v
    · omega
    · have hsame : v.bmod (2 ^ 64) = v := Int.bmod_eq_of_le_mul_two (by omega) (by omega)
      rw [hsame]
      omega

end Time

section Checks

theorem withoutBlanks_eq_empty_iff (code : String) : withoutBlanks code = "" ↔ Blank code := by
  rw [withoutBlanks, ← String.ofList_nil, String.ofList_inj, remaining, List.filter_eq_nil_iff]
  simp [Blank]

theorem not_missing_iff {code : Option String} :
    ¬ Missing code ↔ ∃ c, code = some c ∧ withoutBlanks c ≠ "" := by
  simp only [Missing, ← withoutBlanks_eq_empty_iff]
  cases code <;> simp

theorem checkAndFixCode_accepts_iff {notSet isEmpty : String} {code : Option String} :
    (∃ c, checkAndFixCode notSet isEmpty code = .ok c) ↔ ¬ Overflows code ∧ ¬ Missing code := by
  rw [not_missing_iff]
  cases code with
  | none => simp [checkAndFixCode]
  | some c => simp [checkAndFixCode_ok_iff, Overflows]

theorem checkAndFixCode_overrun_iff {notSet isEmpty : String} {code : Option String} :
    checkAndFixCode notSet isEmpty code = .error .overrun ↔ Overflows code := by
  cases code with
  | none => simp [checkAndFixCode, Overflows]
  | some c =>
    rw [checkAndFixCode, capitalizeAndRemoveBlanks_eq]
    by_cases hfits : Fits c
    · by_cases hempty : withoutBlanks c = "" <;>
        simp [hfits, hempty, Overflows, bind, Except.bind]
    · simp [hfits, Overflows, bind, Except.bind]

theorem fixLocationCode_overrun_iff {location_code : Option String} :
    fixLocationCode location_code = .error .overrun ↔ Overflows location_code := by
  cases location_code with
  | none => simp [fixLocationCode, Overflows]
  | some c =>
    rw [fixLocationCode, capitalizeAndRemoveBlanks_eq]
    by_cases hfits : Fits c <;> simp [hfits, Overflows, bind, Except.bind]

/-- An overrun in the first step, or in what follows it whatever it gives. -/
theorem overrun_bind_iff {α β : Type} {x : Except Failure α} {f : α → Except Failure β}
    {overflows missing p : Prop} (hx : x = .error .overrun ↔ overflows)
    (hok : (∃ a, x = .ok a) ↔ ¬ overflows ∧ ¬ missing)
    (hf : ∀ a, f a = .error .overrun ↔ p) :
    x >>= f = .error .overrun ↔ overflows ∨ ¬ missing ∧ p := by
  rw [bind_eq_error_iff, hx]
  simp only [hf, exists_and_right, hok]
  tauto

theorem identifier_overrun_iff {identifier : V1.StreamIdentifier} :
    checkAndFixStreamIdentifier identifier = .error .overrun ↔ identifier.Overruns := by
  apply overrun_bind_iff checkAndFixCode_overrun_iff checkAndFixCode_accepts_iff
  intro network
  apply overrun_bind_iff checkAndFixCode_overrun_iff checkAndFixCode_accepts_iff
  intro station
  apply overrun_bind_iff checkAndFixCode_overrun_iff checkAndFixCode_accepts_iff
  intro channel
  rw [bind_eq_error_iff, fixLocationCode_overrun_iff]
  simp [pure, Except.pure]

theorem identifier_ok_iff {identifier : V1.StreamIdentifier} :
    (∃ identifier', checkAndFixStreamIdentifier identifier = .ok identifier') ↔
      ¬ identifier.Overruns ∧ ¬ Missing identifier.network ∧ ¬ Missing identifier.station ∧
        ¬ Missing identifier.channel := by
  constructor
  · intro h
    obtain ⟨identifier', h⟩ := h
    have hnot : ¬ identifier.Overruns := by
      rw [← identifier_overrun_iff, h]
      exact nofun
    obtain ⟨-, n, s, c, hn, hs, hc, hn', hs', hc', -⟩ := checkAndFixStreamIdentifier_ok_iff.mp h
    exact ⟨hnot, not_missing_iff.mpr ⟨n, hn, hn'⟩, not_missing_iff.mpr ⟨s, hs, hs'⟩,
      not_missing_iff.mpr ⟨c, hc, hc'⟩⟩
  · intro h
    obtain ⟨hnot, hnetwork, hstation, hchannel⟩ := h
    simp only [V1.StreamIdentifier.Overruns, hnetwork, hstation, hchannel, not_false_eq_true,
      true_and, not_or] at hnot
    obtain ⟨hfn, hfs, hfc, hfl⟩ := hnot
    obtain ⟨n, hn, hn'⟩ := not_missing_iff.mp hnetwork
    obtain ⟨s, hs, hs'⟩ := not_missing_iff.mp hstation
    obtain ⟨c, hc, hc'⟩ := not_missing_iff.mp hchannel
    refine ⟨_, checkAndFixStreamIdentifier_ok_iff.mpr ⟨?_, n, s, c, hn, hs, hc, hn', hs', hc', rfl⟩⟩
    rw [codes_eq hn hs hc]
    intro code hcode
    by_contra hoverflows
    simp only [List.cons_append, List.nil_append, List.mem_cons, Option.mem_toList] at hcode
    rcases hcode with rfl | rfl | rfl | hlocation
    · exact hfn ⟨code, hn, hoverflows⟩
    · exact hfs ⟨code, hs, hoverflows⟩
    · exact hfc ⟨code, hc, hoverflows⟩
    · exact hfl ⟨code, hlocation, hoverflows⟩

theorem algorithm_ok_iff {algorithm : V1.Algorithm} :
    (∃ algorithm', checkAndFixAlgorithm algorithm = .ok algorithm') ↔
      algorithm.version ≠ none := by
  rw [checkAndFixAlgorithm]
  cases algorithm.version <;> simp

/-- A pick that is not malformed has a time and can be fixed, unless it overruns a buffer, and no
other can. -/
theorem not_malformed_iff {pick : V1.Pick} (hinside : ¬ Overruns pick) :
    ¬ Malformed pick ↔ (∃ time, pick.time = some time) ∧ ∃ pick', FixedPick pick pick' := by
  constructor
  · intro h
    cases hidentifier : pick.stream_identifier with
    | none => exact absurd (.no_stream_identifier hidentifier) h
    | some identifier =>
      cases htime : pick.time with
      | none => exact absurd (.no_time htime) h
      | some time =>
        cases halgorithm : pick.algorithm with
        | none => exact absurd (.no_algorithm halgorithm) h
        | some algorithm =>
          have hnot : ¬ identifier.Overruns := fun hoverruns =>
            hinside ⟨by simp [htime], by simp [halgorithm], identifier, hidentifier, hoverruns⟩
          obtain ⟨identifier', hfixed⟩ := identifier_ok_iff.mpr
            ⟨hnot, fun hn => h (.network identifier hidentifier hn),
              fun hs => h (.station identifier hidentifier hs),
              fun hc => h (.channel identifier hidentifier hc)⟩
          obtain ⟨algorithm', hversion⟩ := algorithm_ok_iff.mpr
            fun hunset => h (.version algorithm halgorithm hunset)
          exact ⟨⟨time, rfl⟩, _, identifier, algorithm, identifier', algorithm', hidentifier,
            halgorithm, hfixed, hversion, rfl⟩
  · intro h hmalformed
    obtain ⟨⟨time, htime⟩, pick', identifier, algorithm, identifier', algorithm', hidentifier,
      halgorithm, hfixed, hversion, -⟩ := h
    obtain ⟨-, hn, hs, hc⟩ := identifier_ok_iff.mp ⟨identifier', hfixed⟩
    have hset := algorithm_ok_iff.mp ⟨algorithm', hversion⟩
    cases hmalformed with
    | no_stream_identifier h => simp [h] at hidentifier
    | no_time h => simp [h] at htime
    | no_algorithm h => simp [h] at halgorithm
    | network other h missing =>
      obtain rfl := Option.some.inj (hidentifier.symm.trans h)
      exact hn missing
    | station other h missing =>
      obtain rfl := Option.some.inj (hidentifier.symm.trans h)
      exact hs missing
    | channel other h missing =>
      obtain rfl := Option.some.inj (hidentifier.symm.trans h)
      exact hc missing
    | version other h unset =>
      obtain rfl := Option.some.inj (halgorithm.symm.trans h)
      exact hset unset

theorem checkAndFixPick_ok_iff {pick pick' : V1.Pick} {now : Int64} :
    checkAndFixPick pick now = .ok pick' ↔
      (∃ time, pick.time = some time ∧ ¬ now < time.toNanoseconds) ∧ FixedPick pick pick' := by
  constructor
  · intro h
    unfold checkAndFixPick at h
    split at h
    · cases h
    rename_i identifier hidentifier
    split at h
    · cases h
    rename_i time htime
    split at h
    · cases h
    rename_i algorithm halgorithm
    obtain ⟨identifier', hfixed, h⟩ := bind_eq_ok_iff.mp h
    obtain ⟨algorithm', hversion, h⟩ := bind_eq_ok_iff.mp h
    split at h
    · cases h
    rename_i hclock
    cases h
    exact ⟨⟨time, htime, hclock⟩, identifier, algorithm, identifier', algorithm', hidentifier,
      halgorithm, hfixed, hversion, rfl⟩
  · intro h
    obtain ⟨⟨time, htime, hclock⟩, identifier, algorithm, identifier', algorithm', hidentifier,
      halgorithm, hfixed, hversion, rfl⟩ := h
    simp only [checkAndFixPick, hidentifier, htime, halgorithm, hfixed, hversion, if_neg hclock]
    rfl

theorem checkAndFixCode_error {notSet isEmpty : String} {code : Option String} {e : Exception}
    (h : checkAndFixCode notSet isEmpty code = .error (.threw e)) :
    ∃ what, e = .invalid_argument what := by
  cases code with
  | none =>
    cases h
    exact ⟨_, rfl⟩
  | some c =>
    rw [checkAndFixCode, capitalizeAndRemoveBlanks_eq] at h
    by_cases hfits : Fits c
    · by_cases hempty : withoutBlanks c = ""
      · simp only [hfits, if_true, bind, Except.bind, hempty] at h
        cases h
        exact ⟨_, rfl⟩
      · simp [hfits, hempty, bind, Except.bind] at h
    · simp [hfits, bind, Except.bind] at h

theorem fixLocationCode_error {location_code : Option String} {e : Exception} :
    fixLocationCode location_code ≠ .error (.threw e) := by
  cases location_code with
  | none => simp [fixLocationCode]
  | some c =>
    rw [fixLocationCode, capitalizeAndRemoveBlanks_eq]
    by_cases hfits : Fits c <;> simp [hfits, bind, Except.bind]

theorem checkAndFixStreamIdentifier_error {identifier : V1.StreamIdentifier} {e : Exception}
    (h : checkAndFixStreamIdentifier identifier = .error (.threw e)) :
    ∃ what, e = .invalid_argument what := by
  rcases bind_eq_error_iff.mp h with hnetwork | ⟨network, -, h⟩
  · exact checkAndFixCode_error hnetwork
  rcases bind_eq_error_iff.mp h with hstation | ⟨station, -, h⟩
  · exact checkAndFixCode_error hstation
  rcases bind_eq_error_iff.mp h with hchannel | ⟨channel, -, h⟩
  · exact checkAndFixCode_error hchannel
  rcases bind_eq_error_iff.mp h with hlocation | ⟨location, -, h⟩
  · exact absurd hlocation fixLocationCode_error
  · cases h

theorem checkAndFixAlgorithm_error {algorithm : V1.Algorithm} {failure : Failure}
    (h : checkAndFixAlgorithm algorithm = .error failure) :
    ∃ what, failure = .threw (.invalid_argument what) := by
  unfold checkAndFixAlgorithm at h
  split at h <;> cases h
  exact ⟨_, rfl⟩

/-- Every refusal is an `invalid_argument`. -/
theorem checkAndFixPick_error {pick : V1.Pick} {now : Int64} {e : Exception}
    (h : checkAndFixPick pick now = .error (.threw e)) : ∃ what, e = .invalid_argument what := by
  unfold checkAndFixPick at h
  split at h
  · cases h
    exact ⟨_, rfl⟩
  split at h
  · cases h
    exact ⟨_, rfl⟩
  split at h
  · cases h
    exact ⟨_, rfl⟩
  rcases bind_eq_error_iff.mp h with hidentifier | ⟨identifier, -, h⟩
  · exact checkAndFixStreamIdentifier_error hidentifier
  rcases bind_eq_error_iff.mp h with halgorithm | ⟨algorithm, -, h⟩
  · obtain ⟨what, hthrew⟩ := checkAndFixAlgorithm_error halgorithm
    exact ⟨what, Failure.threw.inj hthrew⟩
  split at h
  · cases h
    exact ⟨_, rfl⟩
  · cases h

/-- The checks of a pick overrun a buffer where its identifier does and they come to it. -/
theorem checkAndFixPick_overrun_iff {pick : V1.Pick} {now : Int64} :
    checkAndFixPick pick now = .error .overrun ↔ Overruns pick := by
  unfold checkAndFixPick Overruns
  cases hidentifier : pick.stream_identifier with
  | none => simp
  | some identifier =>
    cases htime : pick.time with
    | none => simp
    | some time =>
      cases halgorithm : pick.algorithm with
      | none => simp
      | some algorithm =>
        dsimp only
        rw [bind_eq_error_iff, identifier_overrun_iff]
        constructor
        · intro h
          rcases h with hoverruns | ⟨identifier', -, h⟩
          · exact ⟨nofun, nofun, identifier, rfl, hoverruns⟩
          · rcases bind_eq_error_iff.mp h with hversion | ⟨algorithm', -, h⟩
            · obtain ⟨what, hthrew⟩ := checkAndFixAlgorithm_error hversion
              cases hthrew
            · split at h <;> cases h
        · intro h
          obtain ⟨-, -, other, hother, hoverruns⟩ := h
          obtain rfl := Option.some.inj hother
          exact Or.inl hoverruns

end Checks

section Callback

variable {Bytes : Type*} (B : Broker Bytes) (pick : V1.Pick) (now : Int64)

/-- A refused pick leaves the broker alone; any other is appended when there is room, unless it
overruns a buffer. -/
theorem addPickCallback_cases :
    (Overruns pick ∧ B.addPickCallback pick now = (B, [.overran pick])) ∨
    (∃ what, checkAndFixPick pick now = .error (.threw (.invalid_argument what)) ∧
      B.addPickCallback pick now = (B, [.refused (.invalid_argument what)])) ∨
    ∃ kept pick', checkAndFixPick pick now = .ok pick' ∧ kept <:+ B.mInputQueue ∧
      (B.addPickCallback pick now).1.mInputQueue = kept ++ [pick'] ∧
      .overran pick ∉ (B.addPickCallback pick now).2 ∧
      ∀ e, (B.addPickCallback pick now).2 ≠ [.refused e] := by
  cases hcheck : checkAndFixPick pick now with
  | error failure =>
    cases failure with
    | overrun =>
      exact Or.inl ⟨checkAndFixPick_overrun_iff.mp hcheck, by rw [Broker.addPickCallback, hcheck]⟩
    | threw e =>
      obtain ⟨what, rfl⟩ := checkAndFixPick_error hcheck
      exact Or.inr (Or.inl ⟨what, rfl, by rw [Broker.addPickCallback, hcheck]⟩)
  | ok pick' =>
    right
    right
    have hsuffix : (makeRoom B.mMaximumInputQueueSize B.mInputQueue).2 <:+ B.mInputQueue := by
      rw [makeRoom_eq]
      exact List.drop_suffix _ _
    refine ⟨(makeRoom B.mMaximumInputQueueSize B.mInputQueue).2, pick', rfl, hsuffix, ?_, ?_, ?_⟩
    · rw [Broker.addPickCallback, hcheck]
    · simp [Broker.addPickCallback, hcheck]
    · intro e hrefused
      have hmem : Action.accepted pick' ∈ (B.addPickCallback pick now).2 := by
        simp [Broker.addPickCallback, hcheck]
      rw [hrefused] at hmem
      simp at hmem

theorem overran_iff : .overran pick ∈ (B.addPickCallback pick now).2 ↔ Overruns pick := by
  rcases addPickCallback_cases B pick now with
    ⟨hoverruns, hadd⟩ | ⟨what, hcheck, hadd⟩ | ⟨kept, pick', hcheck, -, -, hinside, -⟩
  · rw [hadd]
    exact iff_of_true List.mem_cons_self hoverruns
  · rw [hadd, ← @checkAndFixPick_overrun_iff pick now, hcheck]
    simp
  · rw [← @checkAndFixPick_overrun_iff pick now, hcheck]
    exact iff_of_false hinside nofun

theorem refused_iff (hinside : ¬ Overruns pick) :
    (∃ what, (B.addPickCallback pick now).2 = [.refused (.invalid_argument what)]) ↔
      Malformed pick ∨ ∃ time, pick.time = some time ∧ now < time.toNanoseconds := by
  have hok : (∃ pick', checkAndFixPick pick now = .ok pick') ↔
      ¬ (Malformed pick ∨ ∃ time, pick.time = some time ∧ now < time.toNanoseconds) := by
    simp only [checkAndFixPick_ok_iff, not_or, not_malformed_iff hinside]
    constructor
    · intro h
      obtain ⟨pick', ⟨time, htime, hclock⟩, hfixed⟩ := h
      refine ⟨⟨⟨time, htime⟩, pick', hfixed⟩, ?_⟩
      intro hlate
      obtain ⟨other, hother, hlate⟩ := hlate
      obtain rfl := Option.some.inj (htime.symm.trans hother)
      exact hclock hlate
    · intro h
      obtain ⟨⟨⟨time, htime⟩, pick', hfixed⟩, hclock⟩ := h
      exact ⟨pick', ⟨time, htime, fun hlate => hclock ⟨time, htime, hlate⟩⟩, hfixed⟩
  rw [← not_iff_not, ← hok]
  rcases addPickCallback_cases B pick now with
    ⟨hoverruns, -⟩ | ⟨what, hcheck, hadd⟩ | ⟨kept, pick', hcheck, -, -, -, hadd⟩
  · exact absurd hoverruns hinside
  · rw [hadd, hcheck]
    simp
  · rw [hcheck]
    constructor
    · intro _
      exact ⟨pick', rfl⟩
    · intro _ h
      obtain ⟨what, h⟩ := h
      exact hadd _ h

end Callback

/-- A pick of the last second of the year 9999, and a clock of the year 2025. -/
def year9999 : V1.Pick := { samplePick with time := some { seconds := 253402300799 } }

def year2025 : Int64 := 1735689600000000000

/-- Nine letters do not fit twice into a string without the heap. -/
def nineLetters : V1.Pick :=
  { samplePick with
    stream_identifier := some
      { network := some "UUUUUUUUU", station := some "FORK", channel := some "HHZ" } }

example : checkAndFixPick nineLetters year2025 = .error .overrun := by decide

end PickBroker
