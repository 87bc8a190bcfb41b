import PickBroker.Broker.AddPick

namespace PickBroker

open Framework

/-- The characters that `erase` leaves of a code. -/
def remaining (code : String) : List Char := code.toList.filter fun c => !isspace c

/-- A code without its whitespace. -/
def withoutBlanks (code : String) : String := String.ofList (remaining code)

/-- A code without its whitespace, in capitals: what the two algorithms are to make of it. -/
def capitals (code : String) : String := String.ofList ((remaining code).map Char.toUpper)

/-- One step of `transform` that also notes what it writes, and at which place. -/
def writeStep (op : Char → Char) (out : ℕ) (state : List Char × List (ℕ × Char)) (i : ℕ) :
    List Char × List (ℕ × Char) :=
  match state.1[i]? with
  | none => state
  | some c => (state.1.set (out + i) (op c), state.2 ++ [(out + i, op c)])

/-- The characters that `transform` writes, with their places. -/
def writes (op : Char → Char) (out : ℕ) (result : List Char) : List (ℕ × Char) :=
  ((List.range result.length).foldl (writeStep op out) (result, [])).2

/-- The codes an identifier has set. -/
def codes (identifier : V1.StreamIdentifier) : List String :=
  [identifier.network, identifier.station, identifier.channel, identifier.location_code].filterMap
    id

/-- A location code that is unset or blank is written as two dashes. -/
def dashed (location_code : Option String) : String :=
  match location_code with
  | none => "--"
  | some location_code => if location_code = "" then "--" else location_code

/-- Each code is that of the input in capitals without whitespace. -/
structure Capitalized (identifier result : V1.StreamIdentifier) : Prop where
  network : result.network = identifier.network.map capitals
  station : result.station = identifier.station.map capitals
  channel : result.channel = identifier.channel.map capitals
  location_code : result.location_code = some (dashed (identifier.location_code.map capitals))

/-- Two identifiers differ in letter case and whitespace at most. -/
structure SameLetters (identifier other : V1.StreamIdentifier) : Prop where
  network : other.network.map capitals = identifier.network.map capitals
  station : other.station.map capitals = identifier.station.map capitals
  channel : other.channel.map capitals = identifier.channel.map capitals
  location_code : other.location_code.map capitals = identifier.location_code.map capitals

/-- Every character is written into the string that is being normalised. -/
def WritesInside (code : String) : Prop :=
  ∀ write ∈ writes Char.toUpper (remaining code).length (remaining code),
    write.1 < (remaining code).length

/-- What the normalisation of an identifier is to be. -/
structure ProperlyNormalized (identifier result : V1.StreamIdentifier) : Prop where
  capitalized : Capitalized identifier result
  inside : ∀ code ∈ codes identifier, WritesInside code
  idempotent : checkAndFixStreamIdentifier result = .ok result
  insensitive : ∀ other, SameLetters identifier other →
    checkAndFixStreamIdentifier other = .ok result

section Transform

variable {op : Char → Char} {buffer out : ℕ}

theorem foldl_writeStep_log (places : List ℕ) (chars : List Char) (log : List (ℕ × Char)) :
    log <+: (places.foldl (writeStep op out) (chars, log)).2 := by
  induction places generalizing chars log with
  | nil => exact List.prefix_refl _
  | cons i places ih =>
    rw [List.foldl_cons, writeStep]
    cases chars[i]? with
    | none => exact ih chars log
    | some c => exact (List.prefix_append _ _).trans (ih _ _)

/-- The notes are those of the loop of `transform`, which stops at the first write that is none
into the buffer. -/
theorem foldlM_writeStep (places : List ℕ) (chars : List Char) {log : List (ℕ × Char)}
    (h : ∀ write ∈ log, write.1 < buffer) :
    (places.foldlM (fun chars i => match chars[i]? with
        | none => .ok chars
        | some c => if out + i < buffer then .ok (chars.set (out + i) (op c))
          else .error .overrun) chars : Except Failure (List Char)) =
      if ∀ write ∈ (places.foldl (writeStep op out) (chars, log)).2, write.1 < buffer then
        .ok (places.foldl (writeStep op out) (chars, log)).1
      else .error .overrun := by
  induction places generalizing chars log with
  | nil =>
    rw [List.foldlM_nil, List.foldl_nil, if_pos h]
    rfl
  | cons i places ih =>
    rw [List.foldlM_cons, List.foldl_cons, writeStep]
    cases chars[i]? with
    | none => exact ih chars h
    | some c =>
      by_cases hinside : out + i < buffer
      · have hlog : ∀ write ∈ log ++ [(out + i, op c)], write.1 < buffer := by
          intro write hwrite
          rcases List.mem_append.mp hwrite with hold | hnew
          · exact h write hold
          · rw [List.mem_singleton.mp hnew]
            exact hinside
        simp only [if_pos hinside]
        exact ih _ hlog
      · have hlogged : (out + i, op c) ∈
            (places.foldl (writeStep op out) (chars.set (out + i) (op c),
              log ++ [(out + i, op c)])).2 :=
          (foldl_writeStep_log _ _ _).subset (by simp)
        have hnot : ¬ ∀ write ∈ (places.foldl (writeStep op out) (chars.set (out + i) (op c),
            log ++ [(out + i, op c)])).2, write.1 < buffer :=
          fun hall => hinside (hall _ hlogged)
        rw [if_neg hnot]
        simp only [if_neg hinside]
        rfl

/-- `transform` returns when all it writes goes into the buffer. -/
theorem transform_eq (result : List Char) :
    transform op buffer out result =
      if ∀ write ∈ writes op out result, write.1 < buffer then
        .ok ((List.range result.length).foldl (writeStep op out) (result, [])).1
      else .error .overrun :=
  foldlM_writeStep _ _ fun _ hwrite => absurd hwrite List.not_mem_nil

/-- Behind the end of the string nothing of it changes, and each character of it is written. -/
theorem foldl_writeStep_outside {chars : List Char} (h : chars.length ≤ out) (places : List ℕ)
    (log : List (ℕ × Char)) :
    places.foldl (writeStep op out) (chars, log) =
      (chars, log ++ places.filterMap fun i => chars[i]?.map fun c => (out + i, op c)) := by
  induction places generalizing log with
  | nil => rw [List.foldl_nil, List.filterMap_nil, List.append_nil]
  | cons i places ih =>
    rw [List.foldl_cons, writeStep]
    cases hc : chars[i]? with
    | none => simp [ih, hc]
    | some c =>
      have hset : chars.set (out + i) (op c) = chars := List.set_eq_of_length_le (by omega)
      simp [hset, ih, hc]

/-- The places it writes to are as many as there are characters, from `out` on. -/
theorem writes_places (chars : List Char) (place : ℕ) :
    (∃ c, (place, c) ∈ writes op chars.length chars) ↔
      chars.length ≤ place ∧ place < 2 * chars.length := by
  rw [writes, foldl_writeStep_outside (Nat.le_refl _)]
  simp only [List.nil_append, List.mem_filterMap, List.mem_range, Option.map_eq_some_iff,
    Prod.mk.injEq]
  constructor
  · intro h
    obtain ⟨c, i, hi, c', -, hplace, -⟩ := h
    omega
  · intro h
    have hi : place - chars.length < chars.length := by omega
    refine ⟨op (chars[place - chars.length]), place - chars.length, hi, _,
      List.getElem?_eq_getElem hi, by omega, rfl⟩

/-- The buffer of a code holds it twice, without its whitespace. -/
def Fits (code : String) : Prop := 2 * (remaining code).length ≤ bufferSize code

instance (code : String) : Decidable (Fits code) := inferInstanceAs (Decidable (_ ≤ _))

theorem writes_fit_iff (code : String) :
    (∀ write ∈ writes Char.toUpper (remaining code).length (remaining code),
      write.1 < bufferSize code) ↔ Fits code := by
  have hplaces := @writes_places Char.toUpper (remaining code)
  have hroom : 16 ≤ bufferSize code := Nat.add_le_add_right (Nat.le_max_left _ _) 1
  constructor
  · intro h
    rw [Fits]
    by_contra hnot
    obtain ⟨c, hlast⟩ := (hplaces (2 * (remaining code).length - 1)).mpr (by omega)
    have hinside := h _ hlast
    dsimp only at hinside
    omega
  · intro h write hwrite
    have hplace := (hplaces write.1).mp ⟨write.2, hwrite⟩
    have hfits : 2 * (remaining code).length ≤ bufferSize code := h
    omega

/-- With its output at the end of the string, `transform` leaves the string as it is, or overruns
its buffer. -/
theorem capitalizeAndRemoveBlanks_eq (code : String) :
    capitalizeAndRemoveBlanks code =
      if Fits code then .ok (withoutBlanks code) else .error .overrun := by
  show (transform Char.toUpper (bufferSize code) (remaining code).length (remaining code)).map
    String.ofList = _
  rw [transform_eq, foldl_writeStep_outside (Nat.le_refl _)]
  by_cases hfits : Fits code
  · rw [if_pos hfits, if_pos ((writes_fit_iff code).mpr hfits)]
    rfl
  · rw [if_neg hfits, if_neg fun h => hfits ((writes_fit_iff code).mp h)]
    rfl

/-- The first character goes to the end of the string, which is no place of it. -/
theorem writesInside_iff (code : String) : WritesInside code ↔ withoutBlanks code = "" := by
  have hplaces := @writes_places Char.toUpper (remaining code)
  rw [withoutBlanks, ← String.ofList_nil, String.ofList_inj, WritesInside]
  constructor
  · intro h
    by_contra hsome
    have hlength := List.length_pos_iff.mpr hsome
    obtain ⟨c, hfirst⟩ := (hplaces (remaining code).length).mpr (by omega)
    exact absurd (h _ hfirst) (Nat.lt_irrefl _)
  · intro h write hwrite
    rw [h] at hwrite
    cases hwrite

end Transform

section Codes

theorem codes_eq {identifier : V1.StreamIdentifier} {network station channel : String}
    (hnetwork : identifier.network = some network) (hstation : identifier.station = some station)
    (hchannel : identifier.channel = some channel) :
    codes identifier = [network, station, channel] ++ identifier.location_code.toList := by
  rw [codes, hnetwork, hstation, hchannel]
  cases identifier.location_code <;> rfl

theorem remaining_withoutBlanks (code : String) :
    remaining (withoutBlanks code) = remaining code := by
  rw [withoutBlanks, remaining, String.toList_ofList, remaining, List.filter_filter]
  simp

theorem withoutBlanks_withoutBlanks (code : String) :
    withoutBlanks (withoutBlanks code) = withoutBlanks code := by
  rw [withoutBlanks, remaining_withoutBlanks, withoutBlanks]

/-- A code is capitalised by removing its whitespace when it has no small letter. -/
theorem withoutBlanks_eq_capitals_iff (code : String) :
    withoutBlanks code = capitals code ↔ ∀ c ∈ remaining code, c.toUpper = c := by
  rw [withoutBlanks, capitals, String.ofList_inj]
  constructor
  · intro h c hc
    have hmap : (remaining code).map Char.toUpper = (remaining code).map id := by
      rw [← h, List.map_id]
    exact List.map_inj_left.mp hmap c hc
  · intro h
    rw [List.map_congr_left h, List.map_id']

theorem checkAndFixCode_ok_iff {notSet isEmpty : String} {code : Option String} {result : String} :
    checkAndFixCode notSet isEmpty code = .ok result ↔
      ∃ c, code = some c ∧ Fits c ∧ withoutBlanks c ≠ "" ∧ withoutBlanks c = result := by
  cases code with
  | none => simp [checkAndFixCode]
  | some c =>
    rw [checkAndFixCode, capitalizeAndRemoveBlanks_eq]
    by_cases hfits : Fits c
    · by_cases hempty : withoutBlanks c = "" <;> simp [hfits, hempty, bind, Except.bind]
    · simp [hfits, bind, Except.bind]

theorem fixLocationCode_ok_iff {location_code : Option String} {result : String} :
    fixLocationCode location_code = .ok result ↔
      (∀ c ∈ location_code, Fits c) ∧ dashed (location_code.map withoutBlanks) = result := by
  cases location_code with
  | none => simp [fixLocationCode, dashed]
  | some c =>
    rw [fixLocationCode, capitalizeAndRemoveBlanks_eq]
    by_cases hfits : Fits c <;> simp [hfits, dashed, bind, Except.bind]

/-- What an accepted identifier becomes: its codes without whitespace, in the case they had. -/
theorem checkAndFixStreamIdentifier_ok_iff {identifier result : V1.StreamIdentifier} :
    checkAndFixStreamIdentifier identifier = .ok result ↔
      (∀ code ∈ codes identifier, Fits code) ∧
      ∃ network station channel, identifier.network = some network ∧
        identifier.station = some station ∧ identifier.channel = some channel ∧
        withoutBlanks network ≠ "" ∧ withoutBlanks station ≠ "" ∧ withoutBlanks channel ≠ "" ∧
        result =
          { network := some (withoutBlanks network)
            station := some (withoutBlanks station)
            channel := some (withoutBlanks channel)
            location_code := some (dashed (identifier.location_code.map withoutBlanks)) } := by
  constructor
  · intro h
    obtain ⟨network, hn, h⟩ := bind_eq_ok_iff.mp h
    obtain ⟨station, hs, h⟩ := bind_eq_ok_iff.mp h
    obtain ⟨channel, hc, h⟩ := bind_eq_ok_iff.mp h
    obtain ⟨location, hl, h⟩ := bind_eq_ok_iff.mp h
    cases h
    obtain ⟨n, hnetwork, hfn, hn', rfl⟩ := checkAndFixCode_ok_iff.mp hn
    obtain ⟨s, hstation, hfs, hs', rfl⟩ := checkAndFixCode_ok_iff.mp hs
    obtain ⟨c, hchannel, hfc, hc', rfl⟩ := checkAndFixCode_ok_iff.mp hc
    obtain ⟨hfl, rfl⟩ := fixLocationCode_ok_iff.mp hl
    refine ⟨?_, n, s, c, hnetwork, hstation, hchannel, hn', hs', hc', rfl⟩
    rw [codes_eq hnetwork hstation hchannel]
    simpa [hfn, hfs, hfc] using hfl
  · intro h
    obtain ⟨hfits, n, s, c, hnetwork, hstation, hchannel, hn, hs, hc, rfl⟩ := h
    rw [codes_eq hnetwork hstation hchannel] at hfits
    have hlocation : fixLocationCode identifier.location_code =
        .ok (dashed (identifier.location_code.map withoutBlanks)) :=
      fixLocationCode_ok_iff.mpr ⟨fun code hcode => hfits code
        (List.mem_append_right _ (Option.mem_toList.mpr hcode)), rfl⟩
    rw [checkAndFixStreamIdentifier,
      checkAndFixCode_ok_iff.mpr ⟨n, hnetwork, hfits n (by simp), hn, rfl⟩,
      checkAndFixCode_ok_iff.mpr ⟨s, hstation, hfits s (by simp), hs, rfl⟩,
      checkAndFixCode_ok_iff.mpr ⟨c, hchannel, hfits c (by simp), hc, rfl⟩, hlocation]
    rfl

theorem dashed_withoutBlanks (location_code : Option String) :
    withoutBlanks (dashed (location_code.map withoutBlanks)) =
      dashed (location_code.map withoutBlanks) := by
  cases location_code with
  | none => decide
  | some c =>
    rw [Option.map_some, dashed]
    split
    · decide
    · exact withoutBlanks_withoutBlanks c

theorem dashed_ne_empty (location_code : Option String) : dashed location_code ≠ "" := by
  cases location_code with
  | none => decide
  | some c =>
    rw [dashed]
    split
    · decide
    · assumption

/-- A code that has no whitespace left fits when it has eight characters at most. -/
theorem fits_iff_of_withoutBlanks {code : String} (h : withoutBlanks code = code) :
    Fits code ↔ code.length ≤ 8 := by
  have hlength : (remaining code).length = code.length := by
    rw [← String.length_ofList, ← withoutBlanks, h]
  rw [Fits, hlength, bufferSize]
  omega

/-- Normalising what has been normalised changes nothing, if it fits; the whitespace that is gone
may have made room. -/
theorem checkAndFixStreamIdentifier_idempotent {identifier result : V1.StreamIdentifier}
    (h : checkAndFixStreamIdentifier identifier = .ok result) :
    checkAndFixStreamIdentifier result = .ok result ↔
      ∀ code ∈ codes result, code.length ≤ 8 := by
  obtain ⟨-, n, s, c, -, -, -, hn, hs, hc, rfl⟩ := checkAndFixStreamIdentifier_ok_iff.mp h
  have hcodes := @codes_eq
    { network := some (withoutBlanks n)
      station := some (withoutBlanks s)
      channel := some (withoutBlanks c)
      location_code := some (dashed (identifier.location_code.map withoutBlanks)) } _ _ _
    rfl rfl rfl
  have hclean : ∀ code ∈ codes
      { network := some (withoutBlanks n)
        station := some (withoutBlanks s)
        channel := some (withoutBlanks c)
        location_code := some (dashed (identifier.location_code.map withoutBlanks)) },
      withoutBlanks code = code := by
    rw [hcodes]
    simp [withoutBlanks_withoutBlanks, dashed_withoutBlanks]
  have hfits := forall₂_congr fun code hcode => fits_iff_of_withoutBlanks (hclean code hcode)
  rw [← hfits, checkAndFixStreamIdentifier_ok_iff]
  refine and_iff_left ⟨withoutBlanks n, withoutBlanks s, withoutBlanks c, rfl, rfl, rfl, ?_, ?_, ?_,
    ?_⟩
  · rwa [withoutBlanks_withoutBlanks]
  · rwa [withoutBlanks_withoutBlanks]
  · rwa [withoutBlanks_withoutBlanks]
  · simp only [withoutBlanks_withoutBlanks, Option.map_some, dashed_withoutBlanks]
    rw [dashed, if_neg (dashed_ne_empty _)]

theorem capitals_eq_empty_iff (code : String) : capitals code = "" ↔ withoutBlanks code = "" := by
  rw [capitals, withoutBlanks, ← String.ofList_nil, String.ofList_inj, String.ofList_inj,
    List.map_eq_nil_iff]

theorem dashed_eq_iff {code : String} :
    dashed ((some code).map withoutBlanks) = dashed ((some code).map capitals) ↔
      withoutBlanks code = capitals code := by
  have hempty := capitals_eq_empty_iff code
  rw [Option.map_some, Option.map_some, dashed, dashed]
  by_cases hblank : withoutBlanks code = ""
  · rw [if_pos hblank, if_pos (hempty.mpr hblank), hblank, hempty.mpr hblank]
    exact ⟨fun _ => rfl, fun _ => rfl⟩
  · rw [if_neg hblank, if_neg fun hcapitals => hblank (hempty.mp hcapitals)]

/-- The codes of the result are the capitals of the input exactly when the input has no small
letter. -/
theorem capitalized_iff {identifier result : V1.StreamIdentifier}
    (h : checkAndFixStreamIdentifier identifier = .ok result) :
    Capitalized identifier result ↔
      ∀ code ∈ codes identifier, ∀ c ∈ remaining code, c.toUpper = c := by
  obtain ⟨-, n, s, c, hnetwork, hstation, hchannel, -, -, -, rfl⟩ :=
    checkAndFixStreamIdentifier_ok_iff.mp h
  have hcodes := codes_eq hnetwork hstation hchannel
  simp only [← withoutBlanks_eq_capitals_iff]
  constructor
  · intro hcapitals code hcode
    have hnetwork' := hcapitals.network
    have hstation' := hcapitals.station
    have hchannel' := hcapitals.channel
    rw [hnetwork, Option.map_some, Option.some.injEq] at hnetwork'
    rw [hstation, Option.map_some, Option.some.injEq] at hstation'
    rw [hchannel, Option.map_some, Option.some.injEq] at hchannel'
    rw [hcodes] at hcode
    rcases List.mem_append.mp hcode with hcode | hcode
    · simp only [List.mem_cons, List.not_mem_nil, or_false] at hcode
      rcases hcode with rfl | rfl | rfl
      · exact hnetwork'
      · exact hstation'
      · exact hchannel'
    · have hlocation := Option.some.inj hcapitals.location_code
      rw [Option.mem_toList.mp hcode] at hlocation
      exact dashed_eq_iff.mp hlocation
  · intro hcapitals
    have hmem (code : String) (h : code ∈ [n, s, c]) : withoutBlanks code = capitals code :=
      hcapitals code (by rw [hcodes]; exact List.mem_append_left _ h)
    refine ⟨?_, ?_, ?_, ?_⟩
    · rw [hnetwork, hmem n (by simp)]
      rfl
    · rw [hstation, hmem s (by simp)]
      rfl
    · rw [hchannel, hmem c (by simp)]
      rfl
    · cases hlocation : identifier.location_code with
      | none => rfl
      | some code =>
        have hcode : code ∈ codes identifier := by simp [hcodes, hlocation]
        exact congrArg some (dashed_eq_iff.mpr (hcapitals code hcode))

/-- The whitespace is removed and the case kept, so an accepted identifier is never normalised as
it should be: the capitals are written behind its codes. -/
theorem identifier_never_properly_normalized {identifier result : V1.StreamIdentifier}
    (h : checkAndFixStreamIdentifier identifier = .ok result) :
    ¬ ProperlyNormalized identifier result ∧
      (Capitalized identifier result ↔
        ∀ code ∈ codes identifier, ∀ c ∈ remaining code, c.toUpper = c) ∧
      (∀ code ∈ codes identifier, WritesInside code ↔ withoutBlanks code = "") ∧
      (checkAndFixStreamIdentifier result = .ok result ↔
        ∀ code ∈ codes result, code.length ≤ 8) := by
  refine ⟨?_, capitalized_iff h, fun code _ => writesInside_iff code,
    checkAndFixStreamIdentifier_idempotent h⟩
  intro hproper
  obtain ⟨-, n, -, -, hnetwork, -, -, hn, -⟩ := checkAndFixStreamIdentifier_ok_iff.mp h
  have hmem : n ∈ codes identifier := by simp [codes, hnetwork]
  exact hn ((writesInside_iff n).mp (hproper.inside n hmem))

end Codes

/-- An identifier in small letters, and the same in capitals. -/
def smallLetters : V1.StreamIdentifier :=
  { network := some "uu", station := some " fork", channel := some "hhz" }

def capitalLetters : V1.StreamIdentifier :=
  { network := some "UU", station := some "FORK", channel := some "HHZ" }

def smallLettersResult : V1.StreamIdentifier :=
  { network := some "uu", station := some "fork", channel := some "hhz"
    location_code := some "--" }

theorem smallLetters_never_properly_normalized :
    ¬ ProperlyNormalized smallLetters smallLettersResult ∧
      (Capitalized smallLetters smallLettersResult ↔
        ∀ code ∈ codes smallLetters, ∀ c ∈ remaining code, c.toUpper = c) ∧
      (∀ code ∈ codes smallLetters, WritesInside code ↔ withoutBlanks code = "") ∧
      (checkAndFixStreamIdentifier smallLettersResult = .ok smallLettersResult ↔
        ∀ code ∈ codes smallLettersResult, code.length ≤ 8) :=
  identifier_never_properly_normalized (by decide)

/-- Small letters are kept, so the identifier differs from the one in capitals; and the capitals
of the network are written to the places behind its two letters. -/
theorem smallLetters_kept :
    checkAndFixStreamIdentifier smallLetters = .ok smallLettersResult ∧
      ¬ Capitalized smallLetters smallLettersResult ∧
      SameLetters smallLetters capitalLetters ∧
      checkAndFixStreamIdentifier capitalLetters ≠ .ok smallLettersResult ∧
      writes Char.toUpper 2 ['u', 'u'] = [(2, 'U'), (3, 'U')] ∧
      ¬ ProperlyNormalized smallLetters smallLettersResult := by
  have hnot : ¬ Capitalized smallLetters smallLettersResult := by
    intro h
    have hnetwork := h.network
    revert hnetwork
    decide
  refine ⟨by decide, hnot, ⟨by decide, by decide, by decide, by decide⟩, by decide, by decide, ?_⟩
  intro h
  exact hnot h.capitalized

end PickBroker
