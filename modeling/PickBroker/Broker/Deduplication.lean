import PickBroker.Broker.Queueing

namespace PickBroker

open Framework

/-- The pick is in the table with this received time: no cleaning has reached its row since. -/
def StillStored (tr : List Action) (t : Int64) (pick : V1.Pick) : Prop :=
  ∃ before after, tr = before ++ .inserted t pick :: after ∧
    ∀ time, .deletedBefore time ∈ after → ¬ t < time

/-- The same, and the pick has been handed to the subscribe service since. -/
def HandedStored (tr : List Action) (t : Int64) (pick : V1.Pick) : Prop :=
  ∃ before after, tr = before ++ .inserted t pick :: after ∧ .enqueued t pick ∈ after ∧
    ∀ time, .deletedBefore time ∈ after → ¬ t < time

section Append

variable {tr actions : List Action} {t : Int64} {pick : V1.Pick}

theorem HandedStored.stillStored (h : HandedStored tr t pick) : StillStored tr t pick := by
  obtain ⟨before, after, htr, _, hdeleted⟩ := h
  exact ⟨before, after, htr, hdeleted⟩

theorem HandedStored.mem (h : HandedStored tr t pick) : .enqueued t pick ∈ tr := by
  obtain ⟨before, after, rfl, hmem, _⟩ := h
  simp [hmem]

/-- An action of a longer trace is in its first or in its second part. -/
theorem split_append {before after : List Action} {a : Action}
    (h : tr ++ actions = before ++ a :: after) :
    (∃ rest, tr = before ++ a :: rest ∧ after = rest ++ actions) ∨
      ∃ front, before = tr ++ front ∧ actions = front ++ a :: after := by
  rcases List.append_eq_append_iff.mp h with ⟨front, hbefore, hactions⟩ | ⟨rest, htr, hrest⟩
  · exact .inr ⟨front, hbefore, hactions⟩
  · cases rest with
    | nil => exact .inr ⟨[], by simpa using htr.symm, hrest.symm⟩
    | cons b rest =>
      cases hrest
      exact .inl ⟨rest, htr, rfl⟩

theorem StillStored.of_append (h : StillStored (tr ++ actions) t pick) :
    (StillStored tr t pick ∧ ∀ time, .deletedBefore time ∈ actions → ¬ t < time) ∨
      .inserted t pick ∈ actions := by
  obtain ⟨before, after, hsplit, hdeleted⟩ := h
  rcases split_append hsplit with ⟨rest, htr, rfl⟩ | ⟨front, _, hactions⟩
  · have hrest : ∀ time, .deletedBefore time ∈ rest → ¬ t < time :=
      fun time htime => hdeleted time (List.mem_append_left _ htime)
    exact .inl ⟨⟨before, rest, htr, hrest⟩,
      fun time htime => hdeleted time (List.mem_append_right _ htime)⟩
  · right
    simp [hactions]

/-- A step that enqueues nothing hands nothing over. -/
theorem HandedStored.of_append (h : HandedStored (tr ++ actions) t pick)
    (hactions : .enqueued t pick ∉ actions) : HandedStored tr t pick := by
  obtain ⟨before, after, hsplit, hmem, hdeleted⟩ := h
  rcases split_append hsplit with ⟨rest, htr, rfl⟩ | ⟨front, _, rfl⟩
  · have hrest : .enqueued t pick ∈ rest := (List.mem_append.mp hmem).resolve_right hactions
    exact ⟨before, rest, htr, hrest,
      fun time htime => hdeleted time (List.mem_append_left _ htime)⟩
  · exact absurd (by simp [hmem]) hactions

end Append

namespace Pipeline

variable {Bytes : Type*} [DecidableEq Bytes] {codec : Codec Bytes} {capacity : ℕ}
  {P P' : Pipeline Bytes} {actions : List Action}

/-- A row goes only when a deletion reaches it. -/
theorem Step.row (h : Step codec capacity P actions P') {row : Int64 × Bytes}
    (hrow : row ∈ P.table.rows) (hkept : ∀ time, .deletedBefore time ∈ actions → ¬ row.1 < time) :
    row ∈ P'.table.rows := by
  cases h with
  | insert hand hproto hnew =>
    rw [UniqueTable.rows_insertOrIgnore hnew]
    exact List.mem_append_left _ hrow
  | delete time => exact UniqueTable.mem_deleteBefore.mpr ⟨hrow, hkept time (by simp)⟩
  | _ => exact hrow

/-- An insertion is that of a pick that was not in the table, and now is. -/
theorem Step.inserts (h : Step codec capacity P actions P') {t : Int64} {pick : V1.Pick}
    (hmem : .inserted t pick ∈ actions) :
    ∃ proto, codec.serialize pick = some proto ∧ proto ∉ P.table.values ∧
      (t, proto) ∈ P'.table.rows := by
  cases h with
  | idle hquiet => exact absurd (hquiet _ hmem) (by simp [Action.quiet])
  | insert hand hproto hnew =>
    simp only [List.mem_singleton, Action.inserted.injEq] at hmem
    obtain ⟨rfl, rfl⟩ := hmem
    refine ⟨_, hproto, hnew, ?_⟩
    rw [UniqueTable.rows_insertOrIgnore hnew]
    exact List.mem_append_right _ (List.mem_singleton_self _)
  | _ => simp at hmem

/-- What is handed over was in the hands. -/
theorem Step.enqueues (h : Step codec capacity P actions P') {t : Int64} {pick : V1.Pick}
    (hmem : .enqueued t pick ∈ actions) :
    P.hand = .inserted t pick ∧ ∃ cutoff, actions = [.cleanedBefore cutoff, .enqueued t pick] := by
  cases h with
  | idle hquiet => exact absurd (hquiet _ hmem) (by simp [Action.quiet])
  | enqueue hand clean hperm =>
    simp only [List.mem_cons, reduceCtorEq, false_or, Action.enqueued.injEq, List.not_mem_nil,
      or_false] at hmem
    obtain ⟨rfl, rfl⟩ := hmem
    exact ⟨hand, _, rfl⟩
  | _ => simp at hmem

/-- What is in the hands for the subscribe service has been there, or is inserted. -/
theorem Step.hands (h : Step codec capacity P actions P') {t : Int64} {pick : V1.Pick}
    (hand' : P'.hand = .inserted t pick) :
    enqueuedPicks actions = [] ∧
      (P.hand = .inserted t pick ∨ .inserted t pick ∈ actions) := by
  cases h with
  | idle hquiet => exact ⟨by simp [quiet_lists hquiet], .inl hand'⟩
  | accept hqueue room pick => exact ⟨by simp [enqueuedPicks, List.filterMap_map], .inl hand'⟩
  | insert hand hproto hnew =>
    cases hand'
    exact ⟨rfl, .inr (by simp)⟩
  | ret hcall => exact ⟨rfl, .inl hand'⟩
  | delete time => exact ⟨rfl, .inl hand'⟩
  | _ => cases hand'

end Pipeline

/-- What the table's uniqueness comes to along a run: no pick is handed over while an equal one
that has been handed over is in the table. -/
structure Deduplicated {Bytes : Type*} (codec : Codec Bytes) (P : Pipeline Bytes)
    (tr : List Action) : Prop where
  rows : ∀ t pick, StillStored tr t pick →
    ∃ proto, codec.serialize pick = some proto ∧ (t, proto) ∈ P.table.rows
  hand : ∀ t pick, P.hand = .inserted t pick → ∀ t' pick', HandedStored tr t' pick' →
    pick' ≠ pick
  once : ∀ before t pick after, tr = before ++ .enqueued t pick :: after →
    ∀ t' pick', HandedStored before t' pick' → pick' ≠ pick

section Step

variable {Bytes : Type*} [DecidableEq Bytes] {codec : Codec Bytes} {capacity : ℕ}
  {P P' : Pipeline Bytes} {actions tr : List Action}

theorem Deduplicated.rows_step (h : Deduplicated codec P tr)
    (hstep : Pipeline.Step codec capacity P actions P') {t : Int64} {pick : V1.Pick}
    (hstored : StillStored (tr ++ actions) t pick) :
    ∃ proto, codec.serialize pick = some proto ∧ (t, proto) ∈ P'.table.rows := by
  rcases hstored.of_append with ⟨hbefore, hkept⟩ | hnew
  · obtain ⟨proto, hproto, hrow⟩ := h.rows t pick hbefore
    exact ⟨proto, hproto, hstep.row hrow hkept⟩
  · obtain ⟨proto, hproto, _, hrow⟩ := hstep.inserts hnew
    exact ⟨proto, hproto, hrow⟩

theorem Deduplicated.hand_step (h : Deduplicated codec P tr)
    (hstep : Pipeline.Step codec capacity P actions P') {t t' : Int64} {pick pick' : V1.Pick}
    (hand : P'.hand = .inserted t pick) (hhanded : HandedStored (tr ++ actions) t' pick') :
    pick' ≠ pick := by
  obtain ⟨hnone, hfrom⟩ := hstep.hands hand
  have hactions : .enqueued t' pick' ∉ actions := by
    rw [← mem_enqueuedPicks, hnone]
    exact List.not_mem_nil
  have hbefore := hhanded.of_append hactions
  rcases hfrom with hold | hnew
  · exact h.hand t pick hold t' pick' hbefore
  · -- What is inserted differs from all that is in the table.
    obtain ⟨proto, hproto, hfresh, _⟩ := hstep.inserts hnew
    obtain ⟨proto', hproto', hrow⟩ := h.rows t' pick' hbefore.stillStored
    rintro rfl
    have hsame : proto' = proto := Option.some.inj (hproto'.symm.trans hproto)
    exact hfresh (UniqueTable.mem_values.mpr ⟨t', hsame ▸ hrow⟩)

theorem Deduplicated.step (h : Deduplicated codec P tr)
    (hstep : Pipeline.Step codec capacity P actions P') : Deduplicated codec P' (tr ++ actions) where
  rows _ _ hstored := h.rows_step hstep hstored
  hand _ _ hand _ _ hhanded := h.hand_step hstep hand hhanded
  once before t pick after hsplit t' pick' hhanded := by
    rcases split_append hsplit with ⟨rest, htr, _⟩ | ⟨front, rfl, hactions⟩
    · exact h.once before t pick rest htr t' pick' hhanded
    · have hmem : .enqueued t pick ∈ actions := by simp [hactions]
      obtain ⟨hand, cutoff, hlabel⟩ := hstep.enqueues hmem
      rw [hlabel] at hactions
      have hfront : .enqueued t' pick' ∉ front := by
        rcases front with _ | ⟨a, _ | ⟨b, front⟩⟩
        · exact List.not_mem_nil
        · obtain ⟨rfl, _⟩ := List.cons.inj hactions
          simp
        · simp at hactions
      exact h.hand t pick hand t' pick' (hhanded.of_append hfront)

end Step

/-- The picks the publishers submit and the broker accepts. -/
def submissions (events : List BrokerEvent) : List V1.Pick :=
  events.filterMap fun
    | .addPickCallback pick now => (checkAndFixPick pick now).toOption
    | _ => none

/-- Picks that read equal also have the same fields set and the same timestamp. -/
def SameForm (p q : V1.Pick) : Prop :=
  V1.comparePicks p q → p.time = q.time ∧ p.phase_hint.isSome = q.phase_hint.isSome ∧
    p.getAlgorithm.tag.isSome = q.getAlgorithm.tag.isSome

instance (p q : V1.Pick) : Decidable (SameForm p q) :=
  inferInstanceAs (Decidable (_ → _))

theorem getD_inj {α : Type*} {a b : Option α} {d : α} (hset : a.isSome = b.isSome)
    (h : a.getD d = b.getD d) : a = b := by
  cases a with
  | none => exact (Option.isNone_iff_eq_none.mp (by simpa using hset.symm)).symm
  | some x =>
    cases b with
    | none => simp at hset
    | some y => exact congrArg some h

/-- Where two normalised picks have the same form, bytes decide as the getters do. -/
theorem eq_of_comparePicks {p q : V1.Pick} (hp : Normalized p) (hq : Normalized q)
    (hform : SameForm p q) (h : V1.comparePicks p q) : p = q := by
  obtain ⟨htime, hphase, htag⟩ := hform h
  obtain ⟨⟨n, s, c, l, hidentifier⟩, _, ⟨name, version, tag, halgorithm⟩⟩ := hp
  obtain ⟨⟨n', s', c', l', hidentifier'⟩, _, ⟨name', version', tag', halgorithm'⟩⟩ := hq
  rcases p with ⟨identifier, time, phase_hint, algorithm⟩
  rcases q with ⟨identifier', time', phase_hint', algorithm'⟩
  cases hidentifier
  cases hidentifier'
  cases halgorithm
  cases halgorithm'
  cases htime
  have hread := of_decide_eq_true h
  simp only [V1.Pick.getStreamIdentifier, V1.Pick.getAlgorithm, V1.Pick.getPhaseHint,
    V1.StreamIdentifier.getNetwork, V1.StreamIdentifier.getStation,
    V1.StreamIdentifier.getChannel, V1.StreamIdentifier.getLocationCode, V1.Algorithm.getName,
    V1.Algorithm.getVersion, V1.Algorithm.getTag, Option.getD_some] at hread
  obtain ⟨rfl, rfl, rfl, rfl, _, hhint, rfl, rfl, htags⟩ := hread
  have hsamePhase : phase_hint = phase_hint' := getD_inj hphase hhint
  have hsameTag : tag = tag' := getD_inj htag htags
  rw [hsamePhase, hsameTag]

theorem accepted_answer {Bytes : Type*} [DecidableEq Bytes] (codec : Codec Bytes)
    (sorting : Sorting Int64 V1.Pick) (B : Broker Bytes) (event : BrokerEvent) :
    accepted ((broker codec sorting).answer B event) = submissions [event] := by
  cases event with
  | addPickCallback pick now =>
    simp only [Machine.answer, broker, Broker.addPickCallback, submissions, List.filterMap_cons,
      List.filterMap_nil]
    cases checkAndFixPick pick now with
    | error failure => cases failure <;> rfl
    | ok pick => simp [accepted, List.filterMap_map, Except.toOption]
  | callbackReturns i =>
    simp only [Machine.answer, broker, Broker.callbackReturns]
    split <;> rfl
  | processPick readings =>
    simp only [Machine.answer, broker, Broker.processPick]
    repeat' split
    all_goals rfl
  | cleanDatabase now stmt =>
    simp only [Machine.answer, broker, Broker.cleanDatabase]
    repeat' split
    all_goals rfl
  | stop fetched => rfl
  | streamSince contextAddress request client_metadata =>
    simp only [Machine.answer, broker, Broker.serve]
    split <;> rfl
  | reactor i event =>
    simp only [Machine.answer, broker, Broker.serve]
    split
    · rfl
    · simp [accepted, List.filterMap_map, submissions]

theorem accepted_trace {Bytes : Type*} [DecidableEq Bytes] (codec : Codec Bytes)
    (sorting : Sorting Int64 V1.Pick) (B : Broker Bytes) (events : List BrokerEvent) :
    accepted ((broker codec sorting).trace B events) = submissions events := by
  induction events generalizing B with
  | nil => rfl
  | cons event events ih =>
    have hcons : submissions (event :: events) = submissions [event] ++ submissions events :=
      List.filterMap_append (l := [event])
    simp only [Machine.trace_cons, lists_append, ih, accepted_answer, hcons]

theorem submissions_normalized {events : List BrokerEvent} {pick : V1.Pick}
    (h : pick ∈ submissions events) : Normalized pick := by
  obtain ⟨event, _, hpick⟩ := List.mem_filterMap.mp h
  cases event with
  | addPickCallback raw now =>
    cases hfix : checkAndFixPick raw now with
    | error e => simp [hfix, Except.toOption] at hpick
    | ok fixed =>
      have hsame : fixed = pick := by simpa [hfix, Except.toOption] using hpick
      exact hsame ▸ checkAndFixPick_normalized hfix
  | _ => cases hpick

theorem enqueued_accepted {Bytes : Type*} {capacity : ℕ} {P : Pipeline Bytes}
    {tr : List Action} (h : Booked capacity P tr) {t : Int64} {pick : V1.Pick}
    (hmem : .enqueued t pick ∈ tr) : pick ∈ accepted tr := by
  have hpick : pick ∈ (enqueuedPicks tr).map Prod.snd :=
    List.mem_map_of_mem (mem_enqueuedPicks.mpr hmem)
  rw [(accepted_places h).mem_iff]
  exact List.mem_append_right _ hpick

theorem deduplicated_run {Bytes : Type*} [DecidableEq Bytes] (codec : Codec Bytes)
    (sorting : Sorting Int64 V1.Pick) (options : BrokerOptions) (database : Database Bytes)
    (subscribeService : SubscribeService V1.Pick) (events : List BrokerEvent) :
    let start := Broker.started options database subscribeService
    Deduplicated codec ((broker codec sorting).final start events).pipeline
      ((broker codec sorting).trace start events) := by
  intro start
  have hstart : Deduplicated codec start.pipeline [] := by
    refine ⟨?_, ?_, ?_⟩
    · rintro t pick ⟨before, after, hnil, _⟩
      simp at hnil
    · intro t pick hand
      cases hand
    · intro before t pick after hnil
      simp at hnil
  apply pipeline_invariant_of_step codec sorting _ events hstart
  intro P actions P' tr hP hstep
  exact hP.step hstep

/-- No pick is handed to the subscribe service while an earlier one that reads equal has been
handed over and is still in the database, as long as the accepted picks that read equal have the
same form. -/
theorem handed_once {Bytes : Type*} [DecidableEq Bytes] (codec : Codec Bytes)
    (sorting : Sorting Int64 V1.Pick) (options : BrokerOptions) (database : Database Bytes)
    (subscribeService : SubscribeService V1.Pick) (events : List BrokerEvent)
    (hform : ∀ p ∈ submissions events, ∀ q ∈ submissions events, SameForm p q) :
    let tr := (broker codec sorting).trace
      (Broker.started options database subscribeService) events
    ∀ before t pick after, tr = before ++ .enqueued t pick :: after →
      ∀ t' pick', HandedStored before t' pick' → V1.comparePicks pick' pick = false := by
  intro tr before t pick after hsplit t' pick' hhanded
  have hbooked := booked_run codec sorting options database subscribeService events
  have hsubmitted : accepted tr = submissions events := accepted_trace codec sorting _ events
  have hpick : pick ∈ submissions events := by
    have hmem : .enqueued t pick ∈ tr := by simp [hsplit]
    exact hsubmitted ▸ enqueued_accepted hbooked hmem
  have hpick' : pick' ∈ submissions events := by
    have hmem : .enqueued t' pick' ∈ tr := by simp [hsplit, hhanded.mem]
    exact hsubmitted ▸ enqueued_accepted hbooked hmem
  have hdifferent : pick' ≠ pick :=
    (deduplicated_run codec sorting options database subscribeService events).once
      before t pick after hsplit t' pick' hhanded
  by_contra hequal
  have hsame := eq_of_comparePicks (submissions_normalized hpick') (submissions_normalized hpick)
    (hform pick' hpick' pick hpick) (by simpa using hequal)
  exact hdifferent hsame

/-- The same pick again, with an empty tag instead of none. -/
def emptyTag : V1.Pick :=
  { samplePick with algorithm := some { name := some "uFilterPicker", version := some "1.0.0"
                                        tag := some "" } }

def submittedTwice (again : V1.Pick) : List BrokerEvent :=
  .addPickCallback samplePick 1 :: processed 1 ++ .addPickCallback again 2 :: processed 2

theorem handed_once_otherPhase : V1.comparePicks samplePick otherPhase = false := by
  refine handed_once Codec.plain (Sorting.stable Int64 V1.Pick) bothServices {}
    (.started (Sorting.stable Int64 V1.Pick) (.backfilled {} [] 0) {} false)
    (submittedTwice otherPhase) (by decide)
    [.accepted samplePick, .took samplePick, .inserted 1 samplePick,
      .cleanedBefore (1 - 900000000000), .enqueued 1 samplePick, .accepted otherPhase,
      .took otherPhase, .inserted 2 otherPhase, .cleanedBefore (2 - 900000000000)] 2 otherPhase []
    (by decide) 1 samplePick ?_
  exact ⟨[.accepted samplePick, .took samplePick], _, rfl, by decide, by simp⟩

/-- Both forms of the pick are handed over, the second while the first is in the table. -/
theorem emptyTag_handed_twice :
    ∃ before t pick after t' pick',
      (broker Codec.plain (Sorting.stable Int64 V1.Pick)).trace freshBroker
          (submittedTwice emptyTag) = before ++ .enqueued t pick :: after ∧
        HandedStored before t' pick' ∧ V1.comparePicks pick' pick = true := by
  refine ⟨[.accepted samplePick, .took samplePick, .inserted 1 samplePick,
      .cleanedBefore (1 - 900000000000), .enqueued 1 samplePick, .accepted emptyTag,
      .took emptyTag, .inserted 2 emptyTag, .cleanedBefore (2 - 900000000000)], 2, emptyTag, [],
    1, samplePick, by decide, ?_, by decide⟩
  exact ⟨[.accepted samplePick, .took samplePick], _, rfl, by decide, by simp⟩

end PickBroker
