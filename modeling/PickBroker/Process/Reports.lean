import PickBroker.Framework.Int64Range
import PickBroker.Process.Process

namespace PickBroker

open Framework

/-- What the reports have told so far of one of their two numbers. -/
def Report.total (number : Report → Int64) : List Report → Int64
  | [] => 0
  | report :: reports => number report + total number reports

theorem Report.total_append (number : Report → Int64) (reports : List Report) (report : Report) :
    total number (reports ++ [report]) = total number reports + number report := by
  induction reports with
  | nil => simp [total]
  | cons first reports ih => rw [List.cons_append, total, ih, total, Int64.add_assoc]

namespace Process

variable (P : Process) (readings : MainReadings)

/-- A summary is written when it is due, and nothing happens otherwise. -/
theorem printSummary_cases :
    P.printSummary readings = (P, []) ∨
      0 < P.printSummaryInterval ∧ P.mLastReport + P.printSummaryInterval ≤ readings.now ∧
        P.printSummary readings =
          ({ P with
              mLastReport := readings.now
              mPicksReceivedLastReport := readings.nPicksReceived
              mPicksSentLastReport := readings.nPicksSent },
            [{ now := readings.now
               nReportReceived := readings.nPicksReceived - P.mPicksReceivedLastReport
               nReportSent := readings.nPicksSent - P.mPicksSentLastReport }]) := by
  unfold printSummary
  split
  · exact Or.inl rfl
  split
  · exact Or.inl rfl
  · exact Or.inr ⟨Int64.not_le.mp ‹_›, Int64.not_lt.mp ‹_›, rfl⟩

/-- What a summary starts from. -/
def lastReport : Int64 × Int64 × Int64 × Int64 :=
  (P.printSummaryInterval, P.mLastReport, P.mPicksReceivedLastReport, P.mPicksSentLastReport)

theorem getFuture_lastReport (returned threw : MainThread) :
    (P.getFuture returned threw).lastReport = P.lastReport := by
  unfold getFuture
  dsimp only
  split <;> rfl

/-- The main thread reports in its summary only. -/
theorem step_reports (h : P.mainThread ≠ .printSummary) :
    (P.step readings).2 = [] ∧ (P.step readings).1.lastReport = P.lastReport := by
  cases hpc : P.mainThread
  case printSummary => exact absurd hpc h
  case getFutures | getFuturesAgain | getFuturesAtLast => simp [step, hpc, getFuture_lastReport]
  case start | testInterrupted | checkFutures =>
    simp only [step, hpc]
    split <;> exact ⟨rfl, rfl⟩
  all_goals simp [step, hpc, stop, lastReport]

end Process

/-- Neither the clock nor the interval is so late that the next summary is due beyond 64 bits. -/
def InTime (printSummaryInterval : Int64) : ProcessEvent → Prop
  | .mainThread readings => readings.now.toInt + printSummaryInterval.toInt < 2 ^ 63
  | .signal | .terminates _ => True

instance (printSummaryInterval : Int64) :
    (event : ProcessEvent) → Decidable (InTime printSummaryInterval event)
  | .mainThread _ => inferInstanceAs (Decidable (_ < _))
  | .signal | .terminates _ => .isTrue trivial

/-- The last summary tells all that the summaries have told together, and each of them took an
interval. -/
structure Reported (printSummaryInterval constructed : Int64) (P : Process)
    (reports : List Report) : Prop where
  interval : P.printSummaryInterval = printSummaryInterval
  received : Report.total Report.nReportReceived reports = P.mPicksReceivedLastReport
  sent : Report.total Report.nReportSent reports = P.mPicksSentLastReport
  spaced : constructed.toInt + reports.length * printSummaryInterval.toInt ≤ P.mLastReport.toInt
  inTime : P.mLastReport.toInt + printSummaryInterval.toInt < 2 ^ 63

namespace Reported

variable {printSummaryInterval constructed : Int64} {P P' : Process} {reports : List Report}

theorem congr (h : Reported printSummaryInterval constructed P reports)
    (hsame : P'.lastReport = P.lastReport) :
    Reported printSummaryInterval constructed P' reports := by
  simp only [Process.lastReport, Prod.mk.injEq] at hsame
  obtain ⟨hinterval, hlast, hreceived, hsent⟩ := hsame
  exact ⟨hinterval.trans h.interval, h.received.trans hreceived.symm, h.sent.trans hsent.symm,
    hlast ▸ h.spaced, hlast ▸ h.inTime⟩

theorem printSummary (h : Reported printSummaryInterval constructed P reports)
    (readings : MainReadings) (hclock : InTime printSummaryInterval (.mainThread readings)) :
    Reported printSummaryInterval constructed (P.printSummary readings).1
      (reports ++ (P.printSummary readings).2) := by
  rcases P.printSummary_cases readings with hnone | ⟨hpos, hdue, hsome⟩
  · rw [hnone]
    simpa using h
  rw [h.interval] at hpos hdue
  have hpos' : 0 < printSummaryInterval.toInt := Int64.lt_iff_toInt_lt.mp hpos
  have hnext : (P.mLastReport + printSummaryInterval).toInt =
      P.mLastReport.toInt + printSummaryInterval.toInt := by
    have hlow := P.mLastReport.le_toInt
    exact (toInt_add_iff _ _).mpr ⟨by omega, h.inTime⟩
  have hspaced := h.spaced
  have hdue' := Int64.le_iff_toInt_le.mp hdue
  rw [hnext] at hdue'
  have hback (a b : Int64) : a + (b - a) = b := by rw [Int64.add_comm, Int64.sub_add_cancel]
  rw [hsome]
  refine ⟨h.interval, ?_, ?_, ?_, hclock⟩
  · rw [Report.total_append, h.received]
    exact hback ..
  · rw [Report.total_append, h.sent]
    exact hback ..
  · simp only [List.length_append, List.length_singleton]
    push_cast
    linarith

theorem next (h : Reported printSummaryInterval constructed P reports) (event : ProcessEvent)
    (hclock : InTime printSummaryInterval event) :
    Reported printSummaryInterval constructed (process.next P event)
      (reports ++ process.answer P event) := by
  have hsilent : reports ++ [] = reports := List.append_nil reports
  cases event with
  | mainThread readings =>
    by_cases hpc : P.mainThread = .printSummary
    · have hstep : P.step readings = ({ (P.printSummary readings).1 with mainThread := .wait },
          (P.printSummary readings).2) := by
        simp only [Process.step, hpc]
      simp only [Machine.next, Machine.answer, process, hstep]
      exact (h.printSummary readings hclock).congr rfl
    · obtain ⟨hnone, hsame⟩ := P.step_reports readings hpc
      simp only [Machine.next, Machine.answer, process, hnone, hsilent]
      exact h.congr hsame
  | signal =>
    have hsame : P.signal.lastReport = P.lastReport := by
      unfold Process.signal
      split <;> rfl
    simp only [Machine.next, Machine.answer, process, hsilent]
    exact h.congr hsame
  | terminates termination =>
    simp only [Machine.next, Machine.answer, process, hsilent]
    exact h.congr rfl

end Reported

/-- The step that writes a summary keeps what it has read for the next one. -/
theorem answer_ne_nil {P : Process} {readings : MainReadings}
    (h : process.answer P (.mainThread readings) ≠ []) :
    (process.next P (.mainThread readings)).lastReport = (P.printSummaryInterval, readings.now,
      readings.nPicksReceived, readings.nPicksSent) := by
  by_cases hpc : P.mainThread = .printSummary
  · simp only [Machine.answer, process, Process.step, hpc] at h
    rcases P.printSummary_cases readings with hnone | ⟨-, -, hsome⟩
    · rw [hnone] at h
      exact absurd rfl h
    · simp only [Machine.next, process, Process.step, hpc, hsome]
      rfl
  · exact absurd (P.step_reports readings hpc).1 h

/-- Whenever a summary is written, the summaries of the whole run add up to the two counters as it
has read them, and since the process was constructed an interval has passed for each of them. -/
theorem summaries_account (printSummaryInterval mLastReport : Int64) (events : List ProcessEvent)
    (readings : MainReadings)
    (hconstructed : mLastReport.toInt + printSummaryInterval.toInt < 2 ^ 63)
    (hclock : ∀ event ∈ events ++ [.mainThread readings], InTime printSummaryInterval event)
    (hwritten : process.answer (process.final (.new printSummaryInterval mLastReport) events)
      (.mainThread readings) ≠ []) :
    let reports := process.trace (.new printSummaryInterval mLastReport)
      (events ++ [.mainThread readings])
    Report.total Report.nReportReceived reports = readings.nPicksReceived ∧
      Report.total Report.nReportSent reports = readings.nPicksSent ∧
      mLastReport.toInt + reports.length * printSummaryInterval.toInt ≤ readings.now.toInt := by
  intro reports
  have hstart : Reported printSummaryInterval mLastReport
      (.new printSummaryInterval mLastReport) [] := by
    refine ⟨rfl, rfl, rfl, ?_, hconstructed⟩
    simp [Process.new]
  have hrun := process.invariant_trace (fun P event tr hP hok => hP.next event hok) hstart
    (process.meets_of_forall _ hclock)
  have hlast := answer_ne_nil hwritten
  rw [process.final_append, process.final_cons, process.final_nil] at hrun
  simp only [Process.lastReport, Prod.mk.injEq] at hlast
  obtain ⟨-, hnow, hreceived, hsent⟩ := hlast
  exact ⟨hrun.received.trans hreceived, hrun.sent.trans hsent, hnow ▸ hrun.spaced⟩

/-- Two summaries, a minute apart at least. -/
def summarizing : List ProcessEvent :=
  let check : List ProcessEvent := [.mainThread {}, .mainThread {}, .mainThread {}]
  [.mainThread {}] ++ check ++
    [.mainThread { now := 60, nPicksReceived := 5, nPicksSent := 9 }, .mainThread {}] ++ check

theorem summaries_account_twoSummaries :
    let reports := process.trace (.new 60 0)
      (summarizing ++ [.mainThread { now := 125, nPicksReceived := 8, nPicksSent := 15 }])
    Report.total Report.nReportReceived reports = 8 ∧ Report.total Report.nReportSent reports = 15 ∧
      (0 : Int64).toInt + reports.length * (60 : Int64).toInt ≤ (125 : Int64).toInt :=
  summaries_account 60 0 summarizing { now := 125, nPicksReceived := 8, nPicksSent := 15 }
    (by decide) (by decide) (by decide)

end PickBroker
