import PickBroker.Broker.Lifecycle

namespace PickBroker

open Framework

inductive ExitCode where
  | EXIT_SUCCESS
  | EXIT_FAILURE
  deriving DecidableEq

/-- What the main thread does next: `start`, the loop of `handleMainThread`, `stop`, and then the
destructors of the process and of its broker, which stop the broker once more each. A signal kills
the process until `stdCatchSignals` has been called, and an exception out of a destructor aborts
it. -/
inductive MainThread where
  | start
  | loop
  | testInterrupted
  | checkFutures
  | printSummary
  | wait
  | stop
  | getFutures
  | destroyProcess (code : ExitCode)
  | getFuturesAgain (code : ExitCode)
  | destroyBroker (code : ExitCode)
  | getFuturesAtLast (code : ExitCode)
  | exited (code : ExitCode)
  | killed
  | aborted
  deriving DecidableEq

/-- The process of `main`, once it has been constructed. Times are in seconds. -/
structure Process where
  broker : Lifecycle := {}
  printSummaryInterval : Int64
  mInterrupted : Bool := false
  mStopRequested : Bool := false
  mIsRunning : Bool := false
  mLastReport : Int64
  mPicksReceivedLastReport : Int64 := 0
  mPicksSentLastReport : Int64 := 0
  mainThread : MainThread := .start

def Process.new (printSummaryInterval mLastReport : Int64) : Process :=
  { printSummaryInterval, mLastReport }

/-- What the main thread finds: the clock, the two counters of the metrics, and the workers that end
while it looks at the futures. -/
structure MainReadings where
  now : Int64 := 0
  nPicksReceived : Int64 := 0
  nPicksSent : Int64 := 0
  meanwhile : Worker → List Termination := fun _ => []

/-- A line that `printSummary` writes. -/
structure Report where
  now : Int64
  nReportReceived : Int64
  nReportSent : Int64
  deriving DecidableEq

/-- A step of the main thread, a signal, or a worker that ends. -/
inductive ProcessEvent where
  | mainThread (readings : MainReadings)
  | signal
  | terminates (termination : Termination)

namespace Process

def printSummary (P : Process) (readings : MainReadings) : Process × List Report :=
  if P.printSummaryInterval ≤ 0 then (P, [])
  else if readings.now < P.mLastReport + P.printSummaryInterval then (P, [])
  else
    ({ P with
        mLastReport := readings.now
        mPicksReceivedLastReport := readings.nPicksReceived
        mPicksSentLastReport := readings.nPicksSent },
      [{ now := readings.now
         nReportReceived := readings.nPicksReceived - P.mPicksReceivedLastReport
         nReportSent := readings.nPicksSent - P.mPicksSentLastReport }])

/-- `stop` up to the futures of the broker. -/
def stop (P : Process) : Process := { P with mIsRunning := false, broker := P.broker.stop }

/-- The next future of the broker's `stop`, and where the main thread goes when it returns or
throws. -/
def getFuture (P : Process) (returned threw : MainThread) : Process :=
  let (L, outcome) := P.broker.proceed
  match outcome with
  | none => { P with broker := L }
  | some (.threw _) => { P with broker := L, mainThread := threw }
  | some _ => { P with broker := L, mainThread := returned }

/-- The next step of the main thread. What is thrown out of `start` is caught in `main`; what is
thrown out of a destructor is not caught. -/
def step (P : Process) (readings : MainReadings) : Process × List Report :=
  match P.mainThread with
  | .start =>
    let (L, outcome) := P.broker.start
    match outcome with
    | .returned => ({ P with mIsRunning := true, broker := L, mainThread := .loop }, [])
    | .nullPointer => ({ P with mIsRunning := true, broker := L, mainThread := .aborted }, [])
    | _ => ({ P with mIsRunning := true, broker := L, mainThread := .destroyProcess .EXIT_FAILURE },
        [])
  | .loop =>
    ({ P with mainThread := if P.mStopRequested then .stop else .testInterrupted }, [])
  | .testInterrupted =>
    if P.mInterrupted then ({ P with mStopRequested := true, mainThread := .stop }, [])
    else ({ P with mainThread := .checkFutures }, [])
  | .checkFutures =>
    let (L, isOkay) := P.broker.checkFuturesOkay readings.meanwhile
    if isOkay then ({ P with broker := L, mainThread := .printSummary }, [])
    else ({ P with broker := L, mStopRequested := true, mainThread := .stop }, [])
  | .printSummary =>
    let (P, reports) := P.printSummary readings
    ({ P with mainThread := .wait }, reports)
  | .wait => ({ P with mainThread := .loop }, [])
  | .stop => ({ P.stop with mainThread := .getFutures }, [])
  | .getFutures =>
    (P.getFuture (.destroyProcess .EXIT_SUCCESS) (.destroyProcess .EXIT_FAILURE), [])
  | .destroyProcess code => ({ P.stop with mainThread := .getFuturesAgain code }, [])
  | .getFuturesAgain code => (P.getFuture (.destroyBroker code) .aborted, [])
  | .destroyBroker code =>
    ({ P with broker := P.broker.stop, mainThread := .getFuturesAtLast code }, [])
  | .getFuturesAtLast code => (P.getFuture (.exited code) .aborted, [])
  | .exited _ | .killed | .aborted => (P, [])

def signal (P : Process) : Process :=
  match P.mainThread with
  | .start => { P with mainThread := .killed }
  | _ => { P with mInterrupted := true }

end Process

/-- The process with its signals and the workers of its broker. -/
def process : Machine Process ProcessEvent (List Report) where
  step P
    | .mainThread readings => P.step readings
    | .signal => (P.signal, [])
    | .terminates termination => ({ P with broker := P.broker.terminate termination }, [])

end PickBroker
