import CpuSteward.Controller

/-!
# The statistics report

The report is a fixed sequence of lines that are filled with numbers: the load as
seen now, the state of the load monitor, and every tunable.  Blocks with one line
per CPU always have the same length; a CPU that is offline or does not exist has
zeros there.  Making a report changes nothing.

## Main definitions

* `Report.Line`: a line, as the texts and numbers it consists of.
* `Report.lines`: the lines of a report.
* `Report.render`: the text of a report.
-/

namespace CpuSteward.Report

/-- A part of a line. -/
inductive Piece where
  /-- A text that is the same in every report. -/
  | label (text : String)
  /-- A number. -/
  | number (value : Int)
  deriving DecidableEq

namespace Piece

/-- The text of a part. -/
def text : Piece → String
  | label text => text
  | number value => Decimal.ofInt value

end Piece

/-- A line of the report. -/
abbrev Line := List Piece

namespace Line

/-- The text of a line. -/
def text (l : Line) : String := String.join (l.map Piece.text)

/-- The numbers of the line. -/
def numbers (l : Line) : List Int :=
  l.filterMap fun
    | .label _ => none
    | .number value => some value

end Line

/-- A number of the report that comes from an unsigned word. -/
def word (w : UInt64) : Piece := .number w.toNat

/-- A line with one number. -/
def field (name : String) (value : Piece) : Line := [.label (name ++ ": "), value]

/-- A line with two numbers. -/
def pair (name : String) (first second : Piece) : Line :=
  [.label (name ++ ":"), first, .label ", ", second]

/-- The name of a line about one CPU. -/
def indexed (name : String) (cpu : Nat) : String := name ++ "[" ++ Decimal.ofNat cpu ++ "]"

/-- The lines of the global dispatch queues. -/
def queueLines : Nat := 10

/-- The lines of each block about per-CPU queues. -/
def perCpuLines : Nat := 8

/-- The lines of the load block. -/
def loadLines : Nat := 8

/-- The totals, among counters that nothing feeds. -/
def totals (s : LoadSample) : List Line :=
  [pair "global stat" (word s.totalRunning) (word s.timestamp),
    pair "cpu_allow_fail" (.number 0) (word s.onlineCount),
    pair "rt_cnt" (word s.totalSwitches) (word s.average)] ++
  ["key_task_cnt", "switch_idx", "timeout_cnt", "total_dsp_cnt", "move_rq_cnt",
    "select_cpu"].map fun name => pair name (.number 0) (.number 0)

/-- The blocks about queues, one line per CPU. -/
def queues (s : LoadSample) : List Line :=
  (List.range queueLines).map (fun i =>
    pair (indexed "gdsq_cnt" i) (word (s.cpu i).running) (word ((s.cpu i).switches &&& 0xFFFF))) ++
  [[.label "err_idx:0, 0, 0, 0, 0"]] ++
  (List.range perCpuLines).map (fun i =>
    [.label (indexed "pcp_timeout_cnt" i ++ ":"),
      word (if 0 < (s.cpu i).running then s.timestamp % 1000 else 0)]) ++
  (List.range perCpuLines).map (fun i =>
    pair (indexed "pcp_ldsq_cnt" i) (word (s.cpu i).running)
      (word (if i ∈ s.online then (s.timestamp >>> 10) % 100 else 0))) ++
  (List.range perCpuLines).map (fun i =>
    [.label (indexed "pcp_enql_cnt" i ++ ":"), word (((s.cpu i).switches >>> 8) &&& 0xFF)])

/-- The switches of the scheduler. -/
def switches (r : Registry) (x : ExtensionStatus) : List Line :=
  [field "SCX Enabled" (.number (r.get .scxEnable).toInt),
    field "Partial Enable" (.number (r.get .partialCtrl).toInt),
    field "Slim Stats" (.number (r.get .slimStats).toInt),
    field "Heartbeat" (.number (r.get .heartbeat).toInt),
    field "Misfit DS" (.number (r.get .misfitDs).toInt),
    field "Highres Tick Ctrl" (.number (r.get .scxShadowTickEnable).toUInt32.toNat),
    field "Watchdog Enable" (.number (r.get .watchdogEnable).toInt),
    field "SCX Exit Type" (.number x.exitType.toInt),
    field "SCX Rejected Tasks" (.number x.rejected.toInt),
    field "Sched Ravg Window Frame Per Sec" (.number (r.get .framePerSec).toInt)]

/-- The totals in words, and the load of each CPU. -/
def load (s : LoadSample) : List Line :=
  [field "Total Online CPUs" (word s.onlineCount),
    field "Total Running Tasks" (word s.totalRunning),
    field "Average Load Per CPU" (word s.average),
    field "Total Context Switches" (word s.totalSwitches),
    field "System Uptime Ticks" (word (s.timestamp >>> 20))] ++
  (List.range loadLines).map fun i =>
    [.label (indexed "CPU" i ++ " Load: "), word (s.cpu i).running, .label ", Switches: ",
      word ((s.cpu i).switches &&& 0xFFFFFF)]

/-- The state of the load monitor and what it is steered by. -/
def monitor (c : Controller) : List Line :=
  [field "CPU Control High Ratio" (.number (c.registry.get .cpuctrlHigh).toInt),
    field "CPU Control Low Ratio" (.number (c.registry.get .cpuctrlLow).toInt),
    field "Isolation Control" (.number (c.registry.get .isolateCtrl).toInt),
    field "Governor Control" (.number (c.registry.get .scxGovCtrl).toInt),
    field "Performance Threshold" (.number (c.registry.get .cpuPerformanceThreshold).toInt),
    field "Load Balance Interval" (.number (c.registry.get .loadBalanceInterval).toInt),
    field "Policy Optimization" (.number (if c.enabled then 1 else 0)),
    field "Last Optimization Time" (word (c.gate.last.getD 0)),
    field "Rebalance Count" (.number (c.registry.get .nrRebalance).toInt)]

/-- Every tunable by its path. -/
def tunables (r : Registry) : List Line :=
  r.snapshot.map fun (path, value) => [.label (path ++ ":"), .number value.toInt]

/-- The lines of the report of a controller in a kernel state. -/
def lines (c : Controller) (k : Kernel) : List Line :=
  let s := LoadSample.collect k
  totals s ++ queues s ++ switches c.registry k.extension ++ load s ++ monitor c ++
    tunables c.registry

/-- The text of the report, with every line closed by a line break. -/
def render (c : Controller) (k : Kernel) : String :=
  String.join ((lines c k).map fun l => l.text ++ "\n")

/-- The report has as many lines as the blocks together, whatever the numbers are. -/
theorem length_lines (c : Controller) (k : Kernel) : (lines c k).length = 112 := by
  simp [lines, totals, queues, switches, load, monitor, tunables, Registry.snapshot, queueLines,
    perCpuLines, loadLines, Tunable.count]

end CpuSteward.Report
