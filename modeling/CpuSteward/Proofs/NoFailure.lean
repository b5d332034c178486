import CpuSteward.Proofs.GuardedText
import CpuSteward.Proofs.Offline
import CpuSteward.Proofs.Readback

/-!
# No guard ever fails

All requests to a system are put together from guarded steps here: passes with the gate and
the timer before them, reports number by number, requests to files, and the making and taking
down of a directory.  Each has a result in every state of the system, with any bytes, paths,
names and clock readings.  One thing is asked of the machine: that the runnable tasks of the
CPUs that are online can be counted in a word.

## Main definitions

* `LoadSample.Fits`, `Kernel.Fits`, `Request.Fits` — the runnable tasks can be counted.
* `Guarded.pass`, `force`, `event`, `tick` — passes.
* `Guarded.reportNumbers`, `Guarded.report` — reports.
* `Guarded.answer`, `Guarded.trace` — what a request leads to, and what a session shows.

## Main results

* `Guarded.pass_eq`, `Guarded.report_eq`, `Guarded.load_eq` — the operations have a result.
* `Guarded.answer_eq`, `Guarded.trace_eq` — a request has one, and so has a session.
* `Guarded.never_fails` — **no operation fails.**
-/

namespace CpuSteward

/-- The runnable tasks of a sample can be counted in a word. -/
def LoadSample.Fits (s : LoadSample) : Prop := s.sumOf CpuLoad.running < UInt64.size

/-- The runnable tasks of the CPUs that are online can be counted in a word. -/
def Kernel.Fits (k : Kernel) : Prop := (LoadSample.collect k).Fits

instance (k : Kernel) : Decidable k.Fits := inferInstanceAs (Decidable (_ < _))

/-- The state of the machine at a request, for those that look at it. -/
def Request.kernel? : Request → Option Kernel
  | .load k => some k
  | .unload k _ => some k
  | .act st => some st.kernel
  | .mkdir _ _ => none
  | .create _ _ _ _ => none
  | .remove _ _ => none

/-- The machine fits at a request. -/
def Request.Fits (r : Request) : Prop := ∀ k ∈ r.kernel?, k.Fits

instance (r : Request) : Decidable r.Fits :=
  inferInstanceAs (Decidable (∀ k ∈ r.kernel?, k.Fits))

namespace Guarded

variable {k : Kernel}

/-! ### Passes -/

/-- What a guarded pass leads to. -/
structure PassResult where
  pass : Pass
  /-- How many CPUs were made to reschedule, as the pass has counted them. -/
  kicks : UInt64
  registry : Registry
  log : List Notice

/-- The members of a set of CPUs without the one that asks, and how many they are. -/
def others (m : CpuMask) (thisCpu : Nat) : Option (List Nat × UInt64) := do
  let cpus := (← members m.toWord).filter (· ≠ thisCpu)
  some (cpus, ← count cpus)

/-- The log records of the CPUs in a word, with the counters of each looked up again. -/
def hotNotices (s : LoadSample) (w : UInt64) : Option (List Notice) := do
  (← members w).mapM fun c => do some (.overloaded c (← loadOf s c).running)

/-- Whether overloaded CPUs trigger a rebalance. -/
def triggers (r : Registry) (hot : UInt64) : Option Bool :=
  if hot = 0 then some false else do some ((← value r .policyOptimizationEnabled) != 0)

/-- The CPUs that a rebalance makes reschedule, how many they are, and the registry in which it
is counted. -/
def rebalance (m : CpuMask) (thisCpu : Nat) (r : Registry) :
    Bool → Option (List Nat × UInt64 × Registry)
  | false => some ([], 0, r)
  | true => do
    let (cpus, kicks) ← others m thisCpu
    some (cpus, kicks, ← increment r .nrRebalance)

/-- The registry with the threshold that a pass decided on. -/
def moveThreshold (r : Registry) (before after : Int32) : Option Registry :=
  if after ≠ before then store r .cpuPerformanceThreshold after else some r

/-- A pass. -/
def pass (k : Kernel) (r : Registry) : Option PassResult := do
  let sample ← collect k
  let load ← totalRunning sample
  let hot ← overloaded sample
  let hotLog ← hotNotices sample hot
  let rebalanced ← triggers r hot
  let (kicked, kicks, r) ← rebalance sample.online k.thisCpu r rebalanced
  let before ← value r .cpuPerformanceThreshold
  let after ← adapt before load sample.onlineCount
  let r ← moveThreshold r before after
  let r ← store r .lastTotalLoad (.ofNat (min load Pass.maxRecorded).toNat)
  some
    { pass := { sample, rebalanced, kicked, before, after }
      kicks
      registry := r
      log := hotLog ++ (if rebalanced then [.rebalancing] else []) ++
        (if after ≠ before then [.thresholdMoved before after load sample.onlineCount] else []) }

/-- A pass of a controller, with its log. -/
def force (c : Controller) (k : Kernel) : Option (Pass × Controller × List Notice) := do
  let p ← pass k c.registry
  some (p.pass, { c with registry := p.registry, gate := .passed k.now }, p.log)

/-- An event for a controller, with its log. -/
def event (c : Controller) (k : Kernel) (e : CpuEvent) :
    Option (Outcome × Controller × List Notice) := do
  if ← admits c.gate (← value c.registry .loadBalanceInterval) k.now then do
    let (p, c, log) ← force c k
    some (.completed p, c, log)
  else some (.throttled, c, [.throttled e])

/-- The hardware tick for a controller, with its log. -/
def tick (c : Controller) (k : Kernel) :
    Option (Option Outcome × Controller × List Notice) := do
  match c.timer.poll k.now (← value c.registry .policyTickMs) with
  | (false, timer) => some (none, { c with timer }, [])
  | (true, timer) => do
    let (o, c, log) ← event { c with timer } k .tick
    some (some o, c, log)

/-- The starting values of a controller. -/
def resize (c : Controller) (k : Kernel) : Option (Sizing × Controller) := do
  let sizing ← sizing (.ofNat k.online.card)
  let r ← store c.registry .cpuPerformanceThreshold sizing.threshold
  let r ← store r .loadBalanceInterval sizing.intervalMs
  some (sizing, { c with registry := r })

/-- Enable or disable rebalancing. -/
def enable (c : Controller) (enabled : Bool) : Option Controller := do
  let r ← store c.registry .policyOptimizationEnabled (if enabled then 1 else 0)
  some { c with registry := r }

theorem others_eq (m : CpuMask) (thisCpu : Nat) :
    others m thisCpu = some (m.others thisCpu, .ofNat (m.others thisCpu).length) := by
  have hlength : (m.others thisCpu).length ≤ maxCpus :=
    Nat.le_trans (List.length_filter_le _ _)
      (Nat.le_trans (List.length_filter_le _ _) (Nat.le_of_eq List.length_range))
  have hcount := count_eq (Nat.lt_of_le_of_lt hlength (by decide))
  unfold others
  rw [members_toWord, Option.bind_eq_bind, Option.bind_some]
  show (count (m.others thisCpu)).bind _ = _
  rw [hcount]
  rfl

theorem hotNotices_eq (s : LoadSample) : hotNotices s s.overloaded.toWord =
    some (s.overloaded.toList.map fun c => .overloaded c (s.cpu c).running) := by
  rw [hotNotices, members_toWord, Option.bind_eq_bind, Option.bind_some]
  refine mapM_eq fun c _ => ?_
  rw [loadOf_eq]
  rfl

theorem triggers_eq (k : Kernel) (r : Registry) :
    triggers r (LoadSample.collect k).overloaded.toWord = some (Pass.of k r).rebalanced := by
  rw [triggers, Pass.of]
  split
  · rename_i hhot
    rw [(toWord_eq_zero_iff _).1 hhot]
    rfl
  · rename_i hhot
    rw [value_eq, eq_false_of_ne_true (mt (toWord_eq_zero_iff _).2 hhot)]
    rfl

theorem rebalance_eq (k : Kernel) (r : Registry) :
    rebalance k.online k.thisCpu r (Pass.of k r).rebalanced =
      some ((Pass.of k r).kicked, .ofNat (Pass.of k r).kicked.length,
        if (Pass.of k r).rebalanced then r.increment .nrRebalance else r) := by
  have hkicked : (Pass.of k r).kicked =
      if (Pass.of k r).rebalanced then k.online.others k.thisCpu else [] := rfl
  rw [hkicked]
  cases (Pass.of k r).rebalanced with
  | false => rfl
  | true =>
    rw [rebalance, others_eq, increment_eq]
    rfl

/-- The count of the rebalances is not the threshold. -/
theorem get_threshold_rebalance (p : Pass) (r : Registry) :
    (if p.rebalanced then r.increment .nrRebalance else r).get .cpuPerformanceThreshold =
      r.get .cpuPerformanceThreshold := by
  split
  · rw [Registry.get_increment, if_neg (by decide)]
  · rfl

theorem moveThreshold_eq (r : Registry) (before after : Int32) :
    moveThreshold r before after =
      some (if after ≠ before then r.store .cpuPerformanceThreshold after else r) := by
  unfold moveThreshold
  split
  · exact store_eq r _ after
  · rfl

/-- A pass has a result, with the count of its kicks and the registry and the log that go with
it. -/
theorem pass_eq (h : k.Fits) (r : Registry) :
    pass k r = some ⟨.of k r, .ofNat (Pass.of k r).kicked.length, (Pass.of k r).apply r,
      (Pass.of k r).notices⟩ := by
  unfold pass
  simp only [Option.bind_eq_bind, Option.bind_some, collect_eq, totalRunning_eq h, overloaded_eq,
    hotNotices_eq, triggers_eq, LoadSample.online_collect, rebalance_eq, value_eq,
    get_threshold_rebalance, adapt_eq, moveThreshold_eq, store_eq]
  rfl

theorem force_eq (h : k.Fits) (c : Controller) :
    force c k = some ((c.force k).1, (c.force k).2, (c.force k).1.notices) := by
  rw [force, pass_eq h]
  rfl

theorem event_eq (h : k.Fits) (c : Controller) (e : CpuEvent) :
    event c k e = some ((c.event k).1, (c.event k).2, (c.event k).1.notices e) := by
  unfold event
  rw [value_eq, Option.bind_eq_bind, Option.bind_some, admits_eq, Option.bind_eq_bind,
    Option.bind_some]
  split
  · rename_i hadmits
    rw [force_eq h, Controller.event_of_admits hadmits]
    rfl
  · rename_i hadmits
    rw [Controller.event_of_not_admits (eq_false_of_ne_true hadmits)]
    rfl

theorem tick_eq (h : k.Fits) (c : Controller) :
    tick c k = some ((c.tick k).1, (c.tick k).2,
      (c.tick k).1.elim [] (Outcome.notices .tick)) := by
  unfold tick Controller.tick
  rw [value_eq, Option.bind_eq_bind, Option.bind_some]
  generalize c.timer.poll k.now (c.registry.get .policyTickMs) = polled
  obtain ⟨due, timer⟩ := polled
  cases due with
  | false => rfl
  | true =>
    dsimp only
    rw [event_eq h]
    rfl

theorem resize_eq (c : Controller) (k : Kernel) : resize c k = some (c.resize k) := by
  simp only [resize, sizing_eq, store_eq, Option.bind_eq_bind, Option.bind_some]
  rfl

theorem enable_eq (c : Controller) (enabled : Bool) :
    enable c enabled = some (c.enable enabled) := by
  rw [enable, store_eq]
  rfl

/-! ### Reports -/

section Reports

open Report

/-- The numbers of the totals. -/
def totalsNumbers (s : LoadSample) : Option (List (List Int)) := do
  let running ← totalRunning s
  let switches ← totalSwitches s
  let average ← average s
  some ([[(running.toNat : Int), s.timestamp.toNat], [0, s.onlineCount.toNat],
    [switches.toNat, average.toNat]] ++ .replicate 6 [0, 0])

/-- The numbers of a line about a dispatch queue. -/
def globalLine (s : LoadSample) (i : Nat) : Option (List Int) := do
  let l ← loadOf s i
  some [(l.running.toNat : Int), (l.switches &&& 0xFFFF).toNat]

/-- The number of a line about time-outs. -/
def timeoutLine (s : LoadSample) (i : Nat) : Option (List Int) := do
  let l ← loadOf s i
  if 0 < l.running then do some [((← rem s.timestamp 1000).toNat : Int)] else some [0]

/-- The numbers of a line about a queue of one CPU. -/
def localLine (s : LoadSample) (i : Nat) : Option (List Int) := do
  if ← test s.online.toWord i then do
    let l ← loadOf s i
    let ratio ← rem (← shiftRight s.timestamp 10) 100
    some [(l.running.toNat : Int), ratio.toNat]
  else some [0, 0]

/-- The number of a line about what went into a queue. -/
def enqueuedLine (s : LoadSample) (i : Nat) : Option (List Int) := do
  let l ← loadOf s i
  some [(((← shiftRight l.switches 8) &&& 0xFF).toNat : Int)]

/-- The numbers of the blocks about queues. -/
def queueNumbers (s : LoadSample) : Option (List (List Int)) := do
  let global ← (List.range queueLines).mapM (globalLine s)
  let timeouts ← (List.range perCpuLines).mapM (timeoutLine s)
  let queued ← (List.range perCpuLines).mapM (localLine s)
  let enqueued ← (List.range perCpuLines).mapM (enqueuedLine s)
  some (global ++ [[]] ++ timeouts ++ queued ++ enqueued)

/-- The values of some tunables, a line for each. -/
def valueLines (r : Registry) (ts : List Tunable) : Option (List (List Int)) :=
  ts.mapM fun t => do some [(← value r t).toInt]

/-- The numbers of the switches. -/
def switchNumbers (r : Registry) (x : ExtensionStatus) : Option (List (List Int)) := do
  let front ← valueLines r [.scxEnable, .partialCtrl, .slimStats, .heartbeat, .misfitDs]
  let shadow ← value r .scxShadowTickEnable
  let watchdog ← valueLines r [.watchdogEnable]
  let frames ← valueLines r [.framePerSec]
  some (front ++ [[(shadow.toUInt32.toNat : Int)]] ++ watchdog ++
    [[x.exitType.toInt], [x.rejected.toInt]] ++ frames)

/-- The numbers of a line about the load of one CPU. -/
def cpuLine (s : LoadSample) (i : Nat) : Option (List Int) := do
  let l ← loadOf s i
  some [(l.running.toNat : Int), (l.switches &&& 0xFFFFFF).toNat]

/-- The numbers of the totals in words, and of the load of each CPU. -/
def loadNumbers (s : LoadSample) : Option (List (List Int)) := do
  let running ← totalRunning s
  let average ← average s
  let switches ← totalSwitches s
  let uptime ← shiftRight s.timestamp 20
  let loads ← (List.range loadLines).mapM (cpuLine s)
  some ([[(s.onlineCount.toNat : Int)], [running.toNat], [average.toNat], [switches.toNat],
    [uptime.toNat]] ++ loads)

/-- The numbers of the state of the load monitor. -/
def monitorNumbers (c : Controller) : Option (List (List Int)) := do
  let front ← valueLines c.registry [.cpuctrlHigh, .cpuctrlLow, .isolateCtrl, .scxGovCtrl,
    .cpuPerformanceThreshold, .loadBalanceInterval]
  let enabled ← value c.registry .policyOptimizationEnabled
  let count ← valueLines c.registry [.nrRebalance]
  some (front ++ [[if enabled != 0 then 1 else 0], [((c.gate.last.getD 0).toNat : Int)]] ++ count)

/-- The numbers of every tunable. -/
def tunableNumbers (r : Registry) : Option (List (List Int)) := do
  some ((← snapshot r).map fun (_, v) => [v.toInt])

/-- The numbers of a report, line by line. -/
def reportNumbers (c : Controller) (k : Kernel) : Option (List (List Int)) := do
  let s ← collect k
  some ((← totalsNumbers s) ++ (← queueNumbers s) ++ (← switchNumbers c.registry k.extension) ++
    (← loadNumbers s) ++ (← monitorNumbers c) ++ (← tunableNumbers c.registry))

/-- A line with numbers in the gaps between its fixed texts. -/
def fill : List (Option String) → List Int → Line
  | some text :: shape, ns => .label text :: fill shape ns
  | none :: shape, n :: ns => .number n :: fill shape ns
  | _, _ => []

/-- The text of a report: its fixed texts, with the numbers in the gaps. -/
def report (c : Controller) (k : Kernel) : Option String := do
  let numbers ← reportNumbers c k
  some (.join ((template.zipWith fill numbers).map fun l => l.text ++ "\n"))

theorem fill_numbers (l : Line) : fill l.shape l.numbers = l := by
  induction l with
  | nil => rfl
  | cons p l ih =>
    cases p with
    | label text => exact congrArg (List.cons _) ih
    | number value => exact congrArg (List.cons _) ih

variable {s : LoadSample}

theorem totalsNumbers_eq (h : s.Fits) :
    totalsNumbers s = some ((totals s).map Line.numbers) := by
  rw [totalsNumbers, totalRunning_eq h, totalSwitches_eq, average_eq h]
  rfl

theorem globalLine_eq (s : LoadSample) (i : Nat) : globalLine s i =
    some [((s.cpu i).running.toNat : Int), ((s.cpu i).switches &&& 0xFFFF).toNat] := by
  rw [globalLine, loadOf_eq]
  rfl

theorem timeoutLine_eq (s : LoadSample) (i : Nat) : timeoutLine s i =
    some [((if 0 < (s.cpu i).running then s.timestamp % 1000 else 0).toNat : Int)] := by
  unfold timeoutLine
  rw [loadOf_eq, Option.bind_eq_bind, Option.bind_some, rem_eq (by decide)]
  split <;> rfl

theorem localLine_eq (s : LoadSample) (i : Nat) : localLine s i =
    some [((s.cpu i).running.toNat : Int),
      (if i ∈ s.online then (s.timestamp >>> 10) % 100 else 0).toNat] := by
  unfold localLine
  rw [test_toWord, Option.bind_eq_bind, Option.bind_some, loadOf_eq]
  split
  · rename_i hi
    rw [if_pos (CpuMask.contains_eq_true.1 hi)]
    rfl
  · rename_i hi
    have hmem : i ∉ s.online := mt CpuMask.contains_eq_true.2 hi
    rw [if_neg hmem, LoadSample.cpu_of_not_mem hmem]
    rfl

theorem enqueuedLine_eq (s : LoadSample) (i : Nat) : enqueuedLine s i =
    some [((((s.cpu i).switches >>> 8) &&& 0xFF).toNat : Int)] := by
  rw [enqueuedLine, loadOf_eq]
  rfl

theorem cpuLine_eq (s : LoadSample) (i : Nat) : cpuLine s i =
    some [((s.cpu i).running.toNat : Int), ((s.cpu i).switches &&& 0xFFFFFF).toNat] := by
  rw [cpuLine, loadOf_eq]
  rfl

theorem queueNumbers_eq (s : LoadSample) :
    queueNumbers s = some ((queues s).map Line.numbers) := by
  rw [queueNumbers, mapM_eq fun i _ => globalLine_eq s i, mapM_eq fun i _ => timeoutLine_eq s i,
    mapM_eq fun i _ => localLine_eq s i, mapM_eq fun i _ => enqueuedLine_eq s i]
  simp only [queues, List.map_append, List.map_map]
  rfl

theorem valueLines_eq (r : Registry) (ts : List Tunable) :
    valueLines r ts = some (ts.map fun t => [(r.get t).toInt]) :=
  mapM_eq fun t _ => by rw [value_eq]; rfl

theorem switchNumbers_eq (r : Registry) (x : ExtensionStatus) :
    switchNumbers r x = some ((switches r x).map Line.numbers) := by
  simp only [switchNumbers, valueLines_eq, value_eq, Option.bind_eq_bind, Option.bind_some]
  rfl

theorem loadNumbers_eq (h : s.Fits) :
    loadNumbers s = some ((load s).map Line.numbers) := by
  have huptime : shiftRight s.timestamp 20 = some (s.timestamp >>> 20) := shiftRight_eq (by decide)
  rw [loadNumbers, totalRunning_eq h, average_eq h, totalSwitches_eq, huptime,
    mapM_eq fun i _ => cpuLine_eq s i]
  simp only [load, List.map_append, List.map_map]
  rfl

theorem monitorNumbers_eq (c : Controller) :
    monitorNumbers c = some ((monitor c).map Line.numbers) := by
  simp only [monitorNumbers, valueLines_eq, value_eq, Option.bind_eq_bind, Option.bind_some]
  rfl

theorem tunableNumbers_eq (r : Registry) :
    tunableNumbers r = some ((tunables r).map Line.numbers) := by
  rw [tunableNumbers, snapshot_eq, tunables, List.map_map]
  rfl

theorem reportNumbers_eq (h : k.Fits) (c : Controller) :
    reportNumbers c k = some ((lines c k).map Line.numbers) := by
  simp only [reportNumbers, collect_eq, totalsNumbers_eq h, queueNumbers_eq, switchNumbers_eq,
    loadNumbers_eq h, monitorNumbers_eq, tunableNumbers_eq, Option.bind_eq_bind,
    Option.bind_some, lines, List.map_append]

/-- A report has a result: every number in it has one. -/
theorem report_eq (h : k.Fits) (c : Controller) : report c k = some (render c k) := by
  have hfill : template.zipWith fill ((lines c k).map Line.numbers) = lines c k := by
    rw [← shape_lines c k, List.zipWith_map, List.zipWith_self]
    simp only [fill_numbers, List.map_id']
  rw [report, reportNumbers_eq h, Option.bind_eq_bind, Option.bind_some, hfill]
  rfl

end Reports

/-! ### Requests to files -/

section Files

/-- Take the element at a place out of a list that has this place. -/
def removeAt {α : Type} (l : List α) (i : Nat) : Option (α × List α) := do
  some (← l[i]?, l.eraseIdx i)

/-- Take the child with a name out of the tree: its place is looked up first. -/
def removeChild {ε : Type} (ns : Namespace ε) (parent : Node ε) (name : String) :
    Option (Option (Namespace ε)) :=
  match (ns.children parent.inode).findIdx? fun child => child.name == name with
  | none => some none
  | some i => do
    let (node, rest) ← removeAt (ns.children parent.inode) i
    some (some ((ns.setChildren parent.inode rest).setChildren node.inode []))

/-- Take a child of a node out of the tree. -/
def remove (s : System) (parent : Node Endpoint) (name : String) :
    Option (Response (Except AccessError Unit)) := do
  match ← removeChild s.tree parent name with
  | none => some { result := .error .noEntry, system := s }
  | some tree =>
    some { result := .ok (), system := { s with tree }, log := [.entryRemoved name] }

/-- The bytes that reading a file yields. -/
def content (s : System) (k : Kernel) : Endpoint → Option ByteArray
  | .tunable owner t => do
    some (Decimal.ofInt32 (← value (s.controller owner).registry t) ++ "\n").toUTF8
  | .governors owner _ => do
    some (Decimal.ofInt32 (← value (s.controller owner).registry .saveGov) ++ "\n").toUTF8
  | .report owner => do some (← report (s.controller owner) k).toUTF8
  | .fixed content => some content

/-- Read the file that a path leads to. -/
def readFile (s : System) (k : Kernel) (path : String) :
    Option (Except AccessError ByteArray) :=
  match s.tree.resolve? path with
  | none => some (.error .noEntry)
  | some node =>
    match node.content with
    | .directory => some (.error .isDirectory)
    | .file perm endpoint =>
      if perm.readable then do some (.ok (← content s k endpoint))
      else some (.error .permissionDenied)

/-- Write a buffer to a tunable; the log shows the path of one that refuses it. -/
def writeTunable (s : System) (owner : ControllerId) (t : Tunable) (bytes : ByteArray) :
    Option (Response (Except AccessError Nat)) := do
  match ← set (s.controller owner).registry t bytes with
  | .error cause => do
    let spec ← specOf t
    some
      { result := .error (.ofSetError cause)
        system := s
        log := [.writeRejected spec.path cause] }
  | .ok registry => some { result := .ok bytes.size, system := s.setRegistry owner registry }

/-- Record the governors in use in the table of one controller. -/
def saveGovernors (s : System) (k : Kernel) (keeper : ControllerId) : Option (Response Nat) := do
  let rec ← saveAll (s.controller keeper).governors k
  some
    { result := rec.saved.toNat
      system := s.setController keeper { s.controller keeper with governors := rec.table }
      log := rec.log }

/-- Write a buffer to what a file stands for. -/
def writeEndpoint (s : System) (k : Kernel) (bytes : ByteArray) :
    Endpoint → Option (Response (Except AccessError Nat))
  | .tunable owner t => writeTunable s owner t bytes
  | .governors owner keeper => do
    let written ← writeTunable s owner .saveGov bytes
    match written.result with
    | .error _ => some written
    | .ok _ => do
      let saved ← saveGovernors written.system k keeper
      some
        { written with
          system := saved.system
          log := written.log ++ saved.log ++ [.governorsRecorded saved.result] }
  | .report _ => some { result := .error .permissionDenied, system := s }
  | .fixed _ => some { result := .error .permissionDenied, system := s }

/-- Write a buffer to the file that a path leads to. -/
def writeFile (s : System) (k : Kernel) (path : String) (bytes : ByteArray) :
    Option (Response (Except AccessError Nat)) :=
  match s.tree.resolve? path with
  | none => some { result := .error .noEntry, system := s }
  | some node =>
    match node.content with
    | .directory => some { result := .error .isDirectory, system := s }
    | .file perm endpoint =>
      if perm.writable then writeEndpoint s k bytes endpoint
      else some { result := .error .permissionDenied, system := s }

/-- An element that a search finds is at a place of the list. -/
theorem removeAt_of_findIdx? {α : Type} {p : α → Bool} {l : List α} {i : Nat}
    (h : l.findIdx? p = some i) :
    ∃ a, l.find? p = some a ∧ removeAt l i = some (a, l.eraseP p) := by
  obtain ⟨hi, hp, hbefore⟩ := List.findIdx?_eq_some_iff_getElem.1 h
  refine ⟨l[i], List.find?_eq_some_iff_getElem.2 ⟨hp, i, hi, rfl, fun j hj => ?_⟩, ?_⟩
  · simpa using hbefore j hj
  · rw [removeAt, List.getElem?_eq_getElem hi, List.eraseP_eq_eraseIdx, h]
    rfl

theorem removeChild_eq {ε : Type} (ns : Namespace ε) (parent : Node ε) (name : String) :
    removeChild ns parent name = some (ns.remove? parent name) := by
  unfold removeChild Namespace.remove? Namespace.child?
  split
  · rename_i hnone
    rw [List.find?_eq_none.2 (by simpa using List.findIdx?_eq_none_iff.1 hnone)]
    rfl
  · rename_i i hsome
    obtain ⟨node, hfind, hremove⟩ := removeAt_of_findIdx? hsome
    rw [hfind, hremove]
    rfl

theorem remove_eq (s : System) (parent : Node Endpoint) (name : String) :
    remove s parent name = some (s.remove parent name) := by
  unfold remove System.remove
  rw [removeChild_eq, Option.bind_eq_bind, Option.bind_some]
  cases s.tree.remove? parent name <;> rfl

theorem content_eq (h : k.Fits) (s : System) (endpoint : Endpoint) :
    content s k endpoint = some (s.content k endpoint) := by
  cases endpoint with
  | tunable owner t =>
    rw [content, value_eq]
    rfl
  | governors owner keeper =>
    rw [content, value_eq]
    rfl
  | report owner =>
    rw [content, report_eq h]
    rfl
  | fixed bytes => rfl

theorem readFile_eq (h : k.Fits) (s : System) (path : String) :
    readFile s k path = some (s.read k path) := by
  unfold readFile System.read
  cases s.tree.resolve? path with
  | none => rfl
  | some node =>
    dsimp only
    cases node.content with
    | directory => rfl
    | file perm endpoint =>
      dsimp only
      rw [content_eq h]
      split <;> rfl

theorem writeTunable_eq (s : System) (owner : ControllerId) (t : Tunable) (bytes : ByteArray) :
    writeTunable s owner t bytes = some (s.writeTunable owner t bytes) := by
  unfold writeTunable System.writeTunable
  rw [set_eq, Option.bind_eq_bind, Option.bind_some]
  cases (s.controller owner).registry.set t bytes with
  | error cause =>
    dsimp only
    rw [specOf_eq]
    rfl
  | ok registry => rfl

theorem governorCount_le (k : Kernel) : k.governorCount ≤ maxCpus :=
  Nat.le_trans List.countP_le_length (length_policyRecords_le k)

theorem saveGovernors_eq (s : System) (k : Kernel) (keeper : ControllerId) :
    saveGovernors s k keeper = some (s.saveGovernors k keeper) := by
  have hcount : (UInt64.ofNat k.governorCount).toNat = k.governorCount :=
    UInt64.toNat_ofNat_of_lt' (Nat.lt_of_le_of_lt (governorCount_le k) (by decide))
  rw [saveGovernors, saveAll_eq, Option.bind_eq_bind, Option.bind_some]
  dsimp only
  rw [hcount]
  rfl

theorem writeEndpoint_eq (s : System) (k : Kernel) (bytes : ByteArray) (endpoint : Endpoint) :
    writeEndpoint s k bytes endpoint = some (s.writeEndpoint k bytes endpoint) := by
  cases endpoint with
  | tunable owner t => exact writeTunable_eq s owner t bytes
  | governors owner keeper =>
    unfold writeEndpoint System.writeEndpoint
    dsimp only
    rw [writeTunable_eq, Option.bind_eq_bind, Option.bind_some]
    cases (s.writeTunable owner .saveGov bytes).result with
    | error cause => rfl
    | ok size =>
      dsimp only
      rw [saveGovernors_eq]
      rfl
  | report owner => rfl
  | fixed content => rfl

theorem writeFile_eq (s : System) (k : Kernel) (path : String) (bytes : ByteArray) :
    writeFile s k path bytes = some (s.write k path bytes) := by
  unfold writeFile System.write
  cases s.tree.resolve? path with
  | none => rfl
  | some node =>
    dsimp only
    cases node.content with
    | directory => rfl
    | file perm endpoint =>
      dsimp only
      rw [writeEndpoint_eq]
      split <;> rfl

end Files

/-! ### Requests to controllers -/

section Controllers

/-- An event for a controller, without an announcement in the log. -/
def eventAt (s : System) (k : Kernel) (id : ControllerId) (e : CpuEvent) :
    Option (Response Outcome) := do
  let (outcome, c, log) ← event (s.controller id) k e
  some { result := outcome, system := s.setController id c, kicked := outcome.kicked, log }

/-- An event for a controller that is announced in the log. -/
def notifyAt (s : System) (k : Kernel) (id : ControllerId) (e : CpuEvent) :
    Option (Response Outcome) := do
  let response ← eventAt s k id e
  some { response with log := e.notices ++ response.log }

/-- The hardware tick for a controller. -/
def tickAt (s : System) (k : Kernel) (id : ControllerId) :
    Option (Response (Option Outcome)) := do
  let (outcome, c, log) ← tick (s.controller id) k
  some
    { result := outcome
      system := s.setController id c
      kicked := outcome.elim [] Outcome.kicked
      log }

/-- A pass of a controller that the gate has no say in. -/
def forceAt (s : System) (k : Kernel) (id : ControllerId) : Option (Response Pass) := do
  let (pass, c, log) ← force (s.controller id) k
  some { result := pass, system := s.setController id c, kicked := pass.kicked, log }

/-- Set the starting values of a controller. -/
def resizeAt (s : System) (k : Kernel) (id : ControllerId) : Option (Response Sizing) := do
  let (sizing, c) ← resize (s.controller id) k
  some
    { result := sizing
      system := s.setController id c
      log := [.sized (.ofNat k.online.card) sizing] }

/-- Enable or disable rebalancing for a controller. -/
def enableAt (s : System) (id : ControllerId) (enabled : Bool) : Option System := do
  some (s.setController id (← enable (s.controller id) enabled))

/-- One step. -/
def act (s : System) (st : Step) : Option (Response Reply) :=
  let registry := (s.controller st.target).registry
  match st.action with
  | .event e => do some ((← eventAt s st.kernel st.target e).map .outcome)
  | .notify e => do some ((← notifyAt s st.kernel st.target e).map .outcome)
  | .tick => do some ((← tickAt s st.kernel st.target).map .ticked)
  | .force => do some ((← forceAt s st.kernel st.target).map .pass)
  | .resize => do some ((← resizeAt s st.kernel st.target).map .sizing)
  | .enable enabled => do
    some { result := .done, system := ← enableAt s st.target enabled }
  | .set t bytes => do some (s.update st.target (← set registry t bytes))
  | .setValue t v => do some (s.update st.target (← setValue registry t v))
  | .put t v => do
    some { result := .done, system := s.setRegistry st.target (← setValueAt registry t v) }
  | .reset => do some { result := .done, system := s.setRegistry st.target (← reset registry) }
  | .report => do
    some { result := .text (← report (s.controller st.target) st.kernel), system := s }
  | .read path => do some { result := .content (← readFile s st.kernel path), system := s }
  | .write path bytes => do some ((← writeFile s st.kernel path bytes).map .written)

theorem eventAt_eq (h : k.Fits) (s : System) (id : ControllerId) (e : CpuEvent) :
    eventAt s k id e = some (s.event k id e) := by
  rw [eventAt, event_eq h]
  rfl

theorem notifyAt_eq (h : k.Fits) (s : System) (id : ControllerId) (e : CpuEvent) :
    notifyAt s k id e = some (s.notify k id e) := by
  rw [notifyAt, eventAt_eq h]
  rfl

theorem tickAt_eq (h : k.Fits) (s : System) (id : ControllerId) :
    tickAt s k id = some (s.tick k id) := by
  rw [tickAt, tick_eq h]
  rfl

theorem forceAt_eq (h : k.Fits) (s : System) (id : ControllerId) :
    forceAt s k id = some (s.force k id) := by
  rw [forceAt, force_eq h]
  rfl

theorem resizeAt_eq (s : System) (k : Kernel) (id : ControllerId) :
    resizeAt s k id = some (s.resize k id) := by
  rw [resizeAt, resize_eq]
  rfl

theorem enableAt_eq (s : System) (id : ControllerId) (enabled : Bool) :
    enableAt s id enabled = some (s.enable id enabled) := by
  rw [enableAt, enable_eq]
  rfl

theorem act_eq (s : System) (st : Step) (h : st.kernel.Fits) : act s st = some (s.act st) := by
  obtain ⟨k, target, action⟩ := st
  cases action <;>
    simp only [act, System.act, eventAt_eq h, notifyAt_eq h, tickAt_eq h, forceAt_eq h,
      resizeAt_eq, enableAt_eq, set_eq, setValue_eq, setValueAt_eq, reset_eq, report_eq h,
      readFile_eq h, writeFile_eq, Option.bind_eq_bind, Option.bind_some, System.report]

end Controllers

/-! ### Loading and unloading -/

section Lifecycle

/-- Make the files of some tunables, with the file name of each cut out of its path. -/
def addTunables (owner : ControllerId) (place : TunableGroup → Node Endpoint) :
    List Tunable → Namespace Endpoint → Option (Except LoadError Unit × Namespace Endpoint)
  | [], tree => some (.ok (), tree)
  | t :: ts, tree => do
    let name ← fileName t.path
    match tree.create (place t.spec.group) name (System.permOf t) (System.endpointOf owner t) with
    | (none, tree) => some (.error (.entryNotCreated t.path), tree)
    | (some _, tree) => addTunables owner place ts tree

/-- Make all entries below the directory of a control plane. -/
def populate (owner : ControllerId) (top : Node Endpoint) (tree : Namespace Endpoint) :
    Option (Except LoadError Unit × Namespace Endpoint) :=
  match System.addGroups top TunableGroup.all tree with
  | (.error cause, tree) => some (.error cause, tree)
  | (.ok place, tree) => do
    match ← addTunables owner place Tunable.all tree with
    | (.error cause, tree) => some (.error cause, tree)
    | (.ok (), tree) => some (System.addReport owner top tree)

/-- Make the directory of a control plane and all that is below it. -/
def register (owner : ControllerId) (s : System) : Option (Response (Except LoadError Unit)) :=
  match s.tree.mkdir .root Identity.directory with
  | (none, tree) =>
    some { result := .error (.entryNotCreated Identity.directory), system := { s with tree } }
  | (some top, tree) => do
    match ← populate owner top tree with
    | (.ok (), tree) => some { result := .ok (), system := { s with tree } }
    | (.error cause, tree) => do
      let removed ← remove { s with tree } .root Identity.directory
      some { result := .error cause, system := removed.system, log := removed.log }

/-- Load a control plane, with a new registry. -/
def load (s : System) (k : Kernel) : Option (Response (Except LoadError ControllerId)) := do
  let owner := s.nextController
  let registry ← defaults
  let registered ← register owner s
  match registered.result with
  | .error cause =>
    some
      { result := .error cause
        system := registered.system
        log := registered.log ++ [.loadFailed cause] }
  | .ok () => do
    let created :=
      { registered.system.setController owner { registry } with nextController := owner + 1 }
    let sized ← resizeAt created k owner
    let first ← eventAt sized.system k owner .tick
    some
      { result := .ok owner
        system := first.system
        kicked := first.kicked
        log := registered.log ++ sized.log ++ first.log ++ [.loaded Tunable.all.length] }

/-- Unload a control plane. -/
def unload (s : System) (k : Kernel) (id : ControllerId) : Option (Response Pass) := do
  let last ← forceAt (← enableAt s id false) k id
  let removed ← remove last.system .root Identity.directory
  let failure := match removed.result with
    | .ok () => []
    | .error cause => [Notice.removalFailed cause]
  let rebalances ← value (removed.system.controller id).registry .nrRebalance
  some
    { result := last.result
      system := removed.system
      kicked := last.kicked
      log := last.log ++ removed.log ++ failure ++ [.unloaded rebalances] }

/-- What a request leads to. -/
def answer (s : System) : Request → Option (Response Answer)
  | .load k => do some ((← load s k).map .loaded)
  | .unload k id => do some ((← unload s k id).map .unloaded)
  | .act st => do some ((← act s st).map .reply)
  | .remove parent name => do some ((← remove s parent name).map .removed)
  | r => some (s.answer r)

theorem addTunables_eq (owner : ControllerId) (place : TunableGroup → Node Endpoint)
    (ts : List Tunable) (tree : Namespace Endpoint) :
    addTunables owner place ts tree = some (System.addTunables owner place ts tree) := by
  induction ts generalizing tree with
  | nil => rfl
  | cons t ts ih =>
    rw [addTunables, System.addTunables, fileName_path, Option.bind_eq_bind, Option.bind_some]
    generalize tree.create (place t.spec.group) t.name (System.permOf t)
      (System.endpointOf owner t) = created
    obtain ⟨_ | node, tree⟩ := created
    · rfl
    · exact ih tree

theorem populate_eq (owner : ControllerId) (top : Node Endpoint) (tree : Namespace Endpoint) :
    populate owner top tree = some (System.populate owner top tree) := by
  unfold populate System.populate
  generalize System.addGroups top TunableGroup.all tree = grouped
  obtain ⟨cause | place, tree⟩ := grouped
  · rfl
  · dsimp only
    rw [addTunables_eq, Option.bind_eq_bind, Option.bind_some]
    generalize System.addTunables owner place Tunable.all tree = added
    obtain ⟨cause | _, tree⟩ := added <;> rfl

theorem register_eq (owner : ControllerId) (s : System) :
    register owner s = some (s.register owner) := by
  unfold register System.register
  generalize s.tree.mkdir .root Identity.directory = made
  obtain ⟨_ | top, tree⟩ := made
  · rfl
  · dsimp only
    rw [populate_eq, Option.bind_eq_bind, Option.bind_some]
    generalize System.populate owner top tree = populated
    obtain ⟨cause | _, tree⟩ := populated
    · dsimp only
      rw [remove_eq]
      rfl
    · rfl

theorem load_eq (h : k.Fits) (s : System) : load s k = some (s.load k) := by
  unfold load System.load
  simp only [defaults_eq, register_eq, Option.bind_eq_bind, Option.bind_some]
  cases (s.register s.nextController).result with
  | error cause => rfl
  | ok _ =>
    dsimp only
    rw [resizeAt_eq, Option.bind_some, eventAt_eq h]
    rfl

theorem unload_eq (h : k.Fits) (s : System) (id : ControllerId) :
    unload s k id = some (s.unload k id) := by
  simp only [unload, enableAt_eq, forceAt_eq h, remove_eq, value_eq, Option.bind_eq_bind,
    Option.bind_some]
  rfl

theorem answer_eq {r : Request} (h : r.Fits) (s : System) :
    answer s r = some (s.answer r) := by
  cases r with
  | load k =>
    rw [answer, load_eq (h k rfl)]
    rfl
  | unload k id =>
    rw [answer, unload_eq (h k rfl)]
    rfl
  | act st =>
    rw [answer, act_eq s st (h st.kernel rfl)]
    rfl
  | mkdir parent name => rfl
  | create parent name perm endpoint => rfl
  | remove parent name =>
    rw [answer, remove_eq]
    rfl

end Lifecycle

/-! ### Sessions -/

section Sessions

/-- All that a session shows, request by request. -/
def trace (s : System) : List Request → Option (List Observation)
  | [] => some []
  | r :: rs => do
    let response ← answer s r
    let rest ← trace response.system rs
    some
      ({ answer := response.result
         kicked := response.kicked
         registry id := (response.system.controller id).registry } :: rest)

/-- What each request keeps up, a session keeps up. -/
theorem trace_eq {rs : List Request} (h : ∀ r ∈ rs, r.Fits) (s : System) :
    trace s rs = some (s.trace rs) := by
  induction rs generalizing s with
  | nil => rfl
  | cons r rs ih =>
    obtain ⟨hr, hrs⟩ := List.forall_mem_cons.1 h
    simp only [trace, answer_eq hr, ih hrs, Option.bind_eq_bind, Option.bind_some]
    rfl

/-- **No operation fails.**  Every guard lets every step pass: a session of any requests to any
system, and each operation on masks, samples, controllers, literals, tunables, governors and
the tree by itself, has a result, and it is the one of the operation that this library is
about.  All that is asked for is that the runnable tasks can be counted in a word.  Timers,
the resolution of paths and the making of entries have no step that needs a guard. -/
theorem never_fails {rs : List Request} (hrs : ∀ r ∈ rs, r.Fits) {k : Kernel} (hk : k.Fits)
    {x : LoadSample} (hx : x.Fits) (s : System) (c : Controller) (e : CpuEvent) (m : CpuMask)
    (w : UInt64) (n : Nat) (gate : Gate) (ms current : Int32) (now load online : UInt64)
    (bytes : ByteArray) (r : Registry) (t : Tunable) (v : Int32) (name : String)
    (g : GovernorTable) (on : Bool) (parent : Node Endpoint) :
    trace s rs = some (s.trace rs) ∧
    -- masks
    (first n = some (CpuMask.first n).toWord ∧
      ofBits w = some (CpuMask.ofWord w).toWord ∧
      test m.toWord n = some (m.contains n) ∧
      insert m.toWord n = some (m.insert n).toWord ∧
      erase m.toWord n = some (m.erase n).toWord ∧
      members m.toWord = some m.toList) ∧
    -- samples
    (collect k = some (.collect k) ∧
      loadOf x n = some (x.cpu n) ∧
      totalRunning x = some x.totalRunning ∧
      totalSwitches x = some x.totalSwitches ∧
      average x = some x.average ∧
      overloaded x = some x.overloaded.toWord) ∧
    -- controllers
    (admits gate ms now = some (gate.admits ms now) ∧
      sizing online = some (.forOnline online) ∧
      adapt current load online = some (Threshold.adapt current load online) ∧
      force c k = some ((c.force k).1, (c.force k).2, (c.force k).1.notices) ∧
      event c k e = some ((c.event k).1, (c.event k).2, (c.event k).1.notices e) ∧
      tick c k = some ((c.tick k).1, (c.tick k).2, (c.tick k).1.elim [] (Outcome.notices .tick)) ∧
      resize c k = some (c.resize k) ∧
      enable c on = some (c.enable on) ∧
      report c k = some (Report.render c k)) ∧
    -- literals and tunables
    (read bytes = some (IntLiteral.read? bytes) ∧
      defaults = some .defaults ∧
      value r t = some (r.get t) ∧
      valueByName r name = some (r.getByName? name) ∧
      set r t bytes = some (r.set t bytes) ∧
      setValue r t v = some (r.setValue t v) ∧
      store r t v = some (r.store t v) ∧
      increment r t = some (r.increment t) ∧
      snapshot r = some r.snapshot ∧
      reset r = some .defaults) ∧
    -- governors
    (saveAll g k = some
        { table := g.saveAll k
          saved := .ofNat k.governorCount
          log := k.policyRecords.map PolicyRecord.notice } ∧
      governor g n = some (g.get? n)) ∧
    -- files
    (remove s parent name = some (s.remove parent name) ∧
      readFile s k name = some (s.read k name) ∧
      writeFile s k name bytes = some (s.write k name bytes)) :=
  ⟨trace_eq hrs s,
    ⟨first_eq n, ofBits_eq w, test_toWord m n, insert_toWord m n, erase_toWord m n,
      members_toWord m⟩,
    ⟨collect_eq k, loadOf_eq x n, totalRunning_eq hx, totalSwitches_eq x, average_eq hx,
      overloaded_eq x⟩,
    ⟨admits_eq gate ms now, sizing_eq online, adapt_eq current load online, force_eq hk c,
      event_eq hk c e, tick_eq hk c, resize_eq c k, enable_eq c on, report_eq hk c⟩,
    ⟨read_eq bytes, defaults_eq, value_eq r t, valueByName_eq r name, set_eq r t bytes,
      setValue_eq r t v, store_eq r t v, increment_eq r t, snapshot_eq r, reset_eq r⟩,
    ⟨saveAll_eq g k, governor_eq g n⟩,
    ⟨remove_eq s parent name, readFile_eq hk s name, writeFile_eq s k name bytes⟩⟩

/-- All CPUs are overloaded, an interval is below zero, and the governor has a name of two-byte
characters, so that it cannot be cut where a slot ends. -/
theorem never_fails_between_characters :
    let k : Kernel :=
      { online := .first 32
        load := fun _ => { running := 0x07FFFFFFFFFFFFFF, switches := 0xFFFFFFFFFFFFFFFF }
        present := .first 2
        policyCpu := some
        governor := fun _ => some "производительность" }
    let requests : List Request := [
      .load k,
      .act ⟨k, 1, .put .loadBalanceInterval (-2147483648)⟩,
      .act ⟨k, 1, .write "hmbird_sched/save_gov" "-0x1".toUTF8⟩,
      .act ⟨k, 1, .notify (.offline 5)⟩,
      .act ⟨k, 1, .report⟩,
      .unload k 1]
    let s : System := {}
    (∀ r ∈ requests, r.Fits) ∧ k.Fits ∧ (LoadSample.collect k).Fits ∧
      trace s requests = some (s.trace requests) ∧
      governor (GovernorTable.empty.saveAll k) 1 =
        some ((GovernorTable.empty.saveAll k).get? 1) ∧
      (GovernorTable.empty.saveAll k).get? 1 = some "произво" := by
  intro k requests s
  have hrequests : ∀ r ∈ requests, r.Fits := by decide +kernel
  have hk : k.Fits := by decide +kernel
  obtain ⟨htrace, -, -, -, -, ⟨-, hgovernor⟩, -⟩ :=
    never_fails hrequests hk hk s {} .tick .empty 0 1 {} 0 0 0 0 0 .empty .defaults .saveGov 0 ""
      (GovernorTable.empty.saveAll k) true .root
  exact ⟨hrequests, hk, hk, htrace, hgovernor, by decide +kernel⟩

end Sessions

end Guarded
end CpuSteward
