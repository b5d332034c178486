import CpuSteward.Load.Threshold

/-!
# Tunables

A tunable is an integer parameter of the scheduler that can be read, and mostly
also written, from outside while the system runs.  The set of tunables is fixed.
Each has a specification: the group whose directory holds its file, its file
name, its default, who may write it, and the range it must stay in, if any.

## Main definitions

* `Tunable`: the tunables, and `Tunable.all`, the order in which they are listed.
* `Tunable.spec`: the specification of a tunable.
* `Tunable.find?`: the tunable that a path or a bare file name means.

## Main results

* `Tunable.ofIndex_index`, `Tunable.index_ofIndex`: a tunable and its place in the
  order determine each other.
* `Tunable.mem_all`: the order leaves none out.
-/

namespace CpuSteward

/-- A group of tunables whose files share a directory. -/
inductive TunableGroup where
  /-- Files of the top directory. -/
  | root
  /-- Load tracking. -/
  | loadTracking
  /-- Frequency control. -/
  | frequency
  /-- The load monitor. -/
  | policy
  deriving DecidableEq, Repr, Inhabited

namespace TunableGroup

/-- The groups in the order in which their directories are made. -/
def all : List TunableGroup := [root, loadTracking, frequency, policy]

/-- The directory of a group below the top directory. -/
def directory? : TunableGroup → Option String
  | root => none
  | loadTracking => some "slim_walt"
  | frequency => some "slim_freq_gov"
  | policy => some "policy"

end TunableGroup

/-- Who may write a tunable. -/
inductive Access where
  /-- Anyone. -/
  | readWrite
  /-- Only the control plane itself. -/
  | readOnly
  deriving DecidableEq, Repr, Inhabited

/-- A closed range of values. -/
structure Bounds where
  /-- The least value. -/
  lo : Int32
  /-- The greatest value. -/
  hi : Int32
  /-- The range has at least one value. -/
  lo_le_hi : lo ≤ hi := by decide
  deriving DecidableEq

namespace Bounds

/-- Whether a value is in the range. -/
def accepts (b : Bounds) (v : Int32) : Bool := decide (b.lo ≤ v) && decide (v ≤ b.hi)

/-- The value itself if it is in the range, else the nearer end. -/
def clamp (b : Bounds) (v : Int32) : Int32 :=
  if v < b.lo then b.lo else if b.hi < v then b.hi else v

@[simp] theorem accepts_iff {b : Bounds} {v : Int32} :
    b.accepts v = true ↔ b.lo ≤ v ∧ v ≤ b.hi := by
  simp [accepts]

/-- A clamped value is in the range. -/
theorem accepts_clamp (b : Bounds) (v : Int32) : b.accepts (b.clamp v) = true := by
  have h := b.lo_le_hi
  unfold clamp
  rw [accepts_iff]
  split
  · exact ⟨Int32.le_refl _, h⟩
  · rename_i h₁
    split
    · exact ⟨h, Int32.le_refl _⟩
    · rename_i h₂
      exact ⟨Int32.not_lt.1 h₁, Int32.not_lt.1 h₂⟩

/-- A value in the range is left as it is. -/
theorem clamp_of_accepts {b : Bounds} {v : Int32} (h : b.accepts v = true) : b.clamp v = v := by
  rw [accepts_iff] at h
  rw [clamp, if_neg (Int32.not_lt.2 h.1), if_neg (Int32.not_lt.2 h.2)]

end Bounds

/-- What is fixed about a tunable. -/
structure TunableSpec where
  /-- The group it belongs to. -/
  group : TunableGroup
  /-- The name of its file. -/
  name : String
  /-- The value it starts with. -/
  default : Int32
  /-- Who may write it. -/
  access : Access := .readWrite
  /-- The range it stays in, if it has one. -/
  bounds : Option Bounds := none

namespace TunableSpec

/-- The path of the file below the top directory. -/
def path (s : TunableSpec) : String :=
  match s.group.directory? with
  | none => s.name
  | some directory => directory ++ "/" ++ s.name

/-- Whether the tunable may hold a value. -/
def accepts (s : TunableSpec) (v : Int32) : Bool := s.bounds.all (·.accepts v)

/-- The value itself if the tunable may hold it, else the nearer end of its range. -/
def clamp (s : TunableSpec) (v : Int32) : Int32 := s.bounds.elim v (·.clamp v)

/-- With a declared range it is the range that decides. -/
theorem accepts_of_bounds {s : TunableSpec} {b : Bounds} (hb : s.bounds = some b) (v : Int32) :
    s.accepts v = b.accepts v := by
  rw [accepts, hb, Option.all_some]

/-- A clamped value may be held. -/
theorem accepts_clamp (s : TunableSpec) (v : Int32) : s.accepts (s.clamp v) = true := by
  unfold accepts clamp
  cases s.bounds with
  | none => rfl
  | some b => exact b.accepts_clamp v

/-- A value that may be held is left as it is. -/
theorem clamp_of_accepts {s : TunableSpec} {v : Int32} (h : s.accepts v = true) :
    s.clamp v = v := by
  unfold accepts at h
  unfold clamp
  cases hb : s.bounds with
  | none => rfl
  | some b =>
    rw [hb] at h
    exact Bounds.clamp_of_accepts h

/-- What may not be held is outside a declared range. -/
theorem exists_bounds_of_not_accepts {s : TunableSpec} {v : Int32} (h : s.accepts v = false) :
    ∃ b, s.bounds = some b ∧ b.accepts v = false := by
  cases hb : s.bounds with
  | none => simp [accepts, hb] at h
  | some b =>
    rw [accepts_of_bounds hb] at h
    exact ⟨b, rfl, h⟩

end TunableSpec

/-- The tunables. -/
inductive Tunable where
  /-- Whether the extensible scheduling class is on. -/
  | scxEnable
  /-- Whether CPUs are controlled one part at a time. -/
  | partialCtrl
  /-- The load ratio at which a CPU is taken in. -/
  | cpuctrlHigh
  /-- The load ratio at which a CPU is given back. -/
  | cpuctrlLow
  /-- Whether detailed statistics are kept. -/
  | slimStats
  /-- The debug level of the core. -/
  | hmbirdcoreDebug
  /-- The setting for applications. -/
  | slimForApp
  /-- The load ratio from which a task does not fit its CPU. -/
  | misfitDs
  /-- Whether shadow ticks are on. -/
  | scxShadowTickEnable
  /-- The debug level of high-resolution ticks. -/
  | highresTickCtrlDbg
  /-- The task limit of CPU 7. -/
  | cpu7Tl
  /-- The CPUs of each cluster. -/
  | cpuClusterMasks
  /-- The request to record the current frequency governors. -/
  | saveGov
  /-- The heartbeat of the user-space agent. -/
  | heartbeat
  /-- Whether the heartbeat is watched. -/
  | heartbeatEnable
  /-- Whether the watchdog is on. -/
  | watchdogEnable
  /-- Whether CPUs are isolated. -/
  | isolateCtrl
  /-- The upper ratio of partial control. -/
  | parctrlHighRatio
  /-- The lower ratio of partial control. -/
  | parctrlLowRatio
  /-- The upper ratio of isolation. -/
  | isoctrlHighRatio
  /-- The lower ratio of isolation. -/
  | isoctrlLowRatio
  /-- Whether isolated CPUs help out. -/
  | isoFreeRescue
  /-- The upper ratio of partial control on little CPUs. -/
  | parctrlHighRatioL
  /-- The lower ratio of partial control on little CPUs. -/
  | parctrlLowRatioL
  /-- Whether load tracking is on. -/
  | slimWaltCtrl
  /-- Whether load tracking writes its state out. -/
  | slimWaltDump
  /-- The policy of load tracking. -/
  | slimWaltPolicy
  /-- The frame rate that sets the tracking window. -/
  | framePerSec
  /-- The debug level of the frequency governor. -/
  | slimGovDebug
  /-- Whether the extensible class drives the governor. -/
  | scxGovCtrl
  /-- Whether an overload triggers a rebalance. -/
  | policyOptimizationEnabled
  /-- The performance threshold, in percent. -/
  | cpuPerformanceThreshold
  /-- The least time between two passes, in milliseconds. -/
  | loadBalanceInterval
  /-- The period of the policy timer, in milliseconds. -/
  | policyTickMs
  /-- How many rebalances were triggered. -/
  | nrRebalance
  /-- The load that the latest pass saw. -/
  | lastTotalLoad
  deriving DecidableEq, Repr, Inhabited

namespace Tunable

/-- The tunables in the order in which they are listed. -/
def all : List Tunable := [
  scxEnable, partialCtrl, cpuctrlHigh, cpuctrlLow, slimStats, hmbirdcoreDebug, slimForApp,
  misfitDs, scxShadowTickEnable, highresTickCtrlDbg, cpu7Tl, cpuClusterMasks, saveGov, heartbeat,
  heartbeatEnable, watchdogEnable, isolateCtrl, parctrlHighRatio, parctrlLowRatio,
  isoctrlHighRatio, isoctrlLowRatio, isoFreeRescue, parctrlHighRatioL, parctrlLowRatioL,
  slimWaltCtrl, slimWaltDump, slimWaltPolicy, framePerSec, slimGovDebug, scxGovCtrl,
  policyOptimizationEnabled, cpuPerformanceThreshold, loadBalanceInterval, policyTickMs,
  nrRebalance, lastTotalLoad]

/-- How many tunables there are. -/
abbrev count : Nat := 36

/-- The place of a tunable in the order. -/
def index (t : Tunable) : Fin count := ⟨t.ctorIdx, by cases t <;> decide⟩

@[simp] theorem length_all : all.length = count := rfl

/-- The tunable at a place of the order. -/
def ofIndex (i : Fin count) : Tunable := all.get (i.cast length_all.symm)

/-- The tunable at a place of the order, if there is one. -/
def ofIndex? (n : Nat) : Option Tunable := all[n]?

/-- What is fixed about each tunable. -/
def spec : Tunable → TunableSpec
  | scxEnable => ⟨.root, "scx_enable", 0, .readWrite, none⟩
  | partialCtrl => ⟨.root, "partial_ctrl", 0, .readWrite, none⟩
  | cpuctrlHigh => ⟨.root, "cpuctrl_high", 55, .readWrite, none⟩
  | cpuctrlLow => ⟨.root, "cpuctrl_low", 40, .readWrite, none⟩
  | slimStats => ⟨.root, "slim_stats", 0, .readWrite, none⟩
  | hmbirdcoreDebug => ⟨.root, "hmbirdcore_debug", 0, .readWrite, none⟩
  | slimForApp => ⟨.root, "slim_for_app", 0, .readWrite, none⟩
  | misfitDs => ⟨.root, "misfit_ds", 90, .readWrite, none⟩
  | scxShadowTickEnable => ⟨.root, "scx_shadow_tick_enable", 0, .readWrite, none⟩
  | highresTickCtrlDbg => ⟨.root, "highres_tick_ctrl_dbg", 0, .readWrite, none⟩
  | cpu7Tl => ⟨.root, "cpu7_tl", 70, .readWrite, none⟩
  | cpuClusterMasks => ⟨.root, "cpu_cluster_masks", 0, .readWrite, none⟩
  | saveGov => ⟨.root, "save_gov", 0, .readWrite, none⟩
  | heartbeat => ⟨.root, "heartbeat", 0, .readWrite, none⟩
  | heartbeatEnable => ⟨.root, "heartbeat_enable", 0, .readWrite, none⟩
  | watchdogEnable => ⟨.root, "watchdog_enable", 0, .readWrite, none⟩
  | isolateCtrl => ⟨.root, "isolate_ctrl", 0, .readWrite, none⟩
  | parctrlHighRatio => ⟨.root, "parctrl_high_ratio", 55, .readWrite, none⟩
  | parctrlLowRatio => ⟨.root, "parctrl_low_ratio", 40, .readWrite, none⟩
  | isoctrlHighRatio => ⟨.root, "isoctrl_high_ratio", 75, .readWrite, none⟩
  | isoctrlLowRatio => ⟨.root, "isoctrl_low_ratio", 60, .readWrite, none⟩
  | isoFreeRescue => ⟨.root, "iso_free_rescue", 0, .readWrite, none⟩
  | parctrlHighRatioL => ⟨.root, "parctrl_high_ratio_l", 65, .readWrite, none⟩
  | parctrlLowRatioL => ⟨.root, "parctrl_low_ratio_l", 50, .readWrite, none⟩
  | slimWaltCtrl => ⟨.loadTracking, "slim_walt_ctrl", 0, .readWrite, none⟩
  | slimWaltDump => ⟨.loadTracking, "slim_walt_dump", 0, .readWrite, none⟩
  | slimWaltPolicy => ⟨.loadTracking, "slim_walt_policy", 0, .readWrite, none⟩
  | framePerSec => ⟨.loadTracking, "frame_per_sec", 125, .readWrite, none⟩
  | slimGovDebug => ⟨.frequency, "slim_gov_debug", 0, .readWrite, none⟩
  | scxGovCtrl => ⟨.frequency, "scx_gov_ctrl", 1, .readWrite, none⟩
  | policyOptimizationEnabled =>
    ⟨.policy, "policy_optimization_enabled", 1, .readWrite, some ⟨0, 1, by decide⟩⟩
  | cpuPerformanceThreshold =>
    ⟨.policy, "cpu_performance_threshold", 80, .readWrite,
      some ⟨Threshold.lower, Threshold.upper, by decide⟩⟩
  | loadBalanceInterval =>
    ⟨.policy, "load_balance_interval", 100, .readWrite, some ⟨0, 60_000, by decide⟩⟩
  | policyTickMs => ⟨.policy, "policy_tick_ms", 20, .readWrite, some ⟨1, 60_000, by decide⟩⟩
  | nrRebalance => ⟨.policy, "nr_rebalance", 0, .readOnly, none⟩
  | lastTotalLoad => ⟨.policy, "last_total_load", 0, .readOnly, none⟩

/-- The name of the file of a tunable. -/
def name (t : Tunable) : String := t.spec.name

/-- The path of the file of a tunable below the top directory. -/
def path (t : Tunable) : String := t.spec.path

/-- The tunable that a path or a bare file name means. -/
def find? (s : String) : Option Tunable := all.find? fun t => t.path == s || t.name == s

/-! ### The order -/

@[simp] theorem ofIndex?_index (t : Tunable) : ofIndex? t.index = some t := by
  cases t <;> rfl

theorem mem_all (t : Tunable) : t ∈ all := List.mem_of_getElem? (ofIndex?_index t)

@[simp] theorem ofIndex_index (t : Tunable) : ofIndex t.index = t := by
  cases t <;> rfl

@[simp] theorem index_ofIndex (i : Fin count) : (ofIndex i).index = i := by
  revert i
  decide

theorem index_injective {t u : Tunable} (h : t.index = u.index) : t = u := by
  rw [← ofIndex_index t, h, ofIndex_index]

/-- Every default is a value that the tunable may hold. -/
theorem accepts_default (t : Tunable) : t.spec.accepts t.spec.default = true := by
  cases t <;> decide

end Tunable
end CpuSteward
