import CpuSteward.Cpu.Event
import CpuSteward.Error
import CpuSteward.Identity
import CpuSteward.Load.Threshold

/-!
# Log records

A notice is one record of the log.  It says what happened; its level and its
wording follow from that.

## Main definitions

* `Notice`: the records, with `Notice.level` and `Notice.message`.
-/

namespace CpuSteward

/-- How important a record is. -/
inductive Level where
  /-- Something failed. -/
  | error
  /-- Something was refused or is missing. -/
  | warn
  /-- A change of the state. -/
  | info
  /-- A detail. -/
  | debug
  deriving DecidableEq, Repr

namespace Level

/-- The level in lower case. -/
def text : Level → String
  | error => "error"
  | warn => "warn"
  | info => "info"
  | debug => "debug"

end Level

/-- One record of the log. -/
inductive Notice where
  /-- The starting values for the CPUs that are online were set. -/
  | sized (online : UInt64) (sizing : Sizing)
  /-- An event came too soon after the latest pass. -/
  | throttled (event : CpuEvent)
  /-- A CPU came online. -/
  | cpuOnline (cpu : Nat)
  /-- A CPU went offline. -/
  | cpuOffline (cpu : Nat)
  /-- A pass found an overloaded CPU. -/
  | overloaded (cpu : Nat) (running : UInt64)
  /-- A pass triggered a rebalance. -/
  | rebalancing
  /-- A pass moved the threshold. -/
  | thresholdMoved (before after : Int32) (load online : UInt64)
  /-- A frequency policy has no governor to record. -/
  | governorMissing (cpu : Nat)
  /-- The governor of a frequency policy was recorded. -/
  | governorSaved (name : String) (cpu : Nat)
  /-- A request to record the governors was served. -/
  | governorsRecorded (count : Nat)
  /-- A tunable refused a write. -/
  | writeRejected (path : String) (cause : SetError)
  /-- An entry was taken out of the tree. -/
  | entryRemoved (name : String)
  /-- The control plane was not loaded. -/
  | loadFailed (cause : LoadError)
  /-- The control plane was loaded. -/
  | loaded (tunables : Nat)
  /-- The directory of the control plane could not be taken out of the tree. -/
  | removalFailed (cause : AccessError)
  /-- The control plane was unloaded. -/
  | unloaded (rebalances : Int32)

namespace Notice

/-- The level of a record. -/
def level : Notice → Level
  | loadFailed _ => .error
  | governorMissing _ | writeRejected _ _ | removalFailed _ => .warn
  | sized _ _ | cpuOnline _ | cpuOffline _ | rebalancing | loaded _ | unloaded _ => .info
  | throttled _ | overloaded _ _ | thresholdMoved _ _ _ _ | governorSaved _ _
  | governorsRecorded _ | entryRemoved _ => .debug

/-- The wording of a record. -/
def message : Notice → String
  | sized online sizing =>
    "policy: " ++ Decimal.ofWord online ++ " online CPUs, threshold=" ++
      Decimal.ofInt32 sizing.threshold ++ "%, interval=" ++
      Decimal.ofInt32 sizing.intervalMs ++ "ms"
  | throttled event => "policy: " ++ event.text ++ " throttled"
  | cpuOnline cpu => "policy: CPU " ++ Decimal.ofNat cpu ++ " online, optimizing performance"
  | cpuOffline cpu => "policy: CPU " ++ Decimal.ofNat cpu ++ " offline, rebalancing load"
  | overloaded cpu running =>
    "policy: CPU " ++ Decimal.ofNat cpu ++ " overloaded: " ++ Decimal.ofWord running ++ " tasks"
  | rebalancing => "policy: Triggering system-wide load rebalancing"
  | thresholdMoved before after load online =>
    "policy: threshold " ++ Decimal.ofInt32 before ++ "% -> " ++ Decimal.ofInt32 after ++
      "% (load " ++ Decimal.ofWord load ++ " on " ++ Decimal.ofWord online ++ " CPUs)"
  | governorMissing cpu => "cpufreq: policy" ++ Decimal.ofNat cpu ++ " has no governor"
  | governorSaved name cpu =>
    "cpufreq: saved governor '" ++ name ++ "' for policy" ++ Decimal.ofNat cpu
  | governorsRecorded count =>
    "procfs: save_gov recorded " ++ Decimal.ofNat count ++ " policies"
  | writeRejected path cause => "procfs: rejected write to " ++ path ++ ": " ++ cause.message
  | entryRemoved name => "procfs: removed " ++ name
  | loadFailed cause => Identity.name ++ ": " ++ cause.message
  | loaded tunables =>
    Identity.name ++ " " ++ Identity.version ++ ": loaded, " ++ Decimal.ofNat tunables ++
      " tunables under /proc/" ++ Identity.directory
  | removalFailed cause =>
    Identity.name ++ ": remove /proc/" ++ Identity.directory ++ ": " ++ cause.message
  | unloaded rebalances =>
    Identity.name ++ ": unloaded, " ++ Decimal.ofInt32 rebalances ++ " rebalances"

end Notice
end CpuSteward
