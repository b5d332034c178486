import CpuSteward.Text.Decimal

/-!
# Events that drive the load monitor

A CPU comes online, a CPU goes offline, or the policy timer ticks.  Which kind
of event arrives never changes what the monitor computes: each one is only an
occasion to take a new sample.
-/

namespace CpuSteward

/-- An occasion to look at the load. -/
inductive CpuEvent where
  /-- The CPU came online. -/
  | online (cpu : Nat)
  /-- The CPU went offline. -/
  | offline (cpu : Nat)
  /-- The periodic tick. -/
  | tick
  deriving DecidableEq, Repr, Inhabited

namespace CpuEvent

/-- The CPU an event is about; a tick is about none. -/
def cpu? : CpuEvent → Option Nat
  | online cpu => some cpu
  | offline cpu => some cpu
  | tick => none

/-- The event as log records name it. -/
def text : CpuEvent → String
  | online cpu => "Online(" ++ Decimal.ofNat cpu ++ ")"
  | offline cpu => "Offline(" ++ Decimal.ofNat cpu ++ ")"
  | tick => "Tick"

end CpuEvent
end CpuSteward
