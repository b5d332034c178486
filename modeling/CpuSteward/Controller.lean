import CpuSteward.Governor
import CpuSteward.Load.Pass
import CpuSteward.Load.Timer

/-!
# Controllers

A controller is one control plane without its files: the tunables, the gate and
the timer that pace the passes, and the saved governors.  Every operation takes
the state of the kernel at that moment.

## Main definitions

* `Controller.event`: an event leads to a pass, or comes too soon.
* `Controller.tick`: the hardware tick, of which the timer lets few through.
* `Controller.force`: a pass that the gate has no say in.
* `Controller.resize`: the starting values for the CPUs that are online.

## Main results

* `Controller.event_of_admits`, `Controller.event_of_not_admits`: what an event
  leads to.
-/

namespace CpuSteward

/-- One control plane without its files. -/
structure Controller where
  /-- The tunables. -/
  registry : Registry := .defaults
  /-- The rate limit on passes. -/
  gate : Gate := {}
  /-- The timer for the policy tick. -/
  timer : PolicyTimer := {}
  /-- The saved governors. -/
  governors : GovernorTable := .empty
  deriving DecidableEq, Inhabited

/-- What an event leads to. -/
inductive Outcome where
  /-- It came too soon after the latest pass. -/
  | throttled
  /-- It led to a pass. -/
  | completed (pass : Pass)
  deriving DecidableEq

namespace Outcome

/-- The pass, if there was one. -/
def pass? : Outcome → Option Pass
  | throttled => none
  | completed pass => some pass

/-- The CPUs that were made to reschedule. -/
def kicked (o : Outcome) : List Nat := o.pass?.elim [] Pass.kicked

/-- The log records of the outcome of an event. -/
def notices (event : CpuEvent) : Outcome → List Notice
  | throttled => [.throttled event]
  | completed pass => pass.notices

end Outcome

/-- The log record that announces an event; a tick is not announced. -/
def CpuEvent.notices : CpuEvent → List Notice
  | online cpu => [.cpuOnline cpu]
  | offline cpu => [.cpuOffline cpu]
  | tick => []

namespace Controller

/-- Run a pass whatever the gate says. -/
def force (c : Controller) (k : Kernel) : Pass × Controller :=
  let pass := Pass.of k c.registry
  (pass, { c with registry := pass.apply c.registry, gate := .passed k.now })

/-- Run a pass if the gate admits one. -/
def event (c : Controller) (k : Kernel) : Outcome × Controller :=
  if c.gate.admits (c.registry.get .loadBalanceInterval) k.now then
    let (pass, c) := c.force k
    (.completed pass, c)
  else (.throttled, c)

/-- Offer the hardware tick to the timer; what it lets through is an event.  The timer and
the gate each look at the clock, and both looks are answered by `k`: a tick and the event
it leads to are at one moment. -/
def tick (c : Controller) (k : Kernel) : Option Outcome × Controller :=
  match c.timer.poll k.now (c.registry.get .policyTickMs) with
  | (false, timer) => (none, { c with timer })
  | (true, timer) =>
    let (outcome, c) := { c with timer : Controller }.event k
    (some outcome, c)

/-- Set the starting values for the CPUs that are online. -/
def resize (c : Controller) (k : Kernel) : Sizing × Controller :=
  let sizing := Sizing.forOnline (.ofNat k.online.card)
  let registry := c.registry.store .cpuPerformanceThreshold sizing.threshold
  (sizing, { c with registry := registry.store .loadBalanceInterval sizing.intervalMs })

/-- Enable or disable rebalancing. -/
def enable (c : Controller) (enabled : Bool) : Controller :=
  { c with
    registry := c.registry.store .policyOptimizationEnabled (if enabled then 1 else 0) }

/-- Whether rebalancing is enabled. -/
def enabled (c : Controller) : Bool := c.registry.get .policyOptimizationEnabled != 0

/-- Record the governors in use. -/
def saveGovernors (c : Controller) (k : Kernel) : Controller :=
  { c with governors := c.governors.saveAll k }

/-! ### What a pass changes -/

@[simp] theorem fst_force (c : Controller) (k : Kernel) : (c.force k).1 = .of k c.registry := rfl

@[simp] theorem registry_force (c : Controller) (k : Kernel) :
    (c.force k).2.registry = (Pass.of k c.registry).apply c.registry := rfl

@[simp] theorem gate_force (c : Controller) (k : Kernel) :
    (c.force k).2.gate = .passed k.now := rfl

@[simp] theorem timer_force (c : Controller) (k : Kernel) : (c.force k).2.timer = c.timer := by
  rw [force]

/-! ### What an event leads to -/

theorem event_of_admits {c : Controller} {k : Kernel}
    (h : c.gate.admits (c.registry.get .loadBalanceInterval) k.now = true) :
    c.event k = (.completed (c.force k).1, (c.force k).2) := by
  rw [event, if_pos h]

theorem event_of_not_admits {c : Controller} {k : Kernel}
    (h : c.gate.admits (c.registry.get .loadBalanceInterval) k.now = false) :
    c.event k = (.throttled, c) := by
  rw [event, h, if_neg (by simp)]

end Controller
end CpuSteward
