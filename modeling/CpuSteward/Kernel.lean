import CpuSteward.Cpu.Mask

/-!
# The surrounding kernel

Everything the control plane asks of the kernel it runs in: the clock, the run
queues, who is asking, and the frequency policies.  A `Kernel` is the state of
all these answers at one moment; an operation of the control plane takes one and
changes nothing in it.

An operation that asks twice gets the same answer twice: whatever it does, it does at
one moment.  The hardware tick is one of these, as its timer and its gate both look at
the clock.
-/

namespace CpuSteward

/-- The run-queue counters of one CPU. -/
@[ext]
structure CpuLoad where
  /-- The tasks that are runnable now. -/
  running : UInt64 := 0
  /-- The context switches so far. -/
  switches : UInt64 := 0
  deriving DecidableEq, Inhabited

/-- What an extensible scheduling class reports; a kernel without one reports zeros. -/
structure ExtensionStatus where
  /-- Why the class was last left. -/
  exitType : Int32 := 0
  /-- How many tasks the class turned away. -/
  rejected : Int64 := 0
  deriving DecidableEq, Inhabited

/-- The answers of the kernel at one moment. -/
structure Kernel where
  /-- The clock, in nanoseconds. -/
  now : UInt64 := 0
  /-- The CPUs that are online. -/
  online : CpuMask := .empty
  /-- The run-queue counters by CPU; those of a CPU that is offline are stale. -/
  load : Nat → CpuLoad := fun _ => {}
  /-- The extensible scheduling class. -/
  extension : ExtensionStatus := {}
  /-- The CPU that runs the operation. -/
  thisCpu : Nat := 0
  /-- The CPUs that are present. -/
  present : CpuMask := .empty
  /-- The first CPU of the frequency policy that a CPU belongs to. -/
  policyCpu : Nat → Option Nat := fun _ => none
  /-- The name of the governor of a policy. -/
  governor : Nat → Option String := fun _ => none
  deriving Inhabited

end CpuSteward
