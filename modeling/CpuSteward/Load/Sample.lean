import CpuSteward.Kernel

/-!
# Load samples

A sample holds the run-queue counters of the CPUs that are online at one moment.
The counters of all other CPUs are zero in it, so that no stale number of an
offline CPU gets any further.

## Main definitions

* `LoadSample.collect`: the sample of a kernel state.
* `LoadSample.totalRunning`, `totalSwitches`, `average`: what the CPUs have in sum.
* `LoadSample.overloaded`: the CPUs with more than their share.

## Main results

* `LoadSample.cpu_collect`: a sample has the counters of the online CPUs.
* `LoadSample.mem_overloaded`, `LoadSample.toNat_overloadLimit`: a CPU is overloaded
  when it is online and runs more than twice as many tasks as there are online CPUs.
-/

namespace CpuSteward

/-- The counters of the online CPUs at one moment. -/
@[ext]
structure LoadSample where
  /-- When the sample was taken, in nanoseconds. -/
  timestamp : UInt64
  /-- The CPUs that were online. -/
  online : CpuMask
  /-- The counters by CPU, zero for those that were offline. -/
  counters : Vector CpuLoad maxCpus
  deriving DecidableEq, Inhabited

namespace LoadSample

/-- A CPU is overloaded when it runs more than this many tasks per online CPU. -/
def overloadFactor : UInt64 := 2

/-- Take a sample of a kernel state. -/
def collect (k : Kernel) : LoadSample where
  timestamp := k.now
  online := k.online
  counters := Vector.ofFn fun c => if k.online.contains c then k.load c else {}

/-- The counters of a CPU, zero if it was offline or does not exist. -/
def cpu (s : LoadSample) (c : Nat) : CpuLoad :=
  if h : c ∈ s.online then
    have := CpuMask.lt_of_mem h
    s.counters[c]
  else {}

/-- How many CPUs were online. -/
def onlineCount (s : LoadSample) : UInt64 := .ofNat s.online.card

/-- The sum of one counter over all online CPUs. -/
def sumOf (s : LoadSample) (counter : CpuLoad → UInt64) : Nat :=
  s.online.toList.foldr (fun c n => (counter (s.cpu c)).toNat + n) 0

/-- The runnable tasks of all online CPUs, modulo the size of a word. -/
def totalRunning (s : LoadSample) : UInt64 := .ofNat (s.sumOf CpuLoad.running)

/-- The context switches of all online CPUs, modulo the size of a word. -/
def totalSwitches (s : LoadSample) : UInt64 := .ofNat (s.sumOf CpuLoad.switches)

/-- The runnable tasks per online CPU, rounded down. -/
def average (s : LoadSample) : UInt64 :=
  if s.onlineCount = 0 then 0 else s.totalRunning / s.onlineCount

/-- The greatest number of runnable tasks a CPU has without being overloaded. -/
def overloadLimit (s : LoadSample) : UInt64 := s.onlineCount * overloadFactor

/-- The online CPUs that are overloaded. -/
def overloaded (s : LoadSample) : CpuMask :=
  .ofList (s.online.toList.filter fun c => decide (s.overloadLimit < (s.cpu c).running))

/-! ### The counters -/

@[simp] theorem timestamp_collect (k : Kernel) : (collect k).timestamp = k.now := rfl

@[simp] theorem online_collect (k : Kernel) : (collect k).online = k.online := rfl

theorem cpu_collect (k : Kernel) (c : Nat) :
    (collect k).cpu c = if c ∈ k.online then k.load c else {} := by
  unfold cpu
  by_cases h : c ∈ k.online
  · simp [collect, h]
  · simp [h]

theorem cpu_collect_of_mem {k : Kernel} {c : Nat} (h : c ∈ k.online) :
    (collect k).cpu c = k.load c := by
  rw [cpu_collect, if_pos h]

theorem cpu_of_not_mem {s : LoadSample} {c : Nat} (h : c ∉ s.online) : s.cpu c = {} := by
  simp [cpu, h]

theorem mem_overloaded {s : LoadSample} {c : Nat} :
    c ∈ s.overloaded ↔ c ∈ s.online ∧ s.overloadLimit < (s.cpu c).running := by
  rw [overloaded, CpuMask.mem_ofList, List.mem_filter, CpuMask.mem_toList, decide_eq_true_eq]
  exact ⟨fun h => h.1, fun h => ⟨h, CpuMask.lt_of_mem h.1⟩⟩

/-! ### The number of CPUs -/

theorem toNat_onlineCount (s : LoadSample) : s.onlineCount.toNat = s.online.card := by
  rw [onlineCount, UInt64.toNat_ofNat_of_lt']
  exact Nat.lt_of_le_of_lt s.online.card_le (by decide)

/-- The limit is far from what a word can hold, for there are few CPUs. -/
theorem toNat_overloadLimit (s : LoadSample) : s.overloadLimit.toNat = 2 * s.online.card := by
  have hcard : s.online.card ≤ 32 := s.online.card_le
  have hfactor : overloadFactor.toNat = 2 := by decide
  rw [overloadLimit, UInt64.toNat_mul, toNat_onlineCount, hfactor]
  omega

end LoadSample
end CpuSteward
