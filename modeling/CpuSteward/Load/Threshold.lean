import CpuSteward.Saturating

/-!
# The performance threshold

The threshold is a percentage between `Threshold.lower` and `Threshold.upper`.
Each pass moves it by at most one step: up when the load is high, down when there
are fewer runnable tasks than CPUs.  How many CPUs are online decides where it
starts and how often passes may run.

## Main definitions

* `Threshold.adapt`: one step of the threshold.
* `Sizing.forOnline`: the starting values for a number of CPUs.

## Main results

* `Threshold.toInt_adapt`: one step in unbounded arithmetic.
-/

namespace CpuSteward

namespace Threshold

/-- The least threshold. -/
def lower : Int32 := 50

/-- The greatest threshold. -/
def upper : Int32 := 95

/-- How far one pass moves the threshold. -/
def step : Int32 := 5

/-- The load is high above this many runnable tasks per online CPU. -/
def highLoadFactor : UInt64 := 3

/-- The value itself between the two ends of the range, else the nearer end. -/
def clamp (v : Int32) : Int32 := if v < lower then lower else if upper < v then upper else v

/-- The threshold after a pass that saw `load` runnable tasks on `online` CPUs. -/
def adapt (current : Int32) (load online : UInt64) : Int32 :=
  clamp <|
    if satMul online highLoadFactor < load then min (satAdd32 current step) upper
    else if load < online then max (satSub32 current step) lower
    else current

theorem toInt_clamp (v : Int32) : (clamp v).toInt = max 50 (min v.toInt 95) := by
  have hl : lower.toInt = 50 := by decide
  have hu : upper.toInt = 95 := by decide
  unfold clamp
  simp only [Int32.lt_iff_toInt_lt, hl, hu]
  split
  · omega
  · split <;> omega

/-- One step of the threshold in unbounded arithmetic. -/
theorem toInt_adapt (current : Int32) (load online : UInt64) :
    (adapt current load online).toInt =
      if 3 * online.toNat < load.toNat then max 50 (min (current.toInt + 5) 95)
      else if load.toNat < online.toNat then max 50 (min (current.toInt - 5) 95)
      else max 50 (min current.toInt 95) := by
  have hl : lower.toInt = 50 := by decide
  have hu : upper.toInt = 95 := by decide
  have hs : step.toInt = 5 := by decide
  have hf : highLoadFactor.toNat = 3 := by decide
  -- the product stops at the greatest word, which no load exceeds
  have hhigh : satMul online highLoadFactor < load ↔ 3 * online.toNat < load.toNat := by
    rw [UInt64.lt_iff_toNat_lt, toNat_satMul, hf]
    have := load.toNat_lt
    omega
  have hlow : load < online ↔ load.toNat < online.toNat := UInt64.lt_iff_toNat_lt
  have hc := current.toInt_lt
  have hc' := current.le_toInt
  rw [adapt, toInt_clamp]
  simp only [hhigh, hlow]
  split
  · rw [toInt_min32, toInt_satAdd32, hs, hu]
    omega
  · split
    · rw [toInt_max32, toInt_satSub32, hs, hl]
      omega
    · rfl

/-- Whatever the threshold was, it is in range after a pass. -/
theorem adapt_mem_range (current : Int32) (load online : UInt64) :
    lower ≤ adapt current load online ∧ adapt current load online ≤ upper := by
  have hl : lower.toInt = 50 := by decide
  have hu : upper.toInt = 95 := by decide
  simp only [Int32.le_iff_toInt_le, adapt, toInt_clamp, hl, hu]
  omega

end Threshold

/-- Starting values for machines with at least a certain number of online CPUs. -/
structure Sizing where
  /-- The least number of online CPUs. -/
  minCpus : UInt64
  /-- The threshold to start from. -/
  threshold : Int32
  /-- The least time between two passes, in milliseconds. -/
  intervalMs : Int32
  deriving DecidableEq

namespace Sizing

/-- The values for a machine of any size. -/
def small : Sizing := ⟨0, 70, 100⟩

/-- The values from the largest machines down. -/
def tiers : List Sizing := [⟨8, 85, 50⟩, ⟨4, 75, 75⟩, small]

/-- The values for a number of online CPUs. -/
def forOnline (online : UInt64) : Sizing :=
  (tiers.find? fun tier => tier.minCpus ≤ online).getD small

end Sizing
end CpuSteward
