import CpuSteward.Load.Sample
import CpuSteward.Notice
import CpuSteward.Tunable.Registry

/-!
# Passes of the load monitor

In a pass the monitor takes a sample and acts on it.  If a CPU is overloaded, and
rebalancing is enabled, it makes every other online CPU reschedule.  It moves the
threshold by at most one step, and records the total load.

A `Pass` is what one pass saw and decided; the change of the registry, the CPUs
that are made to reschedule and the log records all follow from it.

## Main definitions

* `Pass.of`: the pass that a kernel state and a registry lead to.
* `Pass.apply`: the registry after a pass.
* `Pass.notices`: the log records of a pass.

## Main results

* `Pass.rebalanced_of`, `Pass.mem_kicked_of`: when a pass makes CPUs reschedule, and which.
* `Pass.get_apply_of_ne`, `Pass.get_apply_lastTotalLoad`, `Pass.get_apply_nrRebalance`,
  `Pass.get_apply_threshold`: every value after a pass.
-/

namespace CpuSteward

/-- The members of a set of CPUs, in ascending order, without the one that asks. -/
def CpuMask.others (m : CpuMask) (thisCpu : Nat) : List Nat := m.toList.filter (· ≠ thisCpu)

theorem CpuMask.mem_others {m : CpuMask} {thisCpu c : Nat} :
    c ∈ m.others thisCpu ↔ c ∈ m ∧ c ≠ thisCpu := by
  rw [others, List.mem_filter, mem_toList, decide_eq_true_eq]

theorem CpuMask.pairwise_others (m : CpuMask) (thisCpu : Nat) :
    (m.others thisCpu).Pairwise (· < ·) :=
  m.pairwise_toList.filter _

/-- What one pass saw and decided. -/
structure Pass where
  /-- The sample it was based on. -/
  sample : LoadSample
  /-- Whether it triggered a rebalance. -/
  rebalanced : Bool
  /-- The CPUs that were made to reschedule, in order. -/
  kicked : List Nat
  /-- The threshold before the pass. -/
  before : Int32
  /-- The threshold after the pass. -/
  after : Int32
  deriving DecidableEq

namespace Pass

/-- The greatest load that is recorded as it is. -/
def maxRecorded : UInt64 := 0x7FFFFFFF

/-- The pass that a kernel state and a registry lead to. -/
def of (k : Kernel) (r : Registry) : Pass :=
  let sample := LoadSample.collect k
  let rebalanced := !sample.overloaded.isEmpty && r.get .policyOptimizationEnabled != 0
  let before := r.get .cpuPerformanceThreshold
  { sample
    rebalanced
    kicked := if rebalanced then k.online.others k.thisCpu else []
    before
    after := Threshold.adapt before sample.totalRunning sample.onlineCount }

/-- The load as the registry records it. -/
def recordedLoad (p : Pass) : Int32 := .ofNat (min p.sample.totalRunning maxRecorded).toNat

/-- The registry after a pass. -/
def apply (p : Pass) (r : Registry) : Registry :=
  let r := if p.rebalanced then r.increment .nrRebalance else r
  let r := if p.after ≠ p.before then r.store .cpuPerformanceThreshold p.after else r
  r.store .lastTotalLoad p.recordedLoad

/-- The log records of a pass. -/
def notices (p : Pass) : List Notice :=
  p.sample.overloaded.toList.map (fun c => .overloaded c (p.sample.cpu c).running) ++
    (if p.rebalanced then [.rebalancing] else []) ++
    (if p.after ≠ p.before then
      [.thresholdMoved p.before p.after p.sample.totalRunning p.sample.onlineCount]
    else [])

@[simp] theorem sample_of (k : Kernel) (r : Registry) : (of k r).sample = .collect k := rfl

@[simp] theorem before_of (k : Kernel) (r : Registry) :
    (of k r).before = r.get .cpuPerformanceThreshold := by
  rw [of]

@[simp] theorem after_of (k : Kernel) (r : Registry) :
    (of k r).after = Threshold.adapt (r.get .cpuPerformanceThreshold)
      (LoadSample.collect k).totalRunning (LoadSample.collect k).onlineCount := by
  rw [of]

/-- A pass triggers a rebalance if it saw an overloaded CPU while rebalancing was enabled. -/
theorem rebalanced_of (k : Kernel) (r : Registry) : (of k r).rebalanced = true ↔
    (∃ c, c ∈ (of k r).sample.overloaded) ∧ r.get .policyOptimizationEnabled ≠ 0 := by
  show (!(LoadSample.collect k).overloaded.isEmpty && r.get .policyOptimizationEnabled != 0) =
    true ↔ _
  rw [Bool.and_eq_true, Bool.not_eq_true', CpuMask.isEmpty_eq_false_iff, bne_iff_ne, sample_of]

theorem kicked_of (k : Kernel) (r : Registry) :
    (of k r).kicked = if (of k r).rebalanced then k.online.others k.thisCpu else [] := rfl

theorem mem_kicked_of {k : Kernel} {r : Registry} {c : Nat} :
    c ∈ (of k r).kicked ↔ (of k r).rebalanced = true ∧ c ∈ k.online ∧ c ≠ k.thisCpu := by
  rw [kicked_of]
  cases (of k r).rebalanced with
  | true => simp [CpuMask.mem_others]
  | false => simp

theorem pairwise_kicked_of (k : Kernel) (r : Registry) : (of k r).kicked.Pairwise (· < ·) := by
  rw [kicked_of]
  split
  · exact k.online.pairwise_others k.thisCpu
  · exact List.Pairwise.nil

/-- The load is recorded as it is, as far as a signed word can hold it. -/
theorem toInt_recordedLoad (p : Pass) :
    p.recordedLoad.toInt = min (p.sample.totalRunning.toNat : Int) 0x7FFFFFFF := by
  have hm : maxRecorded.toNat = 0x7FFFFFFF := by decide
  have hmin : (min p.sample.totalRunning maxRecorded).toNat =
      min p.sample.totalRunning.toNat 0x7FFFFFFF := by
    show (if p.sample.totalRunning ≤ maxRecorded then _ else maxRecorded).toNat = _
    split <;> rename_i h <;> rw [UInt64.le_iff_toNat_le, hm] at h <;> omega
  rw [recordedLoad, hmin, Int32.toInt_ofNat_of_lt (by omega)]
  omega

/-- The recorded load is never negative. -/
theorem recordedLoad_nonneg (p : Pass) : 0 ≤ p.recordedLoad.toInt := by
  rw [toInt_recordedLoad]
  omega

/-- A pass touches three tunables and no other. -/
theorem get_apply_of_ne (p : Pass) (r : Registry) {t : Tunable} (h₁ : t ≠ .nrRebalance)
    (h₂ : t ≠ .cpuPerformanceThreshold) (h₃ : t ≠ .lastTotalLoad) :
    (p.apply r).get t = r.get t := by
  unfold apply
  rw [Registry.get_store, if_neg h₃]
  split
  · rw [Registry.get_store, if_neg h₂]
    split
    · rw [Registry.get_increment, if_neg h₁]
    · rfl
  · split
    · rw [Registry.get_increment, if_neg h₁]
    · rfl

theorem get_apply_lastTotalLoad (p : Pass) (r : Registry) :
    (p.apply r).get .lastTotalLoad = p.recordedLoad := by
  unfold apply
  rw [Registry.get_store, if_pos rfl]
  rfl

theorem get_apply_nrRebalance (p : Pass) (r : Registry) :
    (p.apply r).get .nrRebalance =
      if p.rebalanced then r.get .nrRebalance + 1 else r.get .nrRebalance := by
  have hl : Tunable.nrRebalance ≠ .lastTotalLoad := by decide
  have ht : Tunable.nrRebalance ≠ .cpuPerformanceThreshold := by decide
  unfold apply
  rw [Registry.get_store, if_neg hl]
  have hif : (if p.rebalanced then r.increment .nrRebalance else r).get .nrRebalance =
      if p.rebalanced then r.get .nrRebalance + 1 else r.get .nrRebalance := by
    split
    · rw [Registry.get_increment, if_pos rfl]
    · rfl
  split
  · rw [Registry.get_store, if_neg ht, hif]
  · exact hif

/-- The threshold that a pass decides on is in its declared range. -/
theorem accepts_after (k : Kernel) (r : Registry) :
    Tunable.cpuPerformanceThreshold.spec.accepts (of k r).after = true := by
  have hb : Tunable.cpuPerformanceThreshold.spec.bounds =
      some ⟨Threshold.lower, Threshold.upper, by decide⟩ := rfl
  rw [after_of, TunableSpec.accepts_of_bounds hb, Bounds.accepts_iff]
  exact Threshold.adapt_mem_range _ _ _

/-- After a pass the threshold is the one that the pass decided on: the range it is
clamped to is the one that the decision keeps to. -/
theorem get_apply_threshold (k : Kernel) (r : Registry) :
    ((of k r).apply r).get .cpuPerformanceThreshold = (of k r).after := by
  have hl : Tunable.cpuPerformanceThreshold ≠ .lastTotalLoad := by decide
  have hn : Tunable.cpuPerformanceThreshold ≠ .nrRebalance := by decide
  unfold apply
  rw [Registry.get_store, if_neg hl]
  by_cases ha : (of k r).after ≠ (of k r).before
  · rw [if_pos ha, Registry.get_store, if_pos rfl]
    exact TunableSpec.clamp_of_accepts (accepts_after k r)
  · rw [if_neg ha]
    have hb : r.get .cpuPerformanceThreshold = (of k r).after := (Decidable.not_not.1 ha).symm
    split
    · rw [Registry.get_increment, if_neg hn, hb]
    · exact hb

end Pass
end CpuSteward
