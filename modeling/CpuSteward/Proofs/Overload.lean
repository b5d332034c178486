import CpuSteward.Proofs.Adaptation
import CpuSteward.Proofs.Event
import Mathlib.Algebra.Order.BigOperators.Group.List
import Mathlib.Algebra.Order.Ring.Nat

/-!
# Overload and adaptation

A pass looks at the load twice.  It compares each CPU with twice the number of CPUs to find out
whether to rebalance, and all of them together with one time and with three times that number to
find out where to move the threshold.  The two answers go together.  A CPU that is overloaded has
tasks enough for the whole machine, so the load is not low and the threshold does not go down.  And
tasks enough to overload every CPU overload one at least, since they have to run somewhere.

## Main results

* `Kernel.Overloaded.two_mul_lt`, `Kernel.exists_overloaded` — overload of one CPU and the load of
  all.
* `System.effect_of_pass?`, `System.kicked_of_pass?` — what a step does that completes a pass.
* `Pass.overload_agrees` — **a rebalance never goes with a lower threshold, and a high load
  goes with both a rebalance and a higher threshold.**
-/

namespace CpuSteward

namespace Kernel

variable {k : Kernel} {c b : Nat}

/-! ### One CPU and all of them -/

theorem runnable_eq_sum_map (k : Kernel) :
    k.runnable = (k.online.toList.map fun c => (k.load c).running.toNat).sum := by
  rw [runnable, List.sum_eq_foldr, List.foldr_map]

/-- All CPUs together run what one of them runs. -/
theorem running_le_runnable (hc : c ∈ k.online) : (k.load c).running.toNat ≤ k.runnable := by
  rw [runnable_eq_sum_map]
  exact List.le_sum_of_mem (List.mem_map_of_mem (CpuMask.mem_toList.2 hc))

/-- If no CPU runs more than `b` tasks, all together run no more than `b` times their number. -/
theorem runnable_le (h : ∀ c ∈ k.online, (k.load c).running.toNat ≤ b) :
    k.runnable ≤ k.online.card * b := by
  rw [runnable_eq_sum_map, CpuMask.card_eq_length]
  have hsum := List.sum_le_card_nsmul (k.online.toList.map fun c => (k.load c).running.toNat) b
    fun x hx => by
      obtain ⟨c, hc, rfl⟩ := List.mem_map.1 hx
      exact h c (CpuMask.mem_toList.1 hc)
  rwa [List.length_map, Nat.nsmul_eq_mul] at hsum

/-- One overloaded CPU has two tasks for each CPU, and more. -/
theorem Overloaded.two_mul_lt (h : k.Overloaded c) : 2 * k.online.card < k.runnable := by
  obtain ⟨hc, hmany⟩ := h
  rw [CpuMask.card_eq_length]
  exact Nat.lt_of_lt_of_le hmany (running_le_runnable hc)

/-- More tasks than can be shared out without overload overload a CPU. -/
theorem exists_overloaded (h : 2 * k.online.card * k.online.card < k.runnable) :
    ∃ c, k.Overloaded c := by
  by_contra hnone
  have hshare : ∀ c ∈ k.online, (k.load c).running.toNat ≤ 2 * k.online.card := by
    intro c hc
    rw [CpuMask.card_eq_length]
    exact Nat.not_lt.1 fun hmany => hnone ⟨c, hc, hmany⟩
  have hle := runnable_le hshare
  rw [Nat.mul_comm] at hle
  exact absurd h (Nat.not_lt.2 hle)

/-- The sample has an overloaded CPU if the kernel has one. -/
theorem isEmpty_overloaded_eq_false_iff (k : Kernel) :
    (LoadSample.collect k).overloaded.isEmpty = false ↔ ∃ c, k.Overloaded c := by
  rw [CpuMask.isEmpty_eq_false_iff]
  exact exists_congr fun c => LoadSample.mem_overloaded_collect

end Kernel

namespace System

variable {s : System} {id : ControllerId} {st : Step} {p : Pass}

/-! ### Steps that complete a pass -/

/-- A step that completes a pass does to the registry what the pass does. -/
theorem effect_of_pass? (hp : s.pass? id st = some p) :
    p = .of st.kernel (s.controller id).registry ∧
      ((s.act st).system.controller id).registry = p.apply (s.controller id).registry := by
  have heffect := s.effect_act id st
  rw [hp] at heffect
  generalize s.written? st = w, ((s.act st).system.controller id).registry = r' at heffect ⊢
  cases heffect with
  | pass _ => exact ⟨rfl, rfl⟩

/-- A step that completes a pass makes those CPUs reschedule that the pass decided on. -/
theorem kicked_of_pass? (hp : s.pass? id st = some p) : (s.act st).kicked = p.kicked := by
  have hreply : (s.act st).result.pass? = some p := by
    unfold pass? at hp
    split at hp
    · exact hp
    · cases hp
  obtain ⟨k, target, action⟩ := st
  cases action with
  | event e => exact congrArg (Option.elim · [] Pass.kicked) hreply
  | notify e => exact congrArg (Option.elim · [] Pass.kicked) hreply
  | tick =>
    obtain ⟨o, ho, hpass⟩ := Option.bind_eq_some_iff.1 hreply
    exact (congrArg (Option.elim · [] Outcome.kicked) ho).trans
      (congrArg (Option.elim · [] Pass.kicked) hpass)
  | force =>
    cases hreply
    rfl
  | set t bytes =>
    cases hset : (s.controller target).registry.set t bytes <;>
      simp [act, hset, update, Reply.pass?] at hreply
  | setValue t v =>
    cases hset : (s.controller target).registry.setValue t v <;>
      simp [act, hset, update, Reply.pass?] at hreply
  | _ => cases hreply

end System

namespace Threshold

variable {c : Int} {load online : Nat}

/-- The threshold does not go down where there is a task for each CPU. -/
theorem le_ideal (hload : online ≤ load) (hc : c ≤ 95) : c ≤ ideal c load online := by
  rcases Nat.lt_or_ge (3 * online) load with hhigh | hhigh
  · rw [ideal_of_high hhigh, bounded]
    omega
  · rw [ideal_of_medium hhigh hload, bounded]
    omega

end Threshold

namespace Pass

variable {k : Kernel}

/-- A pass moves the threshold by the rule. -/
theorem toInt_get_threshold (hk : k.runnable < UInt64.size) (r : Registry) :
    (((of k r).apply r).get .cpuPerformanceThreshold).toInt =
      Threshold.ideal (r.get .cpuPerformanceThreshold).toInt k.runnable k.online.card := by
  rw [get_apply_threshold, after_of, Threshold.toInt_adapt_eq_ideal,
    LoadSample.totalRunning_collect, UInt64.toNat_ofNat_of_lt' hk, LoadSample.toNat_onlineCount,
    LoadSample.online_collect]

theorem rebalanced_iff (k : Kernel) (r : Registry) : (of k r).rebalanced = true ↔
    (∃ c, k.Overloaded c) ∧ r.get .policyOptimizationEnabled ≠ 0 := by
  rw [rebalanced_of, sample_of]
  exact and_congr_left fun _ => exists_congr fun c => LoadSample.mem_overloaded_collect

/-- A pass that triggers a rebalance does not take the threshold down. -/
theorem before_le_of_rebalanced (hk : k.runnable < UInt64.size) {r : Registry}
    (hhi : (r.get .cpuPerformanceThreshold).toInt ≤ 95) (hp : (of k r).rebalanced = true) :
    r.get .cpuPerformanceThreshold ≤ ((of k r).apply r).get .cpuPerformanceThreshold := by
  obtain ⟨⟨c, hc⟩, -⟩ := (rebalanced_iff k r).1 hp
  have hlt := hc.two_mul_lt
  rw [Int32.le_iff_toInt_le, toInt_get_threshold hk]
  exact Threshold.le_ideal (by omega) hhi

/-- More tasks than can be shared out without overload take the threshold up by a step. -/
theorem toInt_get_threshold_of_high (hk : k.runnable < UInt64.size) {r : Registry}
    (hlo : 50 ≤ (r.get .cpuPerformanceThreshold).toInt) (hn : 2 ≤ k.online.card)
    (hload : 2 * k.online.card * k.online.card < k.runnable) :
    (((of k r).apply r).get .cpuPerformanceThreshold).toInt =
      min 95 ((r.get .cpuPerformanceThreshold).toInt + 5) := by
  -- with two CPUs or more, the square is above the limit of a high load
  have hsquare : 2 * 2 * k.online.card ≤ 2 * k.online.card * k.online.card :=
    Nat.mul_le_mul_right k.online.card (Nat.mul_le_mul_left 2 hn)
  rw [toInt_get_threshold hk, Threshold.ideal_of_high (by omega), Threshold.bounded]
  omega

/-- **A rebalance never goes with a lower threshold, and a high load goes with both a rebalance
and a higher threshold.**  With `n` CPUs, a sample that has an overloaded CPU has more than `2n`
tasks in all, and one that has more than `2n²` tasks has an overloaded CPU.  So a pass that
triggers a rebalance leaves the threshold or takes it up.  With more than `2n²` tasks and
rebalancing enabled a pass makes all other CPUs reschedule and counts that, and from two CPUs on
it takes the threshold up by a step, as far as the range goes.  Each pass that a step of a
controller completes is of this kind. -/
theorem overload_agrees (hk : k.runnable < UInt64.size) :
    let n := k.online.card
    let overloaded := (LoadSample.collect k).overloaded
    (overloaded.isEmpty = false → 2 * n < k.runnable) ∧
      (2 * n * n < k.runnable → overloaded.isEmpty = false) ∧
      (∀ r : Registry,
        let p := of k r
        let before := r.get .cpuPerformanceThreshold
        let after := (p.apply r).get .cpuPerformanceThreshold
        50 ≤ before.toInt → before.toInt ≤ 95 →
          (p.rebalanced = true → before ≤ after) ∧
            (2 * n * n < k.runnable → r.get .policyOptimizationEnabled ≠ 0 →
              p.rebalanced = true ∧ p.kicked = k.online.others k.thisCpu ∧
                (p.apply r).get .nrRebalance = r.get .nrRebalance + 1 ∧
                (2 ≤ n → after.toInt = min 95 (before.toInt + 5)))) ∧
      ∀ (s : System) (id : ControllerId) (st : Step) (p : Pass), st.kernel = k →
        s.pass? id st = some p →
          let r := (s.controller id).registry
          p = of k r ∧ ((s.act st).system.controller id).registry = p.apply r ∧
            (s.act st).kicked = p.kicked := by
  intro n overloaded
  have hover : overloaded.isEmpty = false ↔ ∃ c, k.Overloaded c :=
    k.isEmpty_overloaded_eq_false_iff
  refine ⟨?_, fun h => hover.2 (Kernel.exists_overloaded h), ?_, ?_⟩
  · intro h
    obtain ⟨c, hc⟩ := hover.1 h
    exact hc.two_mul_lt
  · intro r p before after hlo hhi
    refine ⟨before_le_of_rebalanced hk hhi, fun hload henabled => ?_⟩
    have hp : p.rebalanced = true :=
      (rebalanced_iff k r).2 ⟨Kernel.exists_overloaded hload, henabled⟩
    refine ⟨hp, ?_, ?_, fun hn => toInt_get_threshold_of_high hk hlo hn hload⟩
    · rw [kicked_of, if_pos hp]
    · rw [get_apply_nrRebalance, if_pos hp]
  · rintro s id st p rfl hp
    obtain ⟨hpass, hregistry⟩ := System.effect_of_pass? hp
    exact ⟨hpass, hregistry, System.kicked_of_pass? hp⟩

/-- Nine tasks on two CPUs are one more than both can have without overload.  A forced pass makes
the other CPU reschedule, and the threshold stops at the upper end of the range. -/
theorem overload_agrees_two :
    let k : Kernel :=
      { online := .ofList [3, 5], thisCpu := 5
        load := fun c => { running := if c = 3 then 5 else 4 } }
    let s : System :=
      ({} : System).setRegistry 0 (Registry.defaults.put .cpuPerformanceThreshold 93)
    let x := s.act ⟨k, 0, .force⟩
    2 * k.online.card * k.online.card < k.runnable ∧ x.kicked = [3] ∧
      ((x.system.controller 0).registry.get .cpuPerformanceThreshold).toInt = 95 ∧
      (x.system.controller 0).registry.get .nrRebalance = 1 := by
  intro k s x
  have hload : k.runnable = 9 ∧ k.online.card = 2 ∧ k.online.others k.thisCpu = [3] := by
    decide +kernel
  obtain ⟨hrun, hcard, hothers⟩ := hload
  have hk : k.runnable < UInt64.size := by
    rw [hrun]
    decide
  have hmany : 2 * k.online.card * k.online.card < k.runnable := by
    rw [hrun, hcard]
    decide
  let r := (s.controller 0).registry
  have hr : (r.get .cpuPerformanceThreshold).toInt = 93 ∧ r.get .policyOptimizationEnabled = 1 ∧
      r.get .nrRebalance = 0 := by
    decide +kernel
  obtain ⟨hthreshold, henabled, hcount⟩ := hr
  obtain ⟨-, -, hpasses, hsteps⟩ := overload_agrees hk
  obtain ⟨-, hregistry, hkicked⟩ := hsteps s 0 ⟨k, 0, .force⟩ (.of k r) rfl rfl
  obtain ⟨-, hhigh⟩ := hpasses r (by rw [hthreshold]; decide) (by rw [hthreshold]; decide)
  obtain ⟨-, hsent, hcounted, hraised⟩ := hhigh hmany (by rw [henabled]; decide)
  refine ⟨hmany, ?_, ?_, ?_⟩
  · rw [hkicked, hsent, hothers]
  · rw [hregistry, hraised (by rw [hcard]), hthreshold]
    decide
  · rw [hregistry, hcounted, hcount]
    rfl

end Pass
end CpuSteward
