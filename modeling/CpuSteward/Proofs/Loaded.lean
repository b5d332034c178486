import CpuSteward.Proofs.Ledger
import CpuSteward.Proofs.Overload
import CpuSteward.Proofs.SavedGovernors

/-!
# The state right after loading

To load a control plane is to register it, to set its starting values for the CPUs that are
online, and to run a first pass with them.  The gate of a new controller has no latest pass, so
nothing can keep the first one from running.  What is found afterwards is therefore a function
of the kernel state alone: no trace of the other controllers, or of what the tree held before.

## Main definitions

* `Sizing.startThreshold`, `Sizing.startInterval` — the starting values as numbers.
* `Controller.Started` — what a kernel state makes of a new controller.

## Main results

* `Sizing.forOnline_ofNat` — the tiers as a case distinction.
* `System.exists_event_of_load`, `System.exact_load` — loading ends with an event that leads to
  an exact pass.
* `System.started_load` — **what loading leaves.**
-/

namespace CpuSteward

namespace Sizing

/-- The threshold that a machine with `n` CPUs online starts from. -/
def startThreshold (n : Nat) : Int32 := if 8 ≤ n then 85 else if 4 ≤ n then 75 else 70

/-- The interval between passes, in milliseconds, that a machine with `n` CPUs online
starts from. -/
def startInterval (n : Nat) : Int32 := if 8 ≤ n then 50 else if 4 ≤ n then 75 else 100

/-- The first tier from the top whose number of CPUs is reached. -/
theorem forOnline_ofNat {n : Nat} (hn : n < UInt64.size) : forOnline (.ofNat n) =
    if 8 ≤ n then ⟨8, 85, 50⟩ else if 4 ≤ n then ⟨4, 75, 75⟩ else small := by
  have hle : ∀ m : UInt64, m ≤ .ofNat n ↔ m.toNat ≤ n := fun m => by
    rw [UInt64.le_iff_toNat_le, UInt64.toNat_ofNat_of_lt' hn]
  have h8 : (8 : UInt64) ≤ .ofNat n ↔ 8 ≤ n := hle 8
  have h4 : (4 : UInt64) ≤ .ofNat n ↔ 4 ≤ n := hle 4
  have h0 : (0 : UInt64) ≤ .ofNat n := UInt64.zero_le
  simp only [forOnline, tiers, small, List.find?_cons, h8, h4, h0]
  by_cases hhigh : 8 ≤ n
  · simp [hhigh]
  · by_cases hmedium : 4 ≤ n <;> simp [hhigh, hmedium]

theorem threshold_forOnline {n : Nat} (hn : n < UInt64.size) :
    (forOnline (.ofNat n)).threshold = startThreshold n := by
  rw [forOnline_ofNat hn, startThreshold]
  split
  · rfl
  · split <;> rfl

theorem intervalMs_forOnline {n : Nat} (hn : n < UInt64.size) :
    (forOnline (.ofNat n)).intervalMs = startInterval n := by
  rw [forOnline_ofNat hn, startInterval]
  split
  · rfl
  · split <;> rfl

/-- A machine starts from a threshold that is well inside the range. -/
theorem toInt_startThreshold_mem (n : Nat) :
    55 ≤ (startThreshold n).toInt ∧ (startThreshold n).toInt ≤ 90 := by
  unfold startThreshold
  split
  · decide
  · split <;> decide

end Sizing

/-- A pass that starts inside the range takes the threshold no further than a step. -/
theorem Threshold.natAbs_adapt_sub_le {c : Int32} (hlo : 50 ≤ c.toInt) (hhi : c.toInt ≤ 95)
    (load online : UInt64) : ((adapt c load online).toInt - c.toInt).natAbs ≤ 5 := by
  rw [toInt_adapt]
  split
  · omega
  · split <;> omega

theorem CpuMask.card_lt_size (m : CpuMask) : m.card < UInt64.size :=
  Nat.lt_of_le_of_lt m.card_le (by decide)

namespace Registry

/-- The defaults with the starting values for the CPUs that are online. -/
def sizedFor (k : Kernel) : Registry := defaults.size (.forOnline (.ofNat k.online.card))

theorem get_sizedFor_threshold (k : Kernel) :
    (sizedFor k).get .cpuPerformanceThreshold = Sizing.startThreshold k.online.card := by
  have hinside : ∀ z ∈ Sizing.tiers,
      Tunable.cpuPerformanceThreshold.spec.clamp z.threshold = z.threshold := by
    decide
  rw [sizedFor, get_size_threshold, hinside _ (Sizing.forOnline_mem _),
    Sizing.threshold_forOnline k.online.card_lt_size]

theorem get_sizedFor_of_ne (k : Kernel) {t : Tunable} (hi : t ≠ .loadBalanceInterval)
    (ht : t ≠ .cpuPerformanceThreshold) : (sizedFor k).get t = t.spec.default := by
  rw [sizedFor, get_size_of_ne _ _ hi ht, get_defaults]

end Registry

/-- What the kernel state `k` makes of a new controller. -/
structure Controller.Started (c : Controller) (k : Kernel) : Prop where
  interval : c.registry.get .loadBalanceInterval = Sizing.startInterval k.online.card
  threshold : c.registry.get .cpuPerformanceThreshold =
    Threshold.adapt (Sizing.startThreshold k.online.card) (.ofNat k.runnable)
      (.ofNat k.online.card)
  threshold_near : ((c.registry.get .cpuPerformanceThreshold).toInt -
    (Sizing.startThreshold k.online.card).toInt).natAbs ≤ 5
  lastTotalLoad : (c.registry.get .lastTotalLoad).toInt = min (k.runnable : Int) (2 ^ 31 - 1)
  nrRebalance_one : (∃ cpu, k.Overloaded cpu) → c.registry.get .nrRebalance = 1
  nrRebalance_zero : (¬∃ cpu, k.Overloaded cpu) → c.registry.get .nrRebalance = 0
  /-- All other tunables have their defaults. -/
  others : ∀ t : Tunable, t ≠ .loadBalanceInterval → t ≠ .cpuPerformanceThreshold →
    t ≠ .lastTotalLoad → t ≠ .nrRebalance → c.registry.get t = t.spec.default
  latest : c.gate.last = some k.now
  deadline : c.timer.deadline = none
  governors : ∀ cpu, c.governors.get? cpu = none

/-- Rebalancing is enabled by default, so the first pass triggers a rebalance as soon as a CPU
is overloaded. -/
theorem Pass.rebalanced_sizedFor (k : Kernel) :
    (Pass.of k (.sizedFor k)).rebalanced = true ↔ ∃ cpu, k.Overloaded cpu := by
  rw [rebalanced_iff, Registry.get_sizedFor_of_ne k (by decide) (by decide)]
  exact and_iff_left (by decide)

namespace System

variable {s : System} {k : Kernel} {id : ControllerId}

/-- Loading ends with an event, for a controller that has its starting values, a gate without a
latest pass and nothing else.  The event leads to a pass and says what is made to reschedule. -/
theorem exists_event_of_load (h : (s.load k).result = .ok id) :
    ∃ sized : System, sized.controller id = (({} : Controller).resize k).2 ∧
      (sized.event k id .tick).result = .completed (.of k (.sizedFor k)) ∧
      (sized.event k id .tick).system = (s.load k).system ∧
      (sized.event k id .tick).kicked = (s.load k).kicked := by
  unfold load at h ⊢
  cases hr : (s.register s.nextController).result with
  | error cause =>
    simp only [hr] at h
    cases h
  | ok u =>
    simp only [hr] at h ⊢
    cases h
    refine ⟨_, ?_, ?_, rfl, rfl⟩
    · simp only [resize, controller_setController, if_true]
    · -- a gate without a latest pass admits one at any clock reading
      have ha : (({} : Controller).resize k).2.gate.admits
          ((({} : Controller).resize k).2.registry.get .loadBalanceInterval) k.now = true := rfl
      simp only [event, resize, controller_setController, if_true]
      rw [Controller.event_of_admits ha]
      rfl

/-- The CPUs that loading makes reschedule are those of its pass. -/
theorem kicked_load (h : (s.load k).result = .ok id) :
    (s.load k).kicked = (Pass.of k (.sizedFor k)).kicked := by
  obtain ⟨sized, -, hresult, -, hkicked⟩ := exists_event_of_load h
  rw [← hkicked]
  exact congrArg Outcome.kicked hresult

/-- The first pass is exact, on the starting values. -/
theorem exact_load (hk : k.runnable < UInt64.size) (h : (s.load k).result = .ok id) :
    (Pass.of k (.sizedFor k)).Exact k (.sizedFor k) ((s.load k).system.controller id).registry
      (s.load k).kicked := by
  have hr : ((s.load k).system.controller id).registry =
      (Pass.of k (.sizedFor k)).apply (.sizedFor k) := registry_of_load h
  rw [hr, kicked_load h]
  exact Pass.exact_of hk (.sizedFor k)

/-- The new controller has counted a rebalance if a CPU is overloaded. -/
theorem get_load_nrRebalance_eq_one_iff (h : (s.load k).result = .ok id) :
    ((s.load k).system.controller id).registry.get .nrRebalance = 1 ↔
      ∃ cpu, k.Overloaded cpu := by
  rw [get_load_nrRebalance h, ← k.isEmpty_overloaded_eq_false_iff]
  cases (LoadSample.collect k).overloaded.isEmpty <;> decide

/-- Loading makes of the new controller what the kernel state does. -/
theorem controller_load_started (hk : k.runnable < UInt64.size) (hnow : k.now < Gate.never)
    (h : (s.load k).result = .ok id) : ((s.load k).system.controller id).Started k := by
  have hexact := exact_load hk h
  have hthreshold : ((s.load k).system.controller id).registry.get .cpuPerformanceThreshold =
      Threshold.adapt (Sizing.startThreshold k.online.card) (.ofNat k.runnable)
        (.ofNat k.online.card) := by
    rw [hexact.get_threshold, hexact.after, hexact.before, Registry.get_sizedFor_threshold,
      CpuMask.card_eq_length]
  constructor
  case interval => rw [get_load_interval h, Sizing.intervalMs_forOnline k.online.card_lt_size]
  case threshold => exact hthreshold
  case threshold_near =>
    obtain ⟨hlo, hhi⟩ := Sizing.toInt_startThreshold_mem k.online.card
    rw [hthreshold]
    exact Threshold.natAbs_adapt_sub_le (by omega) (by omega) _ _
  case lastTotalLoad => exact hexact.toInt_lastTotalLoad
  case nrRebalance_one => exact (get_load_nrRebalance_eq_one_iff h).2
  case nrRebalance_zero =>
    intro hnone
    rw [← k.isEmpty_overloaded_eq_false_iff, Bool.not_eq_false] at hnone
    rw [get_load_nrRebalance h, hnone]
    rfl
  case others => exact fun t hi ht hl hn => get_load_of_ne h hi ht hn hl
  case latest =>
    rw [controller_load h, Controller.gate_force]
    exact Gate.last_passed_of_ne (UInt64.ne_of_lt hnow)
  case deadline =>
    rw [controller_load h, Controller.timer_force]
    rfl
  case governors =>
    rw [controller_load h]
    exact GovernorTable.get?_clear .empty

/-- **What loading leaves.**  As long as the runnable tasks can be counted in a word and the
clock does not read "never", loading runs its first pass, on the starting values for the CPUs
that are online, and what it leaves of the new controller is what the kernel state makes of it.
If a CPU is overloaded then all CPUs that are online, without the one that loads, have to
reschedule, each once; else none has to. -/
theorem started_load (hk : k.runnable < UInt64.size) (hnow : k.now < Gate.never)
    (h : (s.load k).result = .ok id) :
    let loaded := (s.load k).system
    let kicked := (s.load k).kicked
    (∃ (sized : System) (p : Pass), sized.controller id = (({} : Controller).resize k).2 ∧
        (sized.event k id .tick).result = .completed p ∧
        (sized.event k id .tick).system = loaded ∧ (sized.event k id .tick).kicked = kicked) ∧
      (loaded.controller id).Started k ∧ kicked.Pairwise (· < ·) ∧
      ∀ cpu, cpu ∈ kicked ↔ (loaded.controller id).registry.get .nrRebalance = 1 ∧
        cpu ∈ k.online ∧ cpu ≠ k.thisCpu := by
  intro loaded kicked
  have hexact := exact_load hk h
  refine ⟨?_, controller_load_started hk hnow h, hexact.ascending, fun cpu => ?_⟩
  · obtain ⟨sized, hsized, hresult, hsystem, hsent⟩ := exists_event_of_load h
    exact ⟨sized, _, hsized, hresult, hsystem, hsent⟩
  · rw [get_load_nrRebalance_eq_one_iff h, ← Pass.rebalanced_sizedFor]
    exact hexact.mem_sent cpu

/-- Four CPUs are online and the first has nine tasks, one more than it can have without
overload: the threshold starts from 75, and the load of nine leaves it there. -/
theorem started_load_four :
    let k : Kernel :=
      { now := 3, online := .ofList [1, 4, 9, 16], thisCpu := 9
        load := fun c => { running := if c = 1 then 9 else 0 } }
    let loaded := ({} : System).load k
    let c := loaded.system.controller 1
    c.registry.get .loadBalanceInterval = 75 ∧ c.registry.get .cpuPerformanceThreshold = 75 ∧
      c.registry.get .nrRebalance = 1 ∧ c.gate.last = some 3 ∧ loaded.kicked.Pairwise (· < ·) ∧
      4 ∈ loaded.kicked ∧ 9 ∉ loaded.kicked := by
  intro k loaded c
  have hk : k.runnable = 9 ∧ k.online.card = 4 ∧ loaded.result = .ok 1 ∧ 1 ∈ k.online ∧
      4 ∈ k.online := by
    decide +kernel
  obtain ⟨hrun, hcard, hload, h1, h4⟩ := hk
  have hword : k.runnable < UInt64.size := by
    rw [hrun]
    decide
  obtain ⟨-, hc, hascending, hkicked⟩ := started_load hword (by decide) hload
  have hover : k.Overloaded 1 := by
    refine ⟨h1, ?_⟩
    rw [← CpuMask.card_eq_length, hcard]
    decide
  have hone : c.registry.get .nrRebalance = 1 := hc.nrRebalance_one ⟨1, hover⟩
  refine ⟨?_, ?_, hone, hc.latest, hascending, (hkicked 4).2 ⟨hone, h4, by decide⟩, fun h9 => ?_⟩
  · rw [hc.interval, hcard]
    rfl
  · rw [hc.threshold, hcard, hrun]
    decide
  · exact ((hkicked 9).1 h9).2.2 rfl

end System
end CpuSteward
