import CpuSteward.Proofs.Step
import Mathlib.Control.Monad.Basic

/-!
# Values stay in their ranges

Four ways lead to a new value of a tunable: a checked write from outside, a store from
within, the defaults, and the adaptation in a pass.  Each keeps every declared range,
the recorded load never gets negative, and as long as no one outside sets the
threshold it stays a multiple of its step.

## Main definitions

* `Registry.Sound` — every value is in its range.
* `Registry.Aligned` — the threshold is a multiple of its step.

## Main results

* `Registry.Sound.change`, `Registry.Aligned.change` — one step keeps both.
* `System.sound_run`, `System.aligned_run` — so does a run.
* `System.ranges_of_loaded` — **the ranges in every state of a loaded control plane.**
-/

namespace CpuSteward

namespace Registry

variable {r r' : Registry} {t : Tunable} {v : Int32} {id : ControllerId} {w : Option Assignment}

/-- Every value is in its range, and the recorded load is not negative. -/
structure Sound (r : Registry) : Prop where
  range : ∀ t : Tunable, t.spec.accepts (r.get t) = true
  load : 0 ≤ (r.get .lastTotalLoad).toInt

/-- The threshold is a multiple of its step. -/
def Aligned (r : Registry) : Prop := 5 ∣ (r.get .cpuPerformanceThreshold).toInt

theorem sound_defaults : defaults.Sound where
  range t := by
    rw [get_defaults]
    exact t.accepts_default
  load := by
    rw [get_defaults]
    decide

theorem aligned_defaults : defaults.Aligned := by
  unfold Aligned
  rw [get_defaults]
  decide

/-- An update keeps the ranges if the new value is in its own. -/
theorem Sound.put (hr : r.Sound) (hv : t.spec.accepts v = true)
    (hl : t = .lastTotalLoad → 0 ≤ v.toInt) : (r.put t v).Sound where
  range u := by
    rw [get_put]
    by_cases h : u = t
    · rw [if_pos h, h]
      exact hv
    · rw [if_neg h]
      exact hr.range u
  load := by
    rw [get_put]
    by_cases h : Tunable.lastTotalLoad = t
    · rw [if_pos h]
      exact hl h.symm
    · rw [if_neg h]
      exact hr.load

/-- A store clamps, so only the sign of the recorded load is left to look at. -/
theorem Sound.store (hr : r.Sound) (hl : t ≠ .lastTotalLoad) : (r.store t v).Sound :=
  hr.put (t.spec.accepts_clamp v) fun h => absurd h hl

theorem Sound.pass (hr : r.Sound) (k : Kernel) : ((Pass.of k r).apply r).Sound where
  range t := by
    by_cases h₁ : t = .nrRebalance
    · subst h₁
      rfl
    by_cases h₂ : t = .cpuPerformanceThreshold
    · subst h₂
      rw [Pass.get_apply_threshold]
      exact Pass.accepts_after k r
    by_cases h₃ : t = .lastTotalLoad
    · subst h₃
      rfl
    rw [Pass.get_apply_of_ne _ _ h₁ h₂ h₃]
    exact hr.range t
  load := by
    rw [Pass.get_apply_lastTotalLoad]
    exact Pass.recordedLoad_nonneg _

theorem Sound.size (hr : r.Sound) (z : Sizing) : (r.size z).Sound :=
  (hr.store (by decide)).store (by decide)

theorem Sound.internal (hr : r.Sound) (h : r.Internal r') : r'.Sound := by
  cases h with
  | keep => exact hr
  | pass k => exact hr.pass k
  | size _ => exact hr.size _
  | enable enabled => exact hr.store (by decide)
  | reset => exact sound_defaults

/-- A step keeps the ranges. -/
theorem Sound.change (hr : r.Sound) (h : r.Change id w r') : r'.Sound := by
  cases h with
  | outside ha hv =>
    refine hr.put hv fun h => ?_
    -- the recorded load is closed to writes from outside
    subst h
    cases ha
  | inside _ h => exact hr.internal h

/-- The threshold of a tier is a multiple of the step, within the range. -/
theorem get_size_threshold (r : Registry) (z : Sizing) :
    (r.size z).get .cpuPerformanceThreshold =
      Tunable.cpuPerformanceThreshold.spec.clamp z.threshold := by
  rw [get_size, if_neg (by decide), if_pos rfl]

theorem aligned_of_get_eq (hr : r.Aligned)
    (h : r'.get .cpuPerformanceThreshold = r.get .cpuPerformanceThreshold) : r'.Aligned := by
  unfold Aligned
  rw [h]
  exact hr

/-- A threshold in range moves by a whole step or stops at an end of the range, and both
ends are multiples of the step. -/
theorem Aligned.pass (hr : r.Aligned) (hs : r.Sound) (k : Kernel) :
    ((Pass.of k r).apply r).Aligned := by
  have hrange := Bounds.accepts_iff.1 (hs.range .cpuPerformanceThreshold)
  have hlo := Int32.le_iff_toInt_le.1 hrange.1
  have hhi := Int32.le_iff_toInt_le.1 hrange.2
  have hl : Threshold.lower.toInt = 50 := by decide
  have hu : Threshold.upper.toInt = 95 := by decide
  unfold Aligned at hr ⊢
  rw [Pass.get_apply_threshold, Pass.after_of, Threshold.toInt_adapt]
  simp only [hl, hu] at hlo hhi
  split
  · omega
  · split <;> omega

theorem aligned_size (r : Registry) {z : Sizing} (h : z ∈ Sizing.tiers) : (r.size z).Aligned := by
  unfold Aligned
  rw [get_size_threshold]
  revert z
  decide

theorem Aligned.internal (hr : r.Aligned) (hs : r.Sound) (h : r.Internal r') : r'.Aligned := by
  cases h with
  | keep => exact hr
  | pass k => exact hr.pass hs k
  | size hz => exact r.aligned_size hz
  | enable enabled => exact aligned_of_get_eq hr (get_put_of_ne _ _ (by decide))
  | reset => exact aligned_defaults

/-- A step keeps the threshold aligned unless it sets it from outside. -/
theorem Aligned.change (hr : r.Aligned) (hs : r.Sound) (h : r.Change id w r')
    (hw : ∀ v, w ≠ some ⟨id, .cpuPerformanceThreshold, v⟩) : r'.Aligned := by
  cases h with
  | outside ha hv =>
    refine aligned_of_get_eq hr (get_put_of_ne _ _ fun h => ?_)
    subst h
    exact hw _ rfl
  | inside _ h => exact hr.internal hs h

/-- The declared range of a tunable. -/
theorem Sound.toInt_mem (hr : r.Sound) {b : Bounds} (hb : t.spec.bounds = some b) :
    b.lo.toInt ≤ (r.get t).toInt ∧ (r.get t).toInt ≤ b.hi.toInt := by
  have h := hr.range t
  rw [TunableSpec.accepts_of_bounds hb, Bounds.accepts_iff] at h
  exact ⟨Int32.le_iff_toInt_le.1 h.1, Int32.le_iff_toInt_le.1 h.2⟩

end Registry

namespace System

variable {s : System} {k : Kernel} {id : ControllerId}

/-- A controller that was just loaded has seen the defaults, a sizing and a pass. -/
theorem registry_load (h : (s.load k).result = .ok id) :
    ∃ z ∈ Sizing.tiers, ((s.load k).system.controller id).registry =
      (Pass.of k (Registry.defaults.size z)).apply (Registry.defaults.size z) :=
  ⟨_, Sizing.forOnline_mem _, registry_of_load h⟩

theorem sound_load (h : (s.load k).result = .ok id) :
    ((s.load k).system.controller id).registry.Sound := by
  obtain ⟨z, -, hr⟩ := registry_load h
  rw [hr]
  exact (Registry.sound_defaults.size z).pass k

theorem aligned_load (h : (s.load k).result = .ok id) :
    ((s.load k).system.controller id).registry.Aligned := by
  obtain ⟨z, hz, hr⟩ := registry_load h
  rw [hr]
  exact (Registry.defaults.aligned_size hz).pass (Registry.sound_defaults.size z) k

/-- A run keeps the ranges. -/
theorem sound_run (hs : (s.controller id).registry.Sound) {steps : List Step}
    (hc : ∀ st ∈ steps, st.action.checked = true) :
    ((s.run steps).controller id).registry.Sound := by
  refine run_invariant (P := fun s => (s.controller id).registry.Sound) ?_ hc hs
  intro s st hst h
  exact h.change (registry_act id hst)

/-- A run in which no one outside sets the threshold keeps it aligned. -/
theorem aligned_run (hs : (s.controller id).registry.Sound)
    (ha : (s.controller id).registry.Aligned) {steps : List Step}
    (hc : ∀ st ∈ steps, st.action.checked = true)
    (hw : ∀ v, (⟨id, .cpuPerformanceThreshold, v⟩ : Assignment) ∉ s.writes steps) :
    ((s.run steps).controller id).registry.Aligned := by
  induction steps generalizing s with
  | nil => exact ha
  | cons st sts ih =>
    obtain ⟨hst, hsts⟩ := List.forall_mem_cons.1 hc
    have hchange := registry_act (s := s) id hst
    refine ih (hs.change hchange) (ha.change hs hchange fun v hv => hw v ?_) hsts
      fun v hv => hw v ?_
    · unfold writes
      rw [gather_cons, hv]
      exact List.mem_append_left _ (List.mem_singleton_self _)
    · unfold writes
      rw [gather_cons]
      exact List.mem_append_right _ hv

/-- **The ranges in every state of a loaded control plane.**  Every state of a run is
the end of a run, so this holds all the way.  The kernel states and their clock
readings are arbitrary. -/
theorem ranges_of_loaded (h : (s.load k).result = .ok id) {steps : List Step}
    (hc : ∀ st ∈ steps, st.action.checked = true) :
    let r := (((s.load k).system.run steps).controller id).registry
    (50 ≤ (r.get .cpuPerformanceThreshold).toInt ∧
        (r.get .cpuPerformanceThreshold).toInt ≤ 95) ∧
      (0 ≤ (r.get .loadBalanceInterval).toInt ∧ (r.get .loadBalanceInterval).toInt ≤ 60000) ∧
      (1 ≤ (r.get .policyTickMs).toInt ∧ (r.get .policyTickMs).toInt ≤ 60000) ∧
      (r.get .policyOptimizationEnabled = 0 ∨ r.get .policyOptimizationEnabled = 1) ∧
      0 ≤ (r.get .lastTotalLoad).toInt ∧
      ((∀ v, (⟨id, .cpuPerformanceThreshold, v⟩ : Assignment) ∉ (s.load k).system.writes steps) →
        5 ∣ (r.get .cpuPerformanceThreshold).toInt) := by
  intro r
  have hs : r.Sound := sound_run (sound_load h) hc
  have henabled := hs.toInt_mem (t := .policyOptimizationEnabled) rfl
  refine ⟨hs.toInt_mem (t := .cpuPerformanceThreshold) rfl,
    hs.toInt_mem (t := .loadBalanceInterval) rfl, hs.toInt_mem (t := .policyTickMs) rfl, ?_,
    hs.load, fun hw => aligned_run (sound_load h) (aligned_load h) hc hw⟩
  have h0 : (0 : Int32).toInt = 0 := by decide
  have h1 : (1 : Int32).toInt = 1 := by decide
  rw [h0, h1] at henabled
  rcases Int.lt_or_le 0 (r.get .policyOptimizationEnabled).toInt with hpos | hle
  · exact Or.inr (Int32.toInt_inj.1 (by omega))
  · exact Or.inl (Int32.toInt_inj.1 (by omega))

/-- Eight CPUs with a high load: a write of the threshold that is refused, a write of
the interval through a file, and a tick at the greatest clock reading. -/
theorem ranges_of_loaded_high :
    let k : Kernel := { online := .first 8, load := fun _ => { running := 20 } }
    let steps : List Step := [
      ⟨{ k with now := 5 }, 1, .setValue .cpuPerformanceThreshold 96⟩,
      ⟨k, 1, .write "/hmbird_sched/policy/load_balance_interval" "0".toUTF8⟩,
      ⟨{ k with now := Gate.never }, 1, .tick⟩,
      ⟨k, 1, .enable false⟩,
      ⟨k, 1, .notify (.online 3)⟩]
    (({} : System).load k).system.writes steps = [⟨1, .loadBalanceInterval, 0⟩] ∧
      5 ∣ ((((({} : System).load k).system.run steps).controller 1).registry.get
        .cpuPerformanceThreshold).toInt := by
  intro k steps
  have hrun : (({} : System).load k).result = .ok 1 ∧
      (({} : System).load k).system.writes steps = [⟨1, .loadBalanceInterval, 0⟩] := by
    decide +kernel
  obtain ⟨hload, hw⟩ := hrun
  have hc : ∀ st ∈ steps, st.action.checked = true := by simp [steps, Action.checked]
  refine ⟨hw, (ranges_of_loaded hload hc).2.2.2.2.2 fun v hv => ?_⟩
  rw [hw] at hv
  simp at hv

end System
end CpuSteward
