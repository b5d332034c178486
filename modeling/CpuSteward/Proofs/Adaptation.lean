import CpuSteward.Proofs.Step

/-!
# Adaptation of the threshold

One pass takes the threshold up, down or nowhere, by the load it sees, and back into the
range.  In unbounded arithmetic this is a plain rule, `Threshold.ideal`: the words are wide
enough, or saturate where the rule clamps anyway.

The rule keeps the order of two thresholds and never takes them apart, and so do passes in
a row.  Two load monitors that are paced alike and see the same loads therefore come closer
or keep their distance, whatever thresholds they start from.  Under high load only, the
threshold climbs by a step with each pass until it is at the upper end, and under low load
it goes down in the same way.

## Main definitions

* `Threshold.ideal` — one step in unbounded arithmetic.
* `Threshold.adaptAll` — the steps of loads in a row.
* `Controller.call`, `Controller.calls` — what a load monitor is asked for, once and in a row.
* `Controller.Abreast` — two monitors that are paced alike, with thresholds in order and not
  far apart.

## Main results

* `Threshold.ideal_mono`, `Threshold.ideal_sub_le` — the rule keeps order and distance.
* `Controller.Abreast.calls` — so do two monitors in a run.
* `Threshold.adaptation_stable` — **adaptation follows the rule and is stable.**
-/

namespace CpuSteward

namespace Threshold

variable {c c' : Int} {load load' online online' : Nat} {loads : List (UInt64 × UInt64)}

/-- The number itself between the two ends of the range, else the nearer end. -/
def bounded (n : Int) : Int := max 50 (min n 95)

/-- One step of the threshold in unbounded arithmetic. -/
def ideal (current : Int) (load online : Nat) : Int :=
  if 3 * online < load then bounded (current + 5)
  else if load < online then bounded (current - 5)
  else bounded current

theorem toInt_adapt_eq_ideal (current : Int32) (load online : UInt64) :
    (adapt current load online).toInt = ideal current.toInt load.toNat online.toNat :=
  toInt_adapt current load online

/-! ### One step -/

theorem bounded_mono (h : c ≤ c') : bounded c ≤ bounded c' := by
  unfold bounded
  omega

/-- The way to the range does not take two numbers apart. -/
theorem bounded_sub_le (h : c ≤ c') : bounded c' - bounded c ≤ c' - c := by
  unfold bounded
  omega

theorem ideal_of_high (h : 3 * online < load) : ideal c load online = bounded (c + 5) := by
  rw [ideal, if_pos h]

theorem ideal_of_low (h : load < online) : ideal c load online = bounded (c - 5) := by
  rw [ideal, if_neg (by omega), if_pos h]

theorem ideal_of_medium (hhigh : load ≤ 3 * online) (hlow : online ≤ load) :
    ideal c load online = bounded c := by
  rw [ideal, if_neg (by omega), if_neg (by omega)]

/-- A higher threshold stays higher, more so under more load and with fewer CPUs. -/
theorem ideal_mono (hc : c ≤ c') (hload : load ≤ load') (honline : online' ≤ online) :
    ideal c load online ≤ ideal c' load' online' := by
  rcases Nat.lt_or_ge (3 * online) load with hhigh | hhigh
  · have hhigh' : 3 * online' < load' := by omega
    rw [ideal_of_high hhigh, ideal_of_high hhigh']
    exact bounded_mono (by omega)
  · rcases Nat.lt_or_ge load online with hlow | hlow
    · -- the lower threshold goes down, so whatever the higher one does is no less
      rw [ideal_of_low hlow]
      unfold ideal
      split
      · exact bounded_mono (by omega)
      · split <;> exact bounded_mono (by omega)
    · -- the lower one stays, and what the higher one sees is no low load
      rw [ideal_of_medium hhigh hlow]
      unfold ideal
      split
      · exact bounded_mono (by omega)
      · rw [if_neg (by omega)]
        exact bounded_mono hc

/-- One step under one load does not take two thresholds apart. -/
theorem ideal_sub_le (hc : c ≤ c') (load online : Nat) :
    ideal c' load online - ideal c load online ≤ c' - c := by
  unfold ideal
  split
  · have := bounded_sub_le (show c + 5 ≤ c' + 5 by omega)
    omega
  · split
    · have := bounded_sub_le (show c - 5 ≤ c' - 5 by omega)
      omega
    · exact bounded_sub_le hc

/-- The distance of two thresholds, whichever is higher, does not grow. -/
theorem natAbs_ideal_sub_le (c c' : Int) (load online : Nat) :
    (ideal c load online - ideal c' load online).natAbs ≤ (c - c').natAbs := by
  rcases Int.le_total c c' with h | h
  · have hmono := ideal_mono h (Nat.le_refl load) (Nat.le_refl online)
    have hsub := ideal_sub_le h load online
    omega
  · have hmono := ideal_mono h (Nat.le_refl load) (Nat.le_refl online)
    have hsub := ideal_sub_le h load online
    omega

/-! ### Steps in a row -/

/-- The threshold after passes that saw the given loads and numbers of CPUs. -/
def adaptAll (current : Int32) : List (UInt64 × UInt64) → Int32
  | [] => current
  | (load, online) :: loads => adaptAll (adapt current load online) loads

@[simp] theorem adaptAll_nil (current : Int32) : adaptAll current [] = current := rfl

theorem adaptAll_cons (current : Int32) (l : UInt64 × UInt64) (loads : List (UInt64 × UInt64)) :
    adaptAll current (l :: loads) = adaptAll (adapt current l.1 l.2) loads := rfl

/-- Passes in a row keep the order of two thresholds and do not take them apart. -/
theorem adaptAll_stable {c c' : Int32} (h : c.toInt ≤ c'.toInt) (loads : List (UInt64 × UInt64)) :
    (adaptAll c loads).toInt ≤ (adaptAll c' loads).toInt ∧
      (adaptAll c' loads).toInt - (adaptAll c loads).toInt ≤ c'.toInt - c.toInt := by
  induction loads generalizing c c' with
  | nil => exact ⟨h, Int.le_refl _⟩
  | cons l loads ih =>
    have hmono := ideal_mono h (Nat.le_refl l.1.toNat) (Nat.le_refl l.2.toNat)
    have hsub := ideal_sub_le h l.1.toNat l.2.toNat
    rw [← toInt_adapt_eq_ideal, ← toInt_adapt_eq_ideal] at hmono hsub
    obtain ⟨hle, hnear⟩ := ih hmono
    exact ⟨hle, Int.le_trans hnear hsub⟩

/-- Under high load the threshold climbs by a step with each pass, up to the upper end. -/
theorem toInt_adaptAll_of_high {c : Int32} (hlo : 50 ≤ c.toInt) (hhi : c.toInt ≤ 95)
    (h : ∀ l ∈ loads, 3 * l.2.toNat < l.1.toNat) :
    (adaptAll c loads).toInt = min 95 (c.toInt + 5 * loads.length) := by
  induction loads generalizing c with
  | nil =>
    rw [adaptAll_nil, List.length_nil]
    omega
  | cons l loads ih =>
    obtain ⟨hl, hloads⟩ := List.forall_mem_cons.1 h
    have hstep : (adapt c l.1 l.2).toInt = min 95 (c.toInt + 5) := by
      rw [toInt_adapt_eq_ideal, ideal_of_high hl, bounded]
      omega
    rw [adaptAll_cons, ih (by omega) (by omega) hloads, hstep, List.length_cons]
    omega

/-- Under low load the threshold goes down by a step with each pass, down to the lower end. -/
theorem toInt_adaptAll_of_low {c : Int32} (hlo : 50 ≤ c.toInt) (hhi : c.toInt ≤ 95)
    (h : ∀ l ∈ loads, l.1.toNat < l.2.toNat) :
    (adaptAll c loads).toInt = max 50 (c.toInt - 5 * loads.length) := by
  induction loads generalizing c with
  | nil =>
    rw [adaptAll_nil, List.length_nil]
    omega
  | cons l loads ih =>
    obtain ⟨hl, hloads⟩ := List.forall_mem_cons.1 h
    have hstep : (adapt c l.1 l.2).toInt = max 50 (c.toInt - 5) := by
      rw [toInt_adapt_eq_ideal, ideal_of_low hl, bounded]
      omega
    rw [adaptAll_cons, ih (by omega) (by omega) hloads, hstep, List.length_cons]
    omega

end Threshold

/-- What a load monitor is asked for at a kernel state. -/
structure MonitorCall where
  kernel : Kernel
  /-- Whether the pass is forced, or left to the gate. -/
  forced : Bool

namespace Controller

variable {c c' : Controller} {d : Int}

/-- The performance threshold as it stands now. -/
def threshold (c : Controller) : Int32 := c.registry.get .cpuPerformanceThreshold

/-- The controller after one call of its load monitor. -/
def call (c : Controller) (x : MonitorCall) : Controller :=
  if x.forced then (c.force x.kernel).2 else (c.event x.kernel).2

/-- The controller after calls of its load monitor in a row. -/
def calls (c : Controller) : List MonitorCall → Controller
  | [] => c
  | x :: xs => (c.call x).calls xs

/-- A pass adapts the threshold to the load it sees. -/
theorem threshold_force (c : Controller) (k : Kernel) :
    (c.force k).2.threshold = Threshold.adapt c.threshold (LoadSample.collect k).totalRunning
      (LoadSample.collect k).onlineCount := by
  rw [threshold, registry_force, Pass.get_apply_threshold, Pass.after_of]
  rfl

/-- A pass leaves the interval alone. -/
theorem intervalMs_force (c : Controller) (k : Kernel) :
    (c.force k).2.intervalMs = c.intervalMs := by
  rw [intervalMs, registry_force,
    Pass.get_apply_of_ne _ _ (by decide) (by decide) (by decide)]
  rfl

/-- Two monitors are paced alike, and the threshold of the second is at most `d` above that of
the first. -/
structure Abreast (c c' : Controller) (d : Int) : Prop where
  gate : c'.gate = c.gate
  interval : c'.intervalMs = c.intervalMs
  le : c.threshold.toInt ≤ c'.threshold.toInt
  near : c'.threshold.toInt - c.threshold.toInt ≤ d

theorem Abreast.force (h : c.Abreast c' d) (k : Kernel) :
    (c.force k).2.Abreast (c'.force k).2 d where
  gate := by rw [gate_force, gate_force]
  interval := by rw [intervalMs_force, intervalMs_force, h.interval]
  le := by
    rw [threshold_force, threshold_force, Threshold.toInt_adapt_eq_ideal,
      Threshold.toInt_adapt_eq_ideal]
    exact Threshold.ideal_mono h.le (Nat.le_refl _) (Nat.le_refl _)
  near := by
    rw [threshold_force, threshold_force, Threshold.toInt_adapt_eq_ideal,
      Threshold.toInt_adapt_eq_ideal]
    exact Int.le_trans (Threshold.ideal_sub_le h.le _ _) h.near

/-- An event leads both monitors to a pass, or neither. -/
theorem Abreast.event (h : c.Abreast c' d) (k : Kernel) :
    (c.event k).2.Abreast (c'.event k).2 d := by
  have hadmits : c'.gate.admits c'.intervalMs k.now = c.gate.admits c.intervalMs k.now := by
    rw [h.gate, h.interval]
  rcases event_cases c k with ⟨ha, he⟩ | ⟨ha, he⟩
  · rw [he, event_of_admits (hadmits.trans ha)]
    exact h.force k
  · rw [he, event_of_not_admits (hadmits.trans ha)]
    exact h

theorem Abreast.call (h : c.Abreast c' d) (x : MonitorCall) : (c.call x).Abreast (c'.call x) d := by
  unfold Controller.call
  split
  · exact h.force x.kernel
  · exact h.event x.kernel

/-- Two monitors that are asked for the same stay abreast. -/
theorem Abreast.calls (h : c.Abreast c' d) (xs : List MonitorCall) :
    (c.calls xs).Abreast (c'.calls xs) d := by
  induction xs generalizing c c' with
  | nil => exact h
  | cons x xs ih => exact ih (h.call x)

end Controller

namespace Threshold

/-- **Adaptation follows the rule and is stable.**  In unbounded arithmetic one step is the
ideal one, for all words.  It keeps the order of thresholds, goes up with the load and down
with the number of CPUs, and never takes two thresholds apart; neither do passes under the
same loads in a row, nor two load monitors that are paced alike in a run of events and
forced passes.  Under high load `k` passes take a threshold in the range up by `k` steps, and
under low load down by `k` steps, as far as the range goes. -/
theorem adaptation_stable :
    (∀ (c : Int32) (load online : UInt64),
        (adapt c load online).toInt = ideal c.toInt load.toNat online.toNat) ∧
      (∀ c c' load load' online online', c ≤ c' → load ≤ load' → online' ≤ online →
        adapt c load online ≤ adapt c' load' online') ∧
      (∀ c c' load online, ((adapt c load online).toInt - (adapt c' load online).toInt).natAbs ≤
        (c.toInt - c'.toInt).natAbs) ∧
      (∀ (loads : List (UInt64 × UInt64)) (c c' : Int32), c ≤ c' →
        adaptAll c loads ≤ adaptAll c' loads ∧
          (adaptAll c' loads).toInt - (adaptAll c loads).toInt ≤ c'.toInt - c.toInt) ∧
      (∀ (xs : List MonitorCall) (c c' : Controller), c'.gate = c.gate →
        c'.intervalMs = c.intervalMs → c.threshold ≤ c'.threshold →
        (c.calls xs).threshold ≤ (c'.calls xs).threshold ∧
          (c'.calls xs).threshold.toInt - (c.calls xs).threshold.toInt ≤
            c'.threshold.toInt - c.threshold.toInt) ∧
      ∀ (loads : List (UInt64 × UInt64)) (c : Int32), 50 ≤ c.toInt → c.toInt ≤ 95 →
        ((∀ l ∈ loads, 3 * l.2.toNat < l.1.toNat) →
          (adaptAll c loads).toInt = min 95 (c.toInt + 5 * loads.length)) ∧
        ((∀ l ∈ loads, l.1.toNat < l.2.toNat) →
          (adaptAll c loads).toInt = max 50 (c.toInt - 5 * loads.length)) := by
  refine ⟨toInt_adapt_eq_ideal, ?_, ?_, ?_, ?_, ?_⟩
  · intro c c' load load' online online' hc hload honline
    rw [Int32.le_iff_toInt_le, toInt_adapt_eq_ideal, toInt_adapt_eq_ideal]
    exact ideal_mono (Int32.le_iff_toInt_le.1 hc) (UInt64.le_iff_toNat_le.1 hload)
      (UInt64.le_iff_toNat_le.1 honline)
  · intro c c' load online
    rw [toInt_adapt_eq_ideal, toInt_adapt_eq_ideal]
    exact natAbs_ideal_sub_le _ _ _ _
  · intro loads c c' hc
    rw [Int32.le_iff_toInt_le]
    exact adaptAll_stable (Int32.le_iff_toInt_le.1 hc) loads
  · intro xs c c' hgate hinterval hc
    have habreast : c.Abreast c' (c'.threshold.toInt - c.threshold.toInt) :=
      ⟨hgate, hinterval, Int32.le_iff_toInt_le.1 hc, Int.le_refl _⟩
    have hrun := habreast.calls xs
    exact ⟨Int32.le_iff_toInt_le.2 hrun.le, hrun.near⟩
  · intro loads c hlo hhi
    exact ⟨toInt_adaptAll_of_high hlo hhi, toInt_adaptAll_of_low hlo hhi⟩

/-- Two monitors start 13 apart.  The second of three calls comes too soon for both, and the
upper end of the range stops the one that is ahead, so they end 5 apart. -/
theorem adaptation_stable_three :
    let atMs (ms : Nat) : Kernel :=
      { now := .ofNat (ms * 1000000), online := .ofList [0, 1], load := fun _ => { running := 4 } }
    let xs : List MonitorCall := [⟨atMs 0, false⟩, ⟨atMs 50, false⟩, ⟨atMs 60, true⟩]
    let c : Controller := {}
    let c' : Controller := { registry := Registry.defaults.put .cpuPerformanceThreshold 93 }
    (c.threshold = 80 ∧ c'.threshold = 93) ∧
      ((c.calls xs).threshold = 90 ∧ (c'.calls xs).threshold = 95) ∧
      ((c.calls xs).threshold ≤ (c'.calls xs).threshold ∧
        (c'.calls xs).threshold.toInt - (c.calls xs).threshold.toInt ≤
          c'.threshold.toInt - c.threshold.toInt) ∧
      (adaptAll 83 [(7, 2), (1, 0), (40, 13)]).toInt = min 95 (83 + 5 * 3) := by
  intro atMs xs c c'
  obtain ⟨-, -, -, -, hmonitors, hrange⟩ := adaptation_stable
  have hstart : c.threshold = 80 ∧ c'.threshold = 93 := by decide +kernel
  have hend : (c.calls xs).threshold = 90 ∧ (c'.calls xs).threshold = 95 := by decide +kernel
  have hhigh : ∀ l ∈ [((7 : UInt64), (2 : UInt64)), (1, 0), (40, 13)],
      3 * l.2.toNat < l.1.toNat := by
    simp
  exact ⟨hstart, hend, hmonitors xs c c' rfl (by decide +kernel) (by decide +kernel),
    (hrange [(7, 2), (1, 0), (40, 13)] 83 (by decide) (by decide)).1 hhigh⟩

end Threshold
end CpuSteward
