import CpuSteward.Proofs.RateLimit

/-!
# One event in full

An event comes too soon, and then nothing happens at all, or it leads to a pass.  What the pass
sees, decides, sends and stores is said here in terms of the kernel alone, with the tasks
counted in natural numbers.  A pass compares each CPU with the number of those that are online,
makes the others reschedule in order, and touches three tunables; which CPU runs it, and whether
that one is online itself, makes no other difference.

The reading of a pass stays with the gate until the next pass, so a further event at this
reading comes too soon.  The reading that stands for "never" is the one exception: a pass there
is forgotten at once, and the gate lets the next event through whatever the clock reads.

## Main definitions

* `Kernel.runnable`, `Kernel.Overloaded` — the load of the CPUs that are online.
* `Pass.Exact` — what a pass saw, decided, sent and stored.

## Main results

* `Pass.exact_of` — every pass is exact.
* `System.event_exact` — **an event does nothing, or all that belongs to an exact pass.**
* `System.pass_remembered` — **what the gate keeps of a pass.**
-/

namespace CpuSteward

namespace Kernel

/-- The runnable tasks of all CPUs that are online. -/
def runnable (k : Kernel) : Nat :=
  k.online.toList.foldr (fun c n => (k.load c).running.toNat + n) 0

/-- A CPU is online and runs more than two tasks for every CPU that is. -/
def Overloaded (k : Kernel) (c : Nat) : Prop :=
  c ∈ k.online ∧ 2 * k.online.toList.length < (k.load c).running.toNat

end Kernel

namespace LoadSample

variable {k : Kernel}

theorem onlineCount_collect (k : Kernel) :
    (collect k).onlineCount = .ofNat k.online.toList.length := by
  rw [onlineCount, online_collect, CpuMask.card_eq_length]

theorem sumOf_collect (k : Kernel) : (collect k).sumOf CpuLoad.running = k.runnable := by
  rw [sumOf, Kernel.runnable, online_collect]
  -- all members of the list are online, where the sample has the counters of the kernel
  have key : ∀ l : List Nat, (∀ c ∈ l, c ∈ k.online) →
      l.foldr (fun c n => ((collect k).cpu c).running.toNat + n) 0 =
        l.foldr (fun c n => (k.load c).running.toNat + n) 0 := by
    intro l
    induction l with
    | nil => intro _; rfl
    | cons c l ih =>
      intro h
      obtain ⟨hc, hl⟩ := List.forall_mem_cons.1 h
      rw [List.foldr_cons, List.foldr_cons, ih hl, cpu_collect_of_mem hc]
  exact key _ fun c => CpuMask.mem_toList.1

theorem totalRunning_collect (k : Kernel) : (collect k).totalRunning = .ofNat k.runnable := by
  rw [totalRunning, sumOf_collect]

theorem mem_overloaded_collect {c : Nat} : c ∈ (collect k).overloaded ↔ k.Overloaded c := by
  rw [mem_overloaded, online_collect, Kernel.Overloaded, and_congr_right_iff]
  intro hc
  rw [UInt64.lt_iff_toNat_lt, toNat_overloadLimit, online_collect, CpuMask.card_eq_length,
    cpu_collect_of_mem hc]

end LoadSample

namespace Pass

variable {k : Kernel} {r : Registry}

/-- The pass `p` is all that the kernel state `k` and the registry `r` lead to: it makes the
CPUs `sent` reschedule, one by one, and leaves the registry `r'`. -/
structure Exact (p : Pass) (k : Kernel) (r r' : Registry) (sent : List Nat) : Prop where
  timestamp : p.sample.timestamp = k.now
  online : p.sample.onlineCount.toNat = k.online.toList.length
  load : p.sample.totalRunning.toNat = k.runnable
  overloaded : ∀ c, c ∈ p.sample.overloaded ↔ k.Overloaded c
  rebalanced : p.rebalanced = true ↔
    (∃ c, c ∈ p.sample.overloaded) ∧ r.get .policyOptimizationEnabled ≠ 0
  mem_sent : ∀ c, c ∈ sent ↔ p.rebalanced = true ∧ c ∈ k.online ∧ c ≠ k.thisCpu
  /-- No CPU has to reschedule twice. -/
  ascending : sent.Pairwise (· < ·)
  /-- The report lists what was sent. -/
  kicked : p.kicked = sent
  before : p.before = r.get .cpuPerformanceThreshold
  after : p.after = Threshold.adapt p.before (.ofNat k.runnable) (.ofNat k.online.toList.length)
  get_threshold : r'.get .cpuPerformanceThreshold = p.after
  /-- The count wraps past the greatest word. -/
  get_nrRebalance : r'.get .nrRebalance =
    if p.rebalanced then r.get .nrRebalance + 1 else r.get .nrRebalance
  toInt_lastTotalLoad : (r'.get .lastTotalLoad).toInt = min (k.runnable : Int) 0x7FFFFFFF
  get_of_ne : ∀ t : Tunable, t ≠ .nrRebalance → t ≠ .cpuPerformanceThreshold →
    t ≠ .lastTotalLoad → r'.get t = r.get t

/-- Every pass is exact, as long as the runnable tasks can be counted in a word. -/
theorem exact_of (hk : k.runnable < UInt64.size) (r : Registry) :
    (of k r).Exact k r ((of k r).apply r) (of k r).kicked where
  timestamp := by rw [sample_of, LoadSample.timestamp_collect]
  online := by
    rw [sample_of, LoadSample.toNat_onlineCount, LoadSample.online_collect, CpuMask.card_eq_length]
  load := by
    rw [sample_of, LoadSample.totalRunning_collect, UInt64.toNat_ofNat_of_lt' hk]
  overloaded _ := LoadSample.mem_overloaded_collect
  rebalanced := rebalanced_of k r
  mem_sent _ := mem_kicked_of
  ascending := pairwise_kicked_of k r
  kicked := rfl
  before := before_of k r
  after := by
    rw [after_of, before_of, LoadSample.totalRunning_collect, LoadSample.onlineCount_collect]
  get_threshold := get_apply_threshold k r
  get_nrRebalance := get_apply_nrRebalance _ r
  toInt_lastTotalLoad := by
    rw [get_apply_lastTotalLoad, toInt_recordedLoad, sample_of, LoadSample.totalRunning_collect,
      UInt64.toNat_ofNat_of_lt' hk]
  get_of_ne _ := get_apply_of_ne _ r

end Pass

namespace System

variable {s : System} {k : Kernel} {id : ControllerId} {e : CpuEvent} {p : Pass} {st : Step}

/-! ### What an event does -/

theorem setController_self (s : System) (id : ControllerId) :
    s.setController id (s.controller id) = s := by
  unfold setController
  congr 1
  funext i
  split
  · rename_i h
    rw [h]
  · rfl

/-- An event comes too soon and does nothing, or leads to the pass of its controller. -/
theorem event_cases (s : System) (k : Kernel) (id : ControllerId) (e : CpuEvent) :
    let c := s.controller id
    (c.gate.admits c.intervalMs k.now = false ∧ (s.event k id e).result = .throttled ∧
        (s.event k id e).system = s ∧ (s.event k id e).kicked = []) ∨
      (c.gate.admits c.intervalMs k.now = true ∧
        (s.event k id e).result = .completed (.of k c.registry) ∧
        (s.event k id e).system = s.setController id
          { c with registry := (Pass.of k c.registry).apply c.registry, gate := .passed k.now } ∧
        (s.event k id e).kicked = (Pass.of k c.registry).kicked) := by
  intro c
  unfold event
  rcases Controller.event_cases (s.controller id) k with ⟨ha, he⟩ | ⟨ha, he⟩
  · refine Or.inr ⟨ha, ?_, ?_, ?_⟩ <;> rw [he] <;> rfl
  · refine Or.inl ⟨ha, ?_, ?_, ?_⟩ <;> rw [he]
    · exact s.setController_self id
    · rfl

/-- **An event does nothing, or all that belongs to an exact pass.**  It does nothing if and
only if the interval since the latest pass is not over; what it is about makes no difference. -/
theorem event_exact (hk : k.runnable < UInt64.size) (s : System) (id : ControllerId)
    (e : CpuEvent) :
    let c := s.controller id
    let x := s.event k id e
    (x.result = .throttled ↔ ∃ last, c.gate.last = some last ∧
        k.now.toNat - last.toNat < c.intervalMs.toInt.toNat * 1000000) ∧
      (x.result = .throttled → x.system = s ∧ x.kicked = []) ∧
      ∀ p, x.result = .completed p →
        let r' := (x.system.controller id).registry
        p.Exact k c.registry r' x.kicked ∧
          x.system = s.setController id { c with registry := r', gate := .passed k.now } := by
  intro c x
  have hlate : c.gate.admits c.intervalMs k.now = false ↔ ∃ last, c.gate.last = some last ∧
      k.now.toNat - last.toNat < c.intervalMs.toInt.toNat * 1000000 := Gate.not_admits_iff
  rw [← hlate]
  rcases s.event_cases k id e with ⟨ha, hr, hs, hkick⟩ | ⟨ha, hr, hs, hkick⟩
  · refine ⟨iff_of_true hr ha, fun _ => ⟨hs, hkick⟩, fun p hp => ?_⟩
    rw [hr] at hp
    cases hp
  · have hne : x.result ≠ .throttled := by
      rw [hr]
      exact Outcome.noConfusion
    refine ⟨iff_of_false hne (by rw [ha]; exact Bool.noConfusion), fun h => absurd h hne,
      fun p hp => ?_⟩
    rw [hr] at hp
    cases hp
    intro r'
    have hr' : r' = (Pass.of k c.registry).apply c.registry := by
      show (x.system.controller id).registry = _
      rw [hs, controller_setController, if_pos rfl]
    rw [hr', hs, hkick]
    exact ⟨Pass.exact_of hk c.registry, rfl⟩

/-- One of three CPUs is overloaded, and it is the one that looks: the others have to
reschedule, and the counter of a CPU that is offline is not looked at. -/
theorem event_exact_overloaded :
    let k : Kernel :=
      { now := 7, online := .ofList [31, 0, 2], thisCpu := 2,
        load := fun c => { running := if c = 1 then 1000 else if c = 2 then 10 else 0 } }
    let x := ({} : System).event k 0 .tick
    let r' := (x.system.controller 0).registry
    k.runnable = 10 ∧
      ∃ p, x.result = .completed p ∧ p.Exact k .defaults r' x.kicked ∧ x.kicked = [0, 31] ∧
        p.before = 80 ∧ r'.get .cpuPerformanceThreshold = 85 := by
  intro k x r'
  have hrun : k.runnable = 10 := by decide +kernel
  have hx : x.result = .completed (.of k .defaults) ∧ x.kicked = [0, 31] ∧
      (Pass.of k .defaults).before = 80 ∧ r'.get .cpuPerformanceThreshold = 85 := by
    decide +kernel
  obtain ⟨hr, hkick, hbefore, hafter⟩ := hx
  have hk : k.runnable < UInt64.size := by
    rw [hrun]
    decide
  exact ⟨hrun, _, hr, ((event_exact hk {} 0 .tick).2.2 _ hr).1, hkick, hbefore, hafter⟩

/-! ### What the gate keeps of a pass -/

/-- A step that completes a pass leaves the gate after a pass at its reading. -/
theorem gate_of_pass? (hp : s.pass? id st = some p) :
    ((s.act st).system.controller id).gate = .passed st.now := by
  have hpaced := s.paced_act id st
  rw [hp] at hpaced
  exact hpaced.gate_eq

/-- Steps that complete no pass leave the gate alone. -/
theorem gate_of_no_pass {steps : List Step} (h : s.passes id steps = []) :
    ((s.run steps).controller id).gate = (s.controller id).gate := by
  induction steps generalizing s with
  | nil => rfl
  | cons st sts ih =>
    unfold passes at h
    rw [gather_cons, List.append_eq_nil_iff] at h
    obtain ⟨hst, hsts⟩ := h
    have hpaced := s.paced_act id st
    rw [Option.toList_eq_nil_iff.1 hst] at hpaced
    exact (ih hsts).trans hpaced.gate_eq_of_none

/-- **What the gate keeps of a pass.**  Until the next pass it keeps the reading, so a further
event at this reading comes too soon if there is an interval to wait for.  That is so for every
reading but the one that stands for "never": a pass there leaves no trace, and the next event
leads to a pass whatever the clock reads and the interval is. -/
theorem pass_remembered (hp : s.pass? id st = some p) :
    p.sample.timestamp = st.now ∧
      ∀ between, (s.act st).system.passes id between = [] →
        let after := (s.act st).system.run between
        (st.now ≠ Gate.never →
            (after.controller id).gate.last = some p.sample.timestamp ∧
              ∀ k e, k.now = st.now → 0 < (after.controller id).intervalMs.toInt →
                (after.event k id e).result = .throttled) ∧
          (st.now = Gate.never →
            (after.controller id).gate.last = none ∧
              ∀ k e, ∃ q, (after.event k id e).result = .completed q) := by
  have ht := timestamp_of_pass? hp
  refine ⟨ht, fun between hb => ?_⟩
  intro after
  have hg : (after.controller id).gate = .passed st.now :=
    (gate_of_no_pass hb).trans (gate_of_pass? hp)
  constructor
  · intro hn
    have hl : (after.controller id).gate.last = some st.now := by
      rw [hg, Gate.last_passed_of_ne hn]
    refine ⟨hl.trans (congrArg some ht.symm), fun k e hk hpos => ?_⟩
    rcases after.event_cases k id e with ⟨-, hr, -⟩ | ⟨ha, -⟩
    · exact hr
    · -- the interval is over at once only if it is not positive
      have hwait := Gate.admits_iff.1 ha _ hl
      rw [hk, nanosPerMilli] at hwait
      omega
  · intro hn
    have hl : (after.controller id).gate.last = none := by
      rw [hg, hn]
      rfl
    refine ⟨hl, fun k e => ?_⟩
    rcases after.event_cases k id e with ⟨ha, -⟩ | ⟨-, hr, -⟩
    · rw [Gate.not_admits_iff, hl] at ha
      obtain ⟨_, h, -⟩ := ha
      cases h
    · exact ⟨_, hr⟩

/-- An event and a forced pass at the reading next to "never", each followed by writes that
keep the interval positive. -/
theorem pass_remembered_greatest :
    let k : Kernel := { now := Gate.never - 1, online := .first 2 }
    let between : List Step := [
      ⟨k, 0, .setValue .loadBalanceInterval 1⟩,
      ⟨{ k with now := 0 }, 0, .enable false⟩]
    ∀ a ∈ [Action.event .tick, .force],
      let after := (({} : System).act ⟨k, 0, a⟩).system.run between
      (after.controller 0).gate.last = some k.now ∧
        (after.event k 0 (.online 1)).result = .throttled := by
  intro k between a ha after
  have hrun : ∀ a ∈ [Action.event .tick, .force],
      ({} : System).pass? 0 ⟨k, 0, a⟩ = some (.of k .defaults) ∧
        (({} : System).act ⟨k, 0, a⟩).system.passes 0 between = [] ∧
        (((({} : System).act ⟨k, 0, a⟩).system.run between).controller 0).intervalMs = 1 := by
    decide +kernel
  have hn : k.now ≠ Gate.never := by decide
  obtain ⟨hp, hb, hms⟩ := hrun a ha
  obtain ⟨hl, hlate⟩ := ((pass_remembered hp).2 between hb).1 hn
  exact ⟨hl, hlate k (.online 1) rfl (by rw [hms]; decide)⟩

/-- At the reading that stands for "never" a pass is forgotten: the gate keeps nothing, and
the next event at this very reading leads to a pass again, within an interval of 100 ms. -/
theorem pass_forgotten :
    let k : Kernel := { now := Gate.never, online := .first 2 }
    let first := ({} : System).event k 0 .tick
    let second := first.system.event k 0 .tick
    first.result.pass?.map (·.sample.timestamp) = some Gate.never ∧
      (first.system.controller 0).gate.last = none ∧
      (first.system.controller 0).intervalMs = 100 ∧ second.result ≠ .throttled := by
  decide +kernel

end System
end CpuSteward
