import CpuSteward.Proofs.Ranges
import CpuSteward.Proofs.RateLimit

/-!
# The policy tick between timer and gate

Two rate limits stand between the hardware tick and a pass: the timer, which lets few
ticks through, and the gate, which throttles some of these.  A tick that is throttled
has used up its period all the same.  The two do not keep missing each other, because
a throttled tick comes within an interval of the latest pass, so its period ends
within an interval and a period of it.  Nor do they let passes come closer than either
of them says.

## Main definitions

* `Controller.DeadlineWithin`, `Controller.DeadlineFrom` — the deadline is not long
  after a moment, and not before one.
* `System.BoundedBy` — bounds on the period and the interval in a run.

## Main results

* `Controller.Paced.deadline_le` — one step keeps the deadline near the latest pass.
* `System.deadline_run` — so does a run with a clock that never goes back.
* `System.deadline_of_run` — the deadline never goes back either.
* `System.tick_pacing` — **ticks lead to passes, neither too late nor too early.**
-/

namespace CpuSteward

/-- What a gate that keeps the latest pass throttles comes within an interval of it. -/
theorem Gate.lt_of_not_admits {g : Gate} {latest now : UInt64} {ms : Int32}
    (hg : g.Follows (some latest)) (ha : g.admits ms now = false) :
    (now.toNat : Int) < latest.toNat + max 0 ms.toInt * 1000000 := by
  obtain ⟨last, hlast, hwait⟩ := not_admits_iff.1 ha
  -- a latest pass that left no trace would let everything through
  unfold Follows at hg
  rw [hg, Option.filter_eq_some_iff] at hlast
  obtain ⟨hlast, -⟩ := hlast
  cases hlast
  unfold nanosPerMilli at hwait
  omega

/-- A gate that keeps the latest pass admits what comes an interval after it. -/
theorem Gate.admits_of_le {g : Gate} {latest now : UInt64} {ms : Int32}
    (hg : g.Follows (some latest))
    (h : (latest.toNat : Int) + max 0 ms.toInt * 1000000 ≤ now.toNat) :
    g.admits ms now = true := by
  rw [← Bool.not_eq_false]
  intro ha
  have := lt_of_not_admits hg ha
  omega

namespace Controller

variable {c c' : Controller} {now latest : UInt64} {t : Option UInt64} {P I : Int}

/-- The deadline, if there is one, is at most `ms` milliseconds after `latest`. -/
def DeadlineWithin (c : Controller) (ms : Int) (latest : UInt64) : Prop :=
  ∀ d, c.timer.deadline = some d → (d.toNat : Int) ≤ latest.toNat + ms * 1000000

/-- There is a deadline, and it is not before `m`. -/
def DeadlineFrom (c : Controller) (m : Nat) : Prop :=
  ∃ d, c.timer.deadline = some d ∧ m ≤ d.toNat

theorem toNat_deadline_rearmed (c : Controller) (now : UInt64) {d : UInt64}
    (h : (c.rearmed now).deadline = some d) :
    (d.toNat : Int) =
      min ((now.toNat : Int) + max c.tickMs.toInt 1 * 1000000) 0xFFFFFFFFFFFFFFFF := by
  cases h
  rw [toNat_satAdd, PolicyTimer.toNat_periodNanos, nanosPerMilli]
  omega

/-- A step that is not before the latest pass keeps the deadline within an interval and
a period of the latest pass. -/
theorem Paced.deadline_le (h : c.Paced now t c') (hg : c.gate.Follows (some latest))
    (hle : latest ≤ now) (hp : 1 ≤ c.tickMs.toInt) (hP : c.tickMs.toInt ≤ P)
    (hi : 0 ≤ c.intervalMs.toInt) (hI : c.intervalMs.toInt ≤ I)
    (hd : c.DeadlineWithin (I + P) latest) : c'.DeadlineWithin (I + P) (t.getD latest) := by
  rw [UInt64.le_iff_toNat_le] at hle
  intro d hd'
  cases h with
  | rest _ ht =>
    rw [ht] at hd'
    exact hd d hd'
  | pass _ ht =>
    rw [ht] at hd'
    have := hd d hd'
    rw [Option.getD_some]
    omega
  | throttle _ ha _ ht =>
    -- the tick came within an interval of the latest pass
    have hlt := Gate.lt_of_not_admits hg ha
    rw [ht] at hd'
    have := c.toNat_deadline_rearmed now hd'
    rw [Option.getD_none]
    omega
  | beat _ _ _ ht =>
    rw [ht] at hd'
    have := c.toNat_deadline_rearmed now hd'
    rw [Option.getD_some]
    omega

/-- A step does not take the deadline back: a tick that is let through comes no earlier
than the deadline, and the next deadline no earlier than the tick. -/
theorem Paced.le_deadline {m : Nat} (h : c.Paced now t c') (hd : c.DeadlineFrom m) :
    c'.DeadlineFrom m := by
  obtain ⟨d, hd, hm⟩ := hd
  have hrearmed (hdue : c.timer.due now = true) (ht : c'.timer = c.rearmed now) :
      c'.DeadlineFrom m := by
    have hnow := PolicyTimer.due_iff.1 hdue d hd
    have := now.toNat_lt
    unfold DeadlineFrom
    rw [ht]
    refine ⟨_, rfl, ?_⟩
    rw [toNat_satAdd]
    omega
  cases h with
  | rest _ ht => exact ⟨d, by rw [ht, hd], hm⟩
  | pass _ ht => exact ⟨d, by rw [ht, hd], hm⟩
  | throttle hdue _ _ ht => exact hrearmed hdue ht
  | beat hdue _ _ ht => exact hrearmed hdue ht

/-- A tick that timer and gate let through leads to a pass. -/
theorem tick_completed {k : Kernel} (hd : c.timer.due k.now = true)
    (ha : c.gate.admits c.intervalMs k.now = true) : ∃ p, (c.tick k).1 = some (.completed p) := by
  rcases tick_cases c k with ⟨hd', -⟩ | ⟨-, ha', -⟩ | ⟨-, -, ht⟩
  · rw [hd] at hd'
    cases hd'
  · rw [ha] at ha'
    cases ha'
  · exact ⟨_, by rw [ht]⟩

/-- An interval and a period after the latest pass neither timer nor gate holds a tick
back. -/
theorem tick_completed_of_le {k : Kernel} (hg : c.gate.Follows (some latest))
    (hd : c.DeadlineWithin (I + P) latest)
    (hp : 1 ≤ c.tickMs.toInt) (hP : c.tickMs.toInt ≤ P) (hi : 0 ≤ c.intervalMs.toInt)
    (hI : c.intervalMs.toInt ≤ I) (hk : (latest.toNat : Int) + (I + P) * 1000000 ≤ k.now.toNat) :
    ∃ p, (c.tick k).1 = some (.completed p) := by
  refine tick_completed (PolicyTimer.due_iff.2 fun d hd' => ?_) (Gate.admits_of_le hg ?_)
  · have := hd d hd'
    omega
  · omega

/-- A tick that the timer lets through was due and rearms the timer. -/
theorem timer_of_tick {k : Kernel} {o : Outcome} (h : (c.tick k).1 = some o) :
    c.timer.due k.now = true ∧ (c.tick k).2.timer = c.rearmed k.now := by
  rcases tick_cases c k with ⟨-, ht⟩ | ⟨hd, -, ht⟩ | ⟨hd, -, ht⟩
  · rw [ht] at h
    cases h
  · exact ⟨hd, by rw [ht]⟩
  · exact ⟨hd, by rw [ht]⟩

end Controller

namespace System

variable {s : System} {id : ControllerId} {steps : List Step} {P I : Int} {latest : UInt64}
variable {k₁ k₂ : Kernel}

/-- Two upper bounds, in milliseconds, on the period and the interval of a controller in
every state of a run. -/
def BoundedBy (s : System) (id : ControllerId) (steps : List Step) (P I : Int) : Prop :=
  ∀ s' ∈ s.states steps,
    (s'.controller id).tickMs.toInt ≤ P ∧ (s'.controller id).intervalMs.toInt ≤ I

instance (s : System) (id : ControllerId) (steps : List Step) (P I : Int) :
    Decidable (s.BoundedBy id steps P I) :=
  inferInstanceAs (Decidable (∀ s' ∈ s.states steps, _))

/-- A run with a clock that never goes back keeps the deadline within an interval and a
period of the latest pass. -/
theorem deadline_run (hs : (s.controller id).registry.Sound)
    (hg : (s.controller id).gate.Follows (some latest))
    (hd : (s.controller id).DeadlineWithin (I + P) latest)
    (hc : ∀ st ∈ steps, st.action.checked = true)
    (mono : (latest :: steps.map Step.now).Pairwise (· ≤ ·)) (hb : s.BoundedBy id steps P I) :
    ((s.run steps).controller id).DeadlineWithin (I + P) ((s.latest? id steps).getD latest) := by
  induction steps generalizing s latest with
  | nil => exact hd
  | cons st sts ih =>
    obtain ⟨hst, hsts⟩ := List.forall_mem_cons.1 hc
    obtain ⟨⟨hP, hI⟩, hbs⟩ := List.forall_mem_cons.1 hb
    rw [List.map_cons, List.pairwise_cons, List.pairwise_cons] at mono
    obtain ⟨hlatest, hnow, hrest⟩ := mono
    have hpaced := s.paced_act id st
    have hp := (hs.toInt_mem (t := .policyTickMs) rfl).1
    have hi := (hs.toInt_mem (t := .loadBalanceInterval) rfl).1
    rw [latest?_cons, Option.getD_or]
    refine ih (hs.change (registry_act id hst)) ?_ ?_ hsts ?_ hbs
    · have hf := hpaced.follows hg
      rwa [Option.or_some] at hf
    · exact hpaced.deadline_le hg (hlatest _ List.mem_cons_self) hp hP hi hI hd
    · -- the latest pass is now that of this step, or still the one before
      rw [List.pairwise_cons]
      refine ⟨fun u hu => ?_, hrest⟩
      cases ht : s.pass? id st with
      | none => exact hlatest u (List.mem_cons_of_mem _ hu)
      | some p =>
        show p.sample.timestamp ≤ u
        rw [timestamp_of_pass? ht]
        exact hnow u hu

/-- From an interval and a period after the latest pass on, a tick leads to a pass. -/
theorem tick_run (hs : (s.controller id).registry.Sound)
    (hg : (s.controller id).gate.Follows (some latest))
    (hc : ∀ st ∈ steps, st.action.checked = true) (hb : s.BoundedBy id steps P I)
    (hd : ((s.run steps).controller id).DeadlineWithin (I + P) ((s.latest? id steps).getD latest))
    {k : Kernel}
    (hk : (((s.latest? id steps).getD latest).toNat : Int) + (I + P) * 1000000 ≤ k.now.toNat) :
    ∃ p, ((s.run steps).tick k id).result = some (.completed p) := by
  obtain ⟨hP, hI⟩ := hb _ (by simpa using run_mem_states s steps [])
  have hsound := sound_run hs hc
  have hp := (hsound.toInt_mem (t := .policyTickMs) rfl).1
  have hi := (hsound.toInt_mem (t := .loadBalanceInterval) rfl).1
  have hf := follows_run hg steps
  rw [Option.or_some] at hf
  exact Controller.tick_completed_of_le hf hd hp hP hi hI hk

/-- A run does not take the deadline back, whatever the clock reads. -/
theorem deadline_of_run {m : Nat} (hd : (s.controller id).DeadlineFrom m) (steps : List Step) :
    ((s.run steps).controller id).DeadlineFrom m := by
  refine run_invariant (P := fun s => (s.controller id).DeadlineFrom m) (K := fun _ => True) ?_
    (fun _ _ => trivial) hd
  intro s st _ h
  exact (s.paced_act id st).le_deadline h

/-! ### Two ticks that are let through -/

theorem controller_act_tick (s : System) (k : Kernel) (id : ControllerId) :
    (s.act ⟨k, id, .tick⟩).system.controller id = ((s.controller id).tick k).2 := by
  show (s.setController id ((s.controller id).tick k).2).controller id = _
  rw [controller_setController, if_pos rfl]

/-- Two ticks that the timer lets through are a period apart, as it was at the first. -/
theorem add_period_le_of_ticks {between : List Step} {o₁ o₂ : Outcome}
    (h₁ : (s.tick k₁ id).result = some o₁)
    (h₂ : ((s.run (⟨k₁, id, .tick⟩ :: between)).tick k₂ id).result = some o₂) :
    min ((k₁.now.toNat : Int) + (s.controller id).tickMs.toInt * 1000000) Gate.never.toNat ≤
      k₂.now.toNat := by
  obtain ⟨-, ht⟩ := Controller.timer_of_tick h₁
  obtain ⟨hdue, -⟩ := Controller.timer_of_tick h₂
  have hstart : ((s.act ⟨k₁, id, .tick⟩).system.controller id).DeadlineFrom
      (satAdd k₁.now (PolicyTimer.periodNanos (s.controller id).tickMs)).toNat := by
    refine ⟨_, ?_, Nat.le_refl _⟩
    rw [controller_act_tick, ht]
    rfl
  obtain ⟨d, hd, hle⟩ := deadline_of_run hstart between
  have hnow := PolicyTimer.due_iff.1 hdue d hd
  have harmed := (s.controller id).toNat_deadline_rearmed k₁.now rfl
  have hnever : Gate.never.toNat = 0xFFFFFFFFFFFFFFFF := rfl
  omega

/-- With a clock that never goes back, two ticks that lead to passes are an interval
apart, as it is at the second. -/
theorem add_interval_le_of_ticks {between : List Step} {p₁ p₂ : Pass} (hn : k₁.now ≠ Gate.never)
    (hle : k₁.now ≤ k₂.now) (clock : ∀ st ∈ between, k₁.now ≤ st.now ∧ st.now ≠ Gate.never)
    (h₁ : (s.tick k₁ id).result = some (.completed p₁))
    (h₂ : ((s.run (⟨k₁, id, .tick⟩ :: between)).tick k₂ id).result = some (.completed p₂)) :
    (k₁.now.toNat : Int) +
        ((s.run (⟨k₁, id, .tick⟩ :: between)).controller id).intervalMs.toInt * 1000000 ≤
      k₂.now.toNat := by
  have hp : s.pass? id ⟨k₁, id, .tick⟩ = some p₁ :=
    (if_pos rfl).trans (congrArg (·.bind Outcome.pass?) h₁)
  exact add_interval_le_of_admits hp hn hle clock
    (Controller.admits_of_tick (congrArg (·.bind Outcome.pass?) h₂))

/-! ### From loading on -/

/-- Loading runs a pass, and leaves its reading with the gate. -/
theorem follows_load {k : Kernel} (h : (s.load k).result = .ok id) :
    ((s.load k).system.controller id).gate.Follows (some k.now) := by
  rw [controller_load h, Controller.gate_force]
  exact Gate.follows_passed k.now

/-- Loading offers no tick to the timer, so there is no deadline yet. -/
theorem deadline_load {k : Kernel} (h : (s.load k).result = .ok id) (ms : Int) (t : UInt64) :
    ((s.load k).system.controller id).DeadlineWithin ms t := by
  rw [controller_load h]
  intro d hd
  rw [Controller.timer_force] at hd
  cases hd

/-- **Ticks lead to passes, neither too late nor too early.**  Loading runs a pass, so
there is always a latest one.  Whatever is done to a controller after it was loaded, as
long as the clock never goes back, the deadline is within an interval and a period of
the latest pass, and from then on a tick leads to a pass.  Two ticks that lead to
passes are as far apart as the period was at the first and the interval is at the
second.  A tick has one clock reading, with which it is offered to the timer and to the
gate (`Controller.tick`). -/
theorem tick_pacing {k₀ : Kernel} (h : (s.load k₀).result = .ok id)
    (hc : ∀ st ∈ steps, st.action.checked = true)
    (mono : (k₀.now :: steps.map Step.now).Pairwise (· ≤ ·)) :
    let loaded := (s.load k₀).system
    (∀ P I : Int, loaded.BoundedBy id steps P I →
        let horizon : Int :=
          ((loaded.latest? id steps).getD k₀.now).toNat + (I + P) * 1000000
        (∀ d, ((loaded.run steps).controller id).timer.deadline = some d →
          (d.toNat : Int) ≤ horizon) ∧
        ∀ k : Kernel, horizon ≤ k.now.toNat →
          ∃ p, ((loaded.run steps).tick k id).result = some (.completed p)) ∧
      ((∀ st ∈ steps, st.now ≠ Gate.never) → ∀ before k₁ between k₂ after p₁ p₂,
        steps = before ++ ⟨k₁, id, .tick⟩ :: (between ++ ⟨k₂, id, .tick⟩ :: after) →
        let s₁ := loaded.run before
        let s₂ := s₁.run (⟨k₁, id, .tick⟩ :: between)
        (s₁.tick k₁ id).result = some (.completed p₁) →
        (s₂.tick k₂ id).result = some (.completed p₂) →
          min ((k₁.now.toNat : Int) + (s₁.controller id).tickMs.toInt * 1000000)
              Gate.never.toNat ≤ k₂.now.toNat ∧
            (k₁.now.toNat : Int) + (s₂.controller id).intervalMs.toInt * 1000000 ≤
              k₂.now.toNat) := by
  intro loaded
  have hs : (loaded.controller id).registry.Sound := sound_load h
  have hg : (loaded.controller id).gate.Follows (some k₀.now) := follows_load h
  constructor
  · intro P I hb horizon
    have hd := deadline_run hs hg (deadline_load h _ _) hc mono hb
    exact ⟨hd, fun k hk => tick_run hs hg hc hb hd hk⟩
  · intro clock before k₁ between k₂ after p₁ p₂ he s₁ s₂ h₁ h₂
    subst he
    rw [List.pairwise_cons, List.map_append, List.pairwise_append, List.map_cons,
      List.pairwise_cons] at mono
    obtain ⟨-, -, ⟨hlater, -⟩, -⟩ := mono
    refine ⟨add_period_le_of_ticks h₁ h₂, add_interval_le_of_ticks (clock ⟨k₁, id, .tick⟩ (by simp))
      (hlater _ (List.mem_map_of_mem (f := Step.now) (a := ⟨k₂, id, .tick⟩) (by simp)))
      (fun u hu => ⟨hlater _ (List.mem_map_of_mem ?_), clock u ?_⟩) h₁ h₂⟩
    · simp [hu]
    · simp [hu]

/-- With the default interval of 100 ms and period of 20 ms a tick at 60 ms is throttled,
yet one at 120 ms leads to a pass, and one at 240 ms is the interval apart from it. -/
theorem tick_pacing_throttled :
    let atMs (ms : Nat) : Kernel := { now := .ofNat (ms * 1000000) }
    let early : List Step := [⟨atMs 60, 1, .tick⟩]
    let late : List Step := [⟨atMs 60, 1, .tick⟩, ⟨atMs 120, 1, .tick⟩]
    ((({} : System).load (atMs 0)).system.tick (atMs 60) 1).result = some .throttled ∧
      ∃ p₁ p₂,
        (((({} : System).load (atMs 0)).system.run early).tick (atMs 120) 1).result =
          some (.completed p₁) ∧
        (((({} : System).load (atMs 0)).system.run late).tick (atMs 240) 1).result =
          some (.completed p₂) ∧
        ((atMs 120).now.toNat : Int) +
            (((({} : System).load (atMs 0)).system.run late).controller 1).intervalMs.toInt *
              1000000 ≤ (atMs 240).now.toNat := by
  intro atMs early late
  have hrun : (({} : System).load (atMs 0)).result = .ok 1 ∧
      ((({} : System).load (atMs 0)).system.tick (atMs 60) 1).result = some .throttled ∧
      (({} : System).load (atMs 0)).system.BoundedBy 1 early 20 100 ∧
      (({} : System).load (atMs 0)).system.BoundedBy 1 late 20 100 ∧
      (({} : System).load (atMs 0)).system.latest? 1 early = none ∧
      (({} : System).load (atMs 0)).system.latest? 1 late = some 120000000 := by
    decide +kernel
  obtain ⟨hload, hthrottled, hb₁, hb₂, hl₁, hl₂⟩ := hrun
  let steps : List Step := late ++ [⟨atMs 240, 1, .tick⟩]
  have hc : ∀ st ∈ steps, st.action.checked = true := by simp [steps, late, Action.checked]
  have mono : ((atMs 0).now :: steps.map Step.now).Pairwise (· ≤ ·) := by decide
  have hc₁ : ∀ st ∈ early, st.action.checked = true := by simp [early, Action.checked]
  have hc₂ : ∀ st ∈ late, st.action.checked = true := by simp [late, Action.checked]
  have hearly := tick_pacing hload hc₁ (by decide)
  have hlate := tick_pacing hload hc₂ (by decide)
  have hall := tick_pacing hload hc mono
  obtain ⟨p₁, h₁⟩ := (hearly.1 20 100 hb₁).2 (atMs 120) (by rw [hl₁]; decide)
  obtain ⟨p₂, h₂⟩ := (hlate.1 20 100 hb₂).2 (atMs 240) (by rw [hl₂]; decide)
  have hsplit : (({} : System).load (atMs 0)).system.run late =
      ((({} : System).load (atMs 0)).system.run early).run [⟨atMs 120, 1, .tick⟩] :=
    run_append _ early [⟨atMs 120, 1, .tick⟩]
  refine ⟨hthrottled, p₁, p₂, h₁, h₂, ?_⟩
  rw [hsplit] at h₂ ⊢
  exact (hall.2 (by decide) early (atMs 120) [] (atMs 240) [] p₁ p₂ rfl h₁ h₂).2

end System
end CpuSteward
