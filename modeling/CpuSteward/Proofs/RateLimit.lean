import CpuSteward.Proofs.Step

/-!
# The rate limit over whole runs

The gate keeps a single moment, yet it answers for the whole history of a controller:
that moment is the reading of the latest pass, whatever led to it, however the
interval was changed since, and also if the clock went back.  Where the clock never
goes back and the interval stays, the passes that events lead to are an interval
apart, so not many of them fit into a stretch of time.

## Main definitions

* `Gate.Clear` — when an event may lead to a pass, said of the passes so far.
* `Gate.Follows` — the gate keeps the reading of the latest pass.
* `System.latest?`, `System.eventPasses` — the latest pass, and those that events led to.

## Main results

* `System.follows_run` — the gate follows the passes of every run.
* `System.last_of_run` — with a clock that never goes back the gate never does.
* `System.rate_limit` — **events are limited by the history, and by it alone.**
-/

namespace CpuSteward

/-- Moments that are at least `d` apart leave room for few of them between `a` and `b`. -/
theorem length_le_of_spaced {d b : Nat} (hd : 0 < d) : ∀ {a : Nat} {l : List Nat},
    l.Pairwise (fun x y => x + d ≤ y) → (∀ x ∈ l, a ≤ x ∧ x ≤ b) →
      l.length ≤ (b - a) / d + 1 := by
  intro a l
  induction l generalizing a with
  | nil => intro _ _; exact Nat.zero_le _
  | cons x l ih =>
    intro hs hb
    obtain ⟨hx, hl⟩ := List.pairwise_cons.1 hs
    have hax := hb x List.mem_cons_self
    cases l with
    | nil => exact Nat.le_add_left _ _
    | cons y l =>
      -- the others are at least `d` later, which leaves them less room
      have hxy := hx y List.mem_cons_self
      have hyb := (hb y (List.mem_cons_of_mem x List.mem_cons_self)).2
      have hrest := ih hl fun z hz => ⟨hx z hz, (hb z (List.mem_cons_of_mem x hz)).2⟩
      have hroom : (b - (x + d)) / d + 1 ≤ (b - a) / d := by
        rw [← Nat.add_div_right _ hd]
        exact Nat.div_le_div_right (by omega)
      rw [List.length_cons]
      omega

namespace Gate

/-- An event at `now` may lead to a pass: there was none before, or there is no interval
to wait for, or the interval since the latest pass is over. -/
def Clear (passes : List Pass) (ms : Int32) (now : UInt64) : Prop :=
  passes = [] ∨ ms.toInt ≤ 0 ∨
    ∃ p ∈ passes.getLast?, (p.sample.timestamp.toNat : Int) + ms.toInt * 1000000 ≤ now.toNat

instance (passes : List Pass) (ms : Int32) (now : UInt64) : Decidable (Clear passes ms now) :=
  inferInstanceAs (Decidable (_ ∨ _ ∨ _))

/-- The gate keeps the reading of the latest pass, unless that is the one that leaves no
trace. -/
def Follows (g : Gate) (latest : Option UInt64) : Prop := g.last = latest.filter (· != never)

theorem follows_passed (now : UInt64) : (passed now).Follows (some now) := by
  unfold Follows passed
  by_cases h : now = never
  · simp [h, Option.filter]
  · simp [h, Option.filter]

/-- A gate that keeps the reading of the latest pass admits what is clear. -/
theorem admits_iff_clear {g : Gate} {passes : List Pass} {ms : Int32} {now : UInt64}
    (hg : g.last = passes.getLast?.map (·.sample.timestamp)) :
    g.admits ms now = true ↔ Clear passes ms now := by
  rw [admits_iff, hg]
  unfold Clear nanosPerMilli
  cases hp : passes.getLast? with
  | none =>
    rw [List.getLast?_eq_none_iff] at hp
    simp [hp]
  | some p =>
    have hne : passes ≠ [] := by
      rintro rfl
      cases hp
    simp only [Option.map_some, Option.some.injEq, forall_eq', hne, false_or, Option.mem_def,
      exists_eq_left']
    omega

end Gate

namespace Controller

variable {c c' : Controller} {now : UInt64} {t latest : Option UInt64}

/-- A pass is completed at the reading of its step. -/
theorem Paced.eq_now {t : UInt64} (h : c.Paced now (some t) c') : t = now := by
  cases h <;> rfl

/-- A step that completes a pass leaves the gate after a pass at its reading. -/
theorem Paced.gate_eq {t : UInt64} (h : c.Paced now (some t) c') : c'.gate = .passed now := by
  cases h with
  | pass hg _ => exact hg
  | beat _ _ hg _ => exact hg

/-- A step that completes no pass leaves the gate alone. -/
theorem Paced.gate_eq_of_none (h : c.Paced now none c') : c'.gate = c.gate := by
  cases h with
  | rest hg _ => exact hg
  | throttle _ _ hg _ => exact hg

theorem Paced.last_eq {t : UInt64} (h : c.Paced now (some t) c') (hn : now ≠ Gate.never) :
    c'.gate.last = some now := by
  rw [h.gate_eq, Gate.last_passed_of_ne hn]

/-- A step keeps the gate at the latest pass. -/
theorem Paced.follows (h : c.Paced now t c') (hf : c.gate.Follows latest) :
    c'.gate.Follows (t.or latest) := by
  cases h with
  | rest hg _ => rwa [hg, Option.none_or]
  | throttle _ _ hg _ => rwa [hg, Option.none_or]
  | pass hg _ =>
    rw [hg]
    exact Gate.follows_passed now
  | beat _ _ hg _ =>
    rw [hg]
    exact Gate.follows_passed now

/-- A step at a reading that is not before `t` leaves the gate at one that is not. -/
theorem Paced.last_le {t : UInt64} {p : Option UInt64} (h : c.Paced now p c') (ht : t ≤ now)
    (hn : now ≠ Gate.never) (hl : ∃ last, c.gate.last = some last ∧ t ≤ last) :
    ∃ last, c'.gate.last = some last ∧ t ≤ last := by
  cases h with
  | rest hg _ => rwa [hg]
  | throttle _ _ hg _ => rwa [hg]
  | pass hg _ =>
    rw [hg]
    exact ⟨now, Gate.last_passed_of_ne hn, ht⟩
  | beat _ _ hg _ =>
    rw [hg]
    exact ⟨now, Gate.last_passed_of_ne hn, ht⟩

end Controller

namespace System

variable {s : System} {id : ControllerId} {st : Step} {steps : List Step} {p : Pass}

/-- The reading of the latest pass of a controller in a run. -/
def latest? (s : System) (id : ControllerId) (steps : List Step) : Option UInt64 :=
  (s.passes id steps).getLast?.map (·.sample.timestamp)

/-- The pass of a controller that a step completes because of an event. -/
def eventPass? (s : System) (id : ControllerId) (st : Step) : Option Pass :=
  match st.action with
  | .event _ => s.pass? id st
  | .notify _ => s.pass? id st
  | .tick => s.pass? id st
  | _ => none

/-- The passes of a controller that events led to in a run. -/
def eventPasses (s : System) (id : ControllerId) (steps : List Step) : List Pass :=
  s.gather (fun s st => s.eventPass? id st) steps

/-! ### The gate follows the passes -/

theorem latest?_cons (s : System) (id : ControllerId) (st : Step) (sts : List Step) :
    s.latest? id (st :: sts) =
      ((s.act st).system.latest? id sts).or ((s.pass? id st).map (·.sample.timestamp)) := by
  unfold latest? passes
  rw [gather_cons, List.getLast?_append, Option.map_or]
  cases s.pass? id st <;> rfl

/-- The gate follows the passes of every run. -/
theorem follows_run {start : Option UInt64} (hf : (s.controller id).gate.Follows start)
    (steps : List Step) :
    ((s.run steps).controller id).gate.Follows ((s.latest? id steps).or start) := by
  induction steps generalizing s start with
  | nil => exact hf
  | cons st sts ih =>
    rw [latest?_cons, Option.or_assoc]
    exact ih ((s.paced_act id st).follows hf)

theorem timestamp_of_pass? (h : s.pass? id st = some p) : p.sample.timestamp = st.now := by
  have hp := s.paced_act id st
  rw [h] at hp
  exact hp.eq_now

/-- The latest pass was at the reading of a step. -/
theorem exists_now_of_latest? {t : UInt64} (h : s.latest? id steps = some t) :
    ∃ st ∈ steps, st.now = t := by
  obtain ⟨p, hp, rfl⟩ := Option.map_eq_some_iff.1 h
  obtain ⟨before, st, after, rfl, hst⟩ := exists_of_mem_gather _ _ (List.mem_of_getLast? hp)
  exact ⟨st, by simp, (timestamp_of_pass? hst).symm⟩

/-- Where no reading is the one that leaves no trace, the gate of a controller that
was fresh keeps the reading of the latest pass. -/
theorem last_eq_latest? (fresh : (s.controller id).gate = {})
    (clock : ∀ st ∈ steps, st.now ≠ Gate.never) :
    ((s.run steps).controller id).gate.last = s.latest? id steps := by
  have hfresh : (s.controller id).gate.Follows none := by
    rw [fresh]
    rfl
  have hf := follows_run hfresh steps
  unfold Gate.Follows at hf
  rw [hf, Option.or_none]
  cases h : s.latest? id steps with
  | none => rfl
  | some t =>
    obtain ⟨st, hst, rfl⟩ := exists_now_of_latest? h
    simp [clock st hst]

/-! ### How far passes are apart -/

/-- With a clock that never goes back the gate never does. -/
theorem last_of_run {t : UInt64} (hl : ∃ last, (s.controller id).gate.last = some last ∧ t ≤ last)
    (clock : ∀ st ∈ steps, t ≤ st.now ∧ st.now ≠ Gate.never) :
    ∃ last, ((s.run steps).controller id).gate.last = some last ∧ t ≤ last := by
  refine run_invariant
    (P := fun s => ∃ last, (s.controller id).gate.last = some last ∧ t ≤ last) ?_ clock hl
  rintro s st ⟨ht, hn⟩ h
  exact (s.paced_act id st).last_le ht hn h

/-- Two passes in a run, the second because of an event, are an interval apart. -/
theorem add_interval_le_of_admits {k : Kernel} {between : List Step} (hp : s.pass? id st = some p)
    (hn : st.now ≠ Gate.never) (hle : st.now ≤ k.now)
    (clock : ∀ st' ∈ between, st.now ≤ st'.now ∧ st'.now ≠ Gate.never)
    (ha : (((s.run (st :: between)).controller id).gate.admits
      ((s.run (st :: between)).controller id).intervalMs k.now) = true) :
    (st.now.toNat : Int) + ((s.run (st :: between)).controller id).intervalMs.toInt * 1000000 ≤
      k.now.toNat := by
  have hafter : ∃ last, ((s.act st).system.controller id).gate.last = some last ∧
      st.now ≤ last := by
    have hpaced := s.paced_act id st
    rw [hp] at hpaced
    exact ⟨_, hpaced.last_eq hn, UInt64.le_refl _⟩
  obtain ⟨last, hl, hlast⟩ := last_of_run hafter clock
  have hwait := Gate.admits_iff.1 ha last hl
  unfold nanosPerMilli at hwait
  rw [UInt64.le_iff_toNat_le] at hle hlast
  omega

/-! ### Passes that events led to -/

theorem pass?_of_eventPass? (h : s.eventPass? id st = some p) : s.pass? id st = some p := by
  unfold eventPass? at h
  split at h
  · exact h
  · exact h
  · exact h
  · cases h

/-- An event leads to a pass only if the gate admits one. -/
theorem admits_of_eventPass? (h : s.eventPass? id st = some p) :
    (s.controller id).gate.admits (s.controller id).intervalMs st.now = true := by
  have hp := pass?_of_eventPass? h
  obtain ⟨k, target, action⟩ := st
  unfold pass? at hp
  by_cases ht : target = id
  · subst ht
    rw [if_pos rfl] at hp
    cases action with
    | event e => exact Controller.admits_of_event hp
    | notify e => exact Controller.admits_of_event hp
    | tick => exact Controller.admits_of_tick hp
    | _ => cases h
  · rw [if_neg ht] at hp
    cases hp

/-- Where the clock never goes back and the interval stays, the passes that events led
to are an interval apart. -/
theorem spaced_eventPasses {ms : Int32} (clock : ∀ st ∈ steps, st.now ≠ Gate.never)
    (mono : (steps.map Step.now).Pairwise (· ≤ ·))
    (hms : ∀ s' ∈ s.states steps, (s'.controller id).intervalMs = ms) :
    (s.eventPasses id steps).Pairwise fun p q =>
      (p.sample.timestamp.toNat : Int) + ms.toInt * 1000000 ≤ q.sample.timestamp.toNat := by
  refine pairwise_gather _ _ fun before st between st' after he p q hp hq => ?_
  subst he
  rw [List.map_append, List.pairwise_append, List.map_cons, List.pairwise_cons] at mono
  obtain ⟨-, ⟨hlater, -⟩, -⟩ := mono
  have hst' : st.now ≤ st'.now := hlater _ (List.mem_map_of_mem (by simp))
  have hpass := pass?_of_eventPass? hp
  have hadmits := admits_of_eventPass? hq
  rw [timestamp_of_pass? hpass, timestamp_of_pass? (pass?_of_eventPass? hq),
    ← hms _ (by
      have hmem := run_mem_states s (before ++ st :: between) (st' :: after)
      rwa [List.append_assoc, List.cons_append] at hmem)]
  rw [run_append] at hadmits ⊢
  refine add_interval_le_of_admits (k := st'.kernel) hpass (clock st (by simp)) hst'
    (fun u hu => ⟨hlater _ (List.mem_map_of_mem ?_), clock u ?_⟩) hadmits
  · simp [hu]
  · simp [hu]

/-- **Events are limited by the history, and by it alone.**  Whatever happened to a
controller whose gate was fresh, and whatever its clock read, an event leads to a pass
if and only if it is clear by the latest pass and the interval as it stands now.  With
a clock that never goes back and an interval that stays, the passes that events led to
between `a` and `b` are at most one more than the intervals that fit in between. -/
theorem rate_limit (fresh : (s.controller id).gate = {})
    (clock : ∀ st ∈ steps, st.now ≠ Gate.never) :
    (∀ (k : Kernel) (e : CpuEvent),
        let clear := Gate.Clear (s.passes id steps) ((s.run steps).controller id).intervalMs k.now
        ((∃ p, ((s.run steps).event k id e).result = .completed p) ↔ clear) ∧
          (((s.run steps).event k id e).result = .throttled ↔ ¬clear)) ∧
      ∀ (ms : Int32) (a b : Nat), 0 < ms.toInt → (steps.map Step.now).Pairwise (· ≤ ·) →
        (∀ s' ∈ s.states steps, (s'.controller id).intervalMs = ms) →
        (s.eventPasses id steps).countP (fun p => a ≤ p.sample.timestamp.toNat &&
          p.sample.timestamp.toNat ≤ b) ≤ (b - a) / (ms.toInt.toNat * 1000000) + 1 := by
  constructor
  · intro k e clear
    have hclear : _ ↔ clear := Gate.admits_iff_clear (last_eq_latest? fresh clock)
    rcases Controller.event_cases ((s.run steps).controller id) k with ⟨ha, he⟩ | ⟨ha, he⟩
    · have hr : ((s.run steps).event k id e).result = .completed _ := congrArg Prod.fst he
      rw [hr]
      simp [hclear.1 ha]
    · have hr : ((s.run steps).event k id e).result = .throttled := congrArg Prod.fst he
      have hn : ¬clear := fun h => by
        rw [hclear.2 h] at ha
        cases ha
      rw [hr]
      simp [hn]
  · intro ms a b hpos mono hms
    rw [List.countP_eq_length_filter, ← List.length_map (·.sample.timestamp.toNat)]
    refine length_le_of_spaced (by omega) ?_ fun x hx => ?_
    · rw [List.pairwise_map]
      refine ((spaced_eventPasses clock mono hms).filter _).imp fun h => ?_
      omega
    · obtain ⟨p, hp, rfl⟩ := List.mem_map.1 hx
      simpa using (List.mem_filter.1 hp).2

/-- With the default interval of 100 ms three of four events within 250 ms lead to
passes, as many as the limit allows, and the next one has to wait for 350 ms. -/
theorem rate_limit_reached :
    let atMs (ms : Nat) : Kernel := { now := .ofNat (ms * 1000000) }
    let steps : List Step := [
      ⟨atMs 0, 0, .event .tick⟩,
      ⟨atMs 50, 0, .event (.online 1)⟩,
      ⟨atMs 100, 0, .notify (.offline 1)⟩,
      ⟨atMs 150, 0, .force⟩,
      ⟨atMs 250, 0, .tick⟩]
    let s : System := {}
    (s.eventPasses 0 steps).length = 3 ∧
      (s.eventPasses 0 steps).countP (fun p => 0 ≤ p.sample.timestamp.toNat &&
        p.sample.timestamp.toNat ≤ 250000000) ≤ 3 ∧
      ((s.run steps).event (atMs 349) 0 .tick).result = .throttled ∧
      ∃ p, ((s.run steps).event (atMs 350) 0 .tick).result = .completed p := by
  intro atMs steps s
  have clock : ∀ st ∈ steps, st.now ≠ Gate.never := by decide
  have mono : (steps.map Step.now).Pairwise (· ≤ ·) := by decide
  have hms : ∀ s' ∈ s.states steps, (s'.controller 0).intervalMs = 100 := by decide +kernel
  have fresh : (s.controller 0).gate = {} := rfl
  obtain ⟨hevent, hcount⟩ := rate_limit fresh clock
  exact ⟨by decide +kernel, hcount 100 0 250000000 (by decide) mono hms,
    (hevent (atMs 349) .tick).2.2 (by decide +kernel),
    (hevent (atMs 350) .tick).1.2 (by decide +kernel)⟩

end System
end CpuSteward
