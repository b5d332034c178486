import CpuSteward.Proofs.Step
import Mathlib.Control.Monad.Basic

/-!
# The ledger of a run

Most tunables belong to whoever writes them from outside, and two more are shared with
the control plane, which switches rebalancing and sets the interval.  All that is put
down for them in a run can be listed, and each of them holds the latest value of its
list, or the one it started with.  Passes put nothing down; what they leave behind is
the count of rebalances, which is the number of passes that triggered one, as a word.

## Main definitions

* `Action.booked` — the actions that a ledger accounts for.
* `Assignment.latest?` — the value that a list puts down last for a tunable.
* `System.settings` — all that is put down in a run.
* `System.broadcasts` — the passes of a run that trigger a rebalance.

## Main results

* `Registry.Effect.get_eq`, `Registry.Effect.get_nrRebalance` — one step is booked.
* `System.get_run`, `System.get_nrRebalance_run` — so is a run.
* `System.ledger` — **what a loaded control plane holds is what was put down in it.**
-/

namespace CpuSteward

/-- Whether a ledger accounts for an action: it does not overwrite values from within as
it likes. -/
def Action.booked : Action → Bool
  | put _ _ => false
  | reset => false
  | _ => true

/-- What a step puts down on behalf of the control plane. -/
def Step.own? (st : Step) : Option Assignment :=
  match st.action with
  | .resize =>
    some ⟨st.target, .loadBalanceInterval,
      (Sizing.forOnline (.ofNat st.kernel.online.card)).intervalMs⟩
  | .enable enabled =>
    some ⟨st.target, .policyOptimizationEnabled, if enabled then 1 else 0⟩
  | _ => none

theorem Step.own?_of_not_stores {st : Step} (h : st.action.stores = false) : st.own? = none := by
  obtain ⟨k, target, action⟩ := st
  cases action with
  | resize => cases h
  | enable enabled => cases h
  | _ => rfl

theorem Step.owner_of_own? {st : Step} {a : Assignment} (h : st.own? = some a) :
    a.owner = st.target := by
  unfold own? at h
  split at h <;> cases h <;> rfl

theorem Step.tunable_of_own? {st : Step} {a : Assignment} (h : st.own? = some a) :
    a.tunable = .loadBalanceInterval ∨ a.tunable = .policyOptimizationEnabled := by
  unfold own? at h
  split at h
  · cases h
    exact Or.inl rfl
  · cases h
    exact Or.inr rfl
  · cases h

namespace Assignment

variable {id : ControllerId} {t : Tunable}

/-- The value that a list puts down last for a tunable of a controller. -/
def latest? (id : ControllerId) (t : Tunable) (l : List Assignment) : Option Int32 :=
  (l.filter fun a => a.owner = id ∧ a.tunable = t).getLast?.map Assignment.value

theorem latest?_append (l l' : List Assignment) :
    latest? id t (l ++ l') = (latest? id t l').or (latest? id t l) := by
  simp only [latest?, List.filter_append, List.getLast?_append, Option.map_or]

/-- What is put down for other controllers or tunables does not count. -/
theorem latest?_of_forall {l : List Assignment}
    (h : ∀ a ∈ l, ¬(a.owner = id ∧ a.tunable = t)) : latest? id t l = none := by
  unfold latest?
  rw [List.filter_eq_nil_iff.2 fun a ha => by simpa using h a ha]
  rfl

theorem latest?_singleton (u : Tunable) (v : Int32) :
    latest? id t [⟨id, u, v⟩] = if t = u then some v else none := by
  by_cases h : t = u
  · subst h
    simp [latest?]
  · rw [if_neg h]
    refine latest?_of_forall fun a ha => ?_
    cases List.mem_singleton.1 ha
    exact fun hu => h hu.2.symm

end Assignment

namespace Registry

variable {r r' : Registry} {id : ControllerId} {st : Step} {w : Option Assignment}
  {p : Option Pass} {t : Tunable}

open Assignment (latest?)

/-- The interval of a tier is in its range, so sizing sets it as it is. -/
theorem get_size_interval (r : Registry) {z : Sizing} (h : z ∈ Sizing.tiers) :
    (r.size z).get .loadBalanceInterval = z.intervalMs := by
  rw [get_size, if_pos rfl]
  revert z
  decide

/-- Both positions of the switch are in its range. -/
theorem get_store_enabled (r : Registry) (enabled : Bool) :
    (r.store .policyOptimizationEnabled (if enabled then 1 else 0)).get
      .policyOptimizationEnabled = if enabled then 1 else 0 := by
  rw [get_store, if_pos rfl]
  cases enabled <;> decide

/-- A pass leaves alone what is open to writes from outside, the threshold apart. -/
theorem get_apply_of_open (q : Pass) (r : Registry) (ha : t.spec.access = .readWrite)
    (ht : t ≠ .cpuPerformanceThreshold) : (q.apply r).get t = r.get t := by
  refine q.get_apply_of_ne r ?_ ht ?_
  · rintro rfl
    cases ha
  · rintro rfl
    cases ha

/-- After a booked step a tunable that is open to writes from outside, the threshold apart,
holds what the step put down for it, or what it held before. -/
theorem Effect.get_eq (h : r.Effect id st w p r') (hb : st.action.booked = true)
    (ha : t.spec.access = .readWrite) (ht : t ≠ .cpuPerformanceThreshold) :
    r'.get t = (latest? id t (st.own?.or w).toList).getD (r.get t) := by
  cases h with
  | outside hs _ _ =>
    rw [st.own?_of_not_stores hs, Option.none_or, Option.toList_some,
      Assignment.latest?_singleton, get_put]
    split <;> rfl
  | rest hs hw =>
    -- whatever is put down is for another controller
    rw [Assignment.latest?_of_forall fun a hm => ?_, Option.getD_none]
    rw [Option.mem_toList, Option.or_eq_some_iff] at hm
    rintro ⟨rfl, -⟩
    rcases hm with hm | ⟨-, hm⟩
    · rw [st.own?_of_not_stores (hs (Step.owner_of_own? hm).symm)] at hm
      cases hm
    · exact hw a hm rfl
  | pass hs =>
    rw [st.own?_of_not_stores hs]
    exact get_apply_of_open _ r ha ht
  | size htarget haction =>
    have hown : st.own? = some ⟨id, .loadBalanceInterval,
        (Sizing.forOnline (.ofNat st.kernel.online.card)).intervalMs⟩ := by
      simp only [Step.own?, haction, htarget]
    rw [hown, Option.some_or, Option.toList_some, Assignment.latest?_singleton]
    by_cases hti : t = .loadBalanceInterval
    · rw [if_pos hti, hti, get_size_interval r (Sizing.forOnline_mem _), Option.getD_some]
    · rw [if_neg hti, get_size_of_ne _ _ hti ht, Option.getD_none]
  | enable htarget haction =>
    rename_i enabled
    have hown : st.own? = some ⟨id, .policyOptimizationEnabled, if enabled then 1 else 0⟩ := by
      simp only [Step.own?, haction, htarget]
    rw [hown, Option.some_or, Option.toList_some, Assignment.latest?_singleton]
    by_cases hte : t = .policyOptimizationEnabled
    · rw [if_pos hte, hte, get_store_enabled, Option.getD_some]
    · rw [if_neg hte, get_store, if_neg hte, Option.getD_none]
  | put _ haction =>
    rw [haction] at hb
    cases hb
  | reset _ haction =>
    rw [haction] at hb
    cases hb

/-- Whether a pass on a registry triggers a rebalance: it saw an overloaded CPU while
rebalancing was enabled. -/
def broadcasts (r : Registry) (q : Pass) : Bool :=
  !q.sample.overloaded.isEmpty && r.get .policyOptimizationEnabled != 0

/-- A booked step counts one rebalance if it completes a pass that triggers one. -/
theorem Effect.get_nrRebalance (h : r.Effect id st w p r') (hb : st.action.booked = true) :
    r'.get .nrRebalance =
      r.get .nrRebalance + .ofNat (p.filter r.broadcasts).toList.length := by
  have hzero : ∀ v : Int32, v = v + .ofNat 0 := fun v => (Int32.add_zero v).symm
  cases h with
  | outside _ ha _ =>
    rw [get_put_of_ne]
    · exact hzero _
    · -- the count is closed to writes from outside
      rintro rfl
      cases ha
  | rest _ _ => exact hzero _
  | pass _ =>
    have hrebalanced : (Pass.of st.kernel r).rebalanced = r.broadcasts (Pass.of st.kernel r) := rfl
    rw [Pass.get_apply_nrRebalance, hrebalanced]
    cases hr : r.broadcasts (Pass.of st.kernel r) with
    | true =>
      rw [Option.filter_some_pos hr]
      rfl
    | false =>
      rw [Option.filter_some_neg (by simp [hr])]
      exact hzero _
  | size _ _ =>
    rw [get_size_of_ne _ _ (by decide) (by decide)]
    exact hzero _
  | enable _ _ =>
    rw [get_store, if_neg (by decide)]
    exact hzero _
  | put _ haction =>
    rw [haction] at hb
    cases hb
  | reset _ haction =>
    rw [haction] at hb
    cases hb

end Registry

namespace System

variable {s : System} {id : ControllerId} {steps : List Step} {t : Tunable}

open Assignment (latest?)

/-- What a step puts down, from outside or on behalf of the control plane. -/
def setting? (s : System) (st : Step) : Option Assignment := st.own?.or (s.written? st)

/-- All that is put down in a run, in order. -/
def settings (s : System) (steps : List Step) : List Assignment := s.gather setting? steps

/-- The pass of a controller that a step completes, if it triggers a rebalance. -/
def broadcast? (s : System) (id : ControllerId) (st : Step) : Option Pass :=
  (s.pass? id st).filter (s.controller id).registry.broadcasts

/-- The passes of a controller in a run that trigger a rebalance. -/
def broadcasts (s : System) (id : ControllerId) (steps : List Step) : List Pass :=
  s.gather (fun s st => s.broadcast? id st) steps

/-- What the control plane puts down is no write from outside. -/
theorem written?_of_own? {st : Step} {a : Assignment} (h : st.own? = some a) :
    s.written? st = none := by
  obtain ⟨k, target, action⟩ := st
  cases action with
  | resize => exact written?_of_not_accepted rfl
  | enable enabled => exact written?_of_not_accepted rfl
  | _ => cases h

/-- For all but the two tunables that the control plane sets as well, only the writes from
outside count. -/
theorem latest?_settings (hi : t ≠ .loadBalanceInterval) (he : t ≠ .policyOptimizationEnabled)
    (s : System) (steps : List Step) :
    latest? id t (s.settings steps) = latest? id t (s.writes steps) := by
  unfold settings writes
  induction steps generalizing s with
  | nil => rfl
  | cons st sts ih =>
    rw [gather_cons, gather_cons, Assignment.latest?_append, Assignment.latest?_append, ih]
    congr 1
    unfold setting?
    cases hown : st.own? with
    | none => rw [Option.none_or]
    | some a =>
      rw [written?_of_own? hown]
      refine Assignment.latest?_of_forall fun b hb => ?_
      cases Option.mem_toList.1 hb
      rintro ⟨-, ht⟩
      rcases Step.tunable_of_own? hown with h | h
      · exact hi (ht.symm.trans h)
      · exact he (ht.symm.trans h)

/-- After a run of booked steps a tunable that is open to writes from outside, the
threshold apart, holds what was put down for it last, or what it started with. -/
theorem get_run (ha : t.spec.access = .readWrite) (ht : t ≠ .cpuPerformanceThreshold)
    (hb : ∀ st ∈ steps, st.action.booked = true) :
    ((s.run steps).controller id).registry.get t =
      (latest? id t (s.settings steps)).getD ((s.controller id).registry.get t) := by
  unfold settings
  induction steps generalizing s with
  | nil => rfl
  | cons st sts ih =>
    obtain ⟨hst, hsts⟩ := List.forall_mem_cons.1 hb
    rw [run_cons, ih hsts, gather_cons, Assignment.latest?_append, Option.getD_or,
      (s.effect_act id st).get_eq hst ha ht]
    rfl

/-- A run of booked steps counts the passes that trigger a rebalance. -/
theorem get_nrRebalance_run (hb : ∀ st ∈ steps, st.action.booked = true) :
    ((s.run steps).controller id).registry.get .nrRebalance =
      (s.controller id).registry.get .nrRebalance + .ofNat (s.broadcasts id steps).length := by
  unfold broadcasts
  induction steps generalizing s with
  | nil => exact (Int32.add_zero _).symm
  | cons st sts ih =>
    obtain ⟨hst, hsts⟩ := List.forall_mem_cons.1 hb
    rw [run_cons, ih hsts, gather_cons, List.length_append, Int32.ofNat_add, ← Int32.add_assoc,
      (s.effect_act id st).get_nrRebalance hst]
    rfl

/-! ### From loading on -/

variable {k : Kernel}

/-- Loading leaves the defaults where neither the sizing nor the first pass has a say. -/
theorem get_load_of_open (h : (s.load k).result = .ok id) (ha : t.spec.access = .readWrite)
    (ht : t ≠ .cpuPerformanceThreshold) (hi : t ≠ .loadBalanceInterval) :
    ((s.load k).system.controller id).registry.get t = t.spec.default := by
  -- the two tunables that only the control plane writes are not open
  refine get_load_of_ne h hi ht ?_ ?_
  · rintro rfl
    cases ha
  · rintro rfl
    cases ha

/-- Loading leaves the interval of the sizing. -/
theorem get_load_interval (h : (s.load k).result = .ok id) :
    ((s.load k).system.controller id).registry.get .loadBalanceInterval =
      (Sizing.forOnline (.ofNat k.online.card)).intervalMs := by
  rw [registry_of_load h, Registry.get_apply_of_open _ _ rfl (by decide),
    Registry.get_size_interval _ (Sizing.forOnline_mem _)]

/-- The pass of loading triggers a rebalance if it saw an overloaded CPU: rebalancing is
enabled by default. -/
theorem get_load_nrRebalance (h : (s.load k).result = .ok id) :
    ((s.load k).system.controller id).registry.get .nrRebalance =
      .ofNat (if (LoadSample.collect k).overloaded.isEmpty then 0 else 1) := by
  let sized := Registry.defaults.size (.forOnline (.ofNat k.online.card))
  have hcount : sized.get .nrRebalance = 0 := by
    rw [Registry.get_size_of_ne _ _ (by decide) (by decide)]
    rfl
  have henabled : sized.get .policyOptimizationEnabled = 1 := by
    rw [Registry.get_size_of_ne _ _ (by decide) (by decide)]
    rfl
  have hrebalanced : (Pass.of k sized).rebalanced = !(LoadSample.collect k).overloaded.isEmpty := by
    show (_ && sized.get .policyOptimizationEnabled != 0) = _
    rw [henabled]
    exact Bool.and_true _
  rw [registry_of_load h, Pass.get_apply_nrRebalance, hrebalanced, hcount]
  cases (LoadSample.collect k).overloaded.isEmpty <;> rfl

/-- **What a loaded control plane holds is what was put down in it.**  Every state of a run
is the end of a run, so this holds all the way.  A tunable that belongs to the outside
holds its latest accepted write, or its default.  The switch of rebalancing and the
interval hold what was put down last, from outside or by the control plane itself, or
what loading left.  The count of rebalances is the number of passes, that of loading
included, that saw an overloaded CPU while rebalancing was enabled. -/
theorem ledger (h : (s.load k).result = .ok id) (hb : ∀ st ∈ steps, st.action.booked = true) :
    let loaded := (s.load k).system
    let r := ((loaded.run steps).controller id).registry
    (∀ t : Tunable, t.spec.access = .readWrite → t ≠ .policyOptimizationEnabled →
        t ≠ .cpuPerformanceThreshold → t ≠ .loadBalanceInterval →
        r.get t = (latest? id t (loaded.writes steps)).getD t.spec.default) ∧
      r.get .policyOptimizationEnabled =
        (latest? id .policyOptimizationEnabled (loaded.settings steps)).getD 1 ∧
      r.get .loadBalanceInterval =
        (latest? id .loadBalanceInterval (loaded.settings steps)).getD
          (Sizing.forOnline (.ofNat k.online.card)).intervalMs ∧
      r.get .nrRebalance =
        .ofNat ((if (LoadSample.collect k).overloaded.isEmpty then 0 else 1) +
          (loaded.broadcasts id steps).length) := by
  intro loaded r
  refine ⟨fun t ha he ht hi => ?_, ?_, ?_, ?_⟩
  · rw [← latest?_settings hi he, ← get_load_of_open h ha ht hi]
    exact get_run ha ht hb
  · have hdefault : (1 : Int32) = Tunable.policyOptimizationEnabled.spec.default := rfl
    rw [hdefault, ← get_load_of_open h rfl (by decide) (by decide)]
    exact get_run rfl (by decide) hb
  · rw [← get_load_interval h]
    exact get_run rfl (by decide) hb
  · rw [Int32.ofNat_add, ← get_load_nrRebalance h]
    exact get_nrRebalance_run hb

/-- An overloaded machine: a write that stays and one that is refused, rebalancing switched
off by the control plane and on again from outside, and a sizing for more CPUs.  Of the
three passes the middle one triggers no rebalance. -/
theorem ledger_overloaded :
    let k : Kernel := { online := .first 4, load := fun _ => { running := 20 } }
    let steps : List Step := [
      ⟨k, 1, .write "/hmbird_sched/heartbeat" "7".toUTF8⟩,
      ⟨k, 1, .write "/hmbird_sched/heartbeat" "seven".toUTF8⟩,
      ⟨k, 1, .enable false⟩,
      ⟨k, 1, .force⟩,
      ⟨k, 1, .setValue .policyOptimizationEnabled 1⟩,
      ⟨{ k with online := .first 8 }, 1, .resize⟩,
      ⟨k, 1, .setValue .nrRebalance 9⟩,
      ⟨k, 1, .force⟩]
    let r := (((({} : System).load k).system.run steps).controller 1).registry
    r.get .heartbeat = 7 ∧ r.get .policyOptimizationEnabled = 1 ∧
      r.get .loadBalanceInterval = 50 ∧ r.get .nrRebalance = 2 := by
  intro k steps r
  let loaded := (({} : System).load k).system
  have hrun : (({} : System).load k).result = .ok 1 ∧
      latest? 1 .heartbeat (loaded.writes steps) = some 7 ∧
      latest? 1 .policyOptimizationEnabled (loaded.settings steps) = some 1 ∧
      latest? 1 .loadBalanceInterval (loaded.settings steps) = some 50 ∧
      (loaded.broadcasts 1 steps).length = 1 ∧
      (LoadSample.collect k).overloaded.isEmpty = false := by
    decide +kernel
  obtain ⟨hload, hheartbeat, henabled, hinterval, hcount, hover⟩ := hrun
  have hb : ∀ st ∈ steps, st.action.booked = true := by simp [steps, Action.booked]
  obtain ⟨hopen, he, hi, hn⟩ := ledger hload hb
  refine ⟨?_, ?_, ?_, ?_⟩
  · rw [hopen .heartbeat rfl (by decide) (by decide) (by decide), hheartbeat]
    rfl
  · rw [he, henabled]
    rfl
  · rw [hi, hinterval]
    rfl
  · rw [hn, hcount, hover]
    rfl

end System
end CpuSteward
