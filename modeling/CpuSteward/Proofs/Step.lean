import CpuSteward.Proofs.Run

/-!
# What a step can do

Every action comes down to a few changes of a controller.  Its registry takes a
value from outside, or changes from within in one of five ways.  Its gate and its
timer change only by a pass and by a tick that is let through.  What holds of all
these changes holds of every run, so nothing about runs needs the actions again.

## Main definitions

* `Registry.Effect` — what a step does to a registry, action by action.
* `Registry.Internal` — the changes of a registry that no one outside asked for.
* `Controller.Paced` — the changes of the gate and the timer at one clock reading.

## Main results

* `System.effect_act` — what a step does to the registry, with the assignment it
  carries out and the pass it completes.
* `System.registry_act` — a step sets one value from outside or changes the registry
  from within.
* `System.paced_act` — what a step does to gate and timer.
* `System.controller_load` — loading leaves a controller that was resized and has run
  a pass.
-/

namespace CpuSteward

/-- The sizing for a number of CPUs is one of the tiers. -/
theorem Sizing.forOnline_mem (online : UInt64) : Sizing.forOnline online ∈ Sizing.tiers := by
  unfold Sizing.forOnline
  cases h : Sizing.tiers.find? fun tier => tier.minCpus ≤ online with
  | none => decide
  | some z => exact List.mem_of_find?_eq_some h

/-- The starting values of a tier. -/
def Registry.size (r : Registry) (z : Sizing) : Registry :=
  (r.store .cpuPerformanceThreshold z.threshold).store .loadBalanceInterval z.intervalMs

theorem Registry.get_size (r : Registry) (z : Sizing) (t : Tunable) :
    (r.size z).get t =
      if t = .loadBalanceInterval then t.spec.clamp z.intervalMs
      else if t = .cpuPerformanceThreshold then t.spec.clamp z.threshold else r.get t := by
  unfold size
  rw [get_store, get_store]
  split
  · rename_i h
    rw [h]
  · split
    · rename_i h
      rw [h]
    · rfl

/-- A sizing touches two tunables and no other. -/
theorem Registry.get_size_of_ne (r : Registry) (z : Sizing) {t : Tunable}
    (hi : t ≠ .loadBalanceInterval) (ht : t ≠ .cpuPerformanceThreshold) :
    (r.size z).get t = r.get t := by
  rw [get_size, if_neg hi, if_neg ht]

/-- The changes of a registry that no one outside asked for. -/
inductive Registry.Internal (r : Registry) : Registry → Prop where
  | keep : Internal r r
  | pass (k : Kernel) : Internal r ((Pass.of k r).apply r)
  | size {z : Sizing} (h : z ∈ Sizing.tiers) : Internal r (r.size z)
  | enable (enabled : Bool) :
      Internal r (r.store .policyOptimizationEnabled (if enabled then 1 else 0))
  | reset : Internal r .defaults

/-- Whether an action gives tunables values from within, apart from those that a pass
gives them. -/
def Action.stores : Action → Bool
  | resize => true
  | enable _ => true
  | put _ _ => true
  | reset => true
  | _ => false

/-- What one step does to the registry of a controller, action by action; the indices
are the assignment from outside that the step carries out and the pass of the
controller that it completes. -/
inductive Registry.Effect (r : Registry) (id : ControllerId) (st : Step) :
    Option Assignment → Option Pass → Registry → Prop where
  /-- The assignment is to this controller. -/
  | outside {t : Tunable} {v : Int32} (hs : st.action.stores = false)
      (ha : t.spec.access = .readWrite) (hv : t.spec.accepts v = true) :
      Effect r id st (some ⟨id, t, v⟩) none (r.put t v)
  /-- There is none, or it is to another controller, and nothing else happens. -/
  | rest {w : Option Assignment} (hs : st.target = id → st.action.stores = false)
      (hw : ∀ a ∈ w, a.owner ≠ id) : Effect r id st w none r
  | pass (hs : st.action.stores = false) :
      Effect r id st none (some (Pass.of st.kernel r)) ((Pass.of st.kernel r).apply r)
  | size (ht : st.target = id) (ha : st.action = .resize) :
      Effect r id st none none (r.size (.forOnline (.ofNat st.kernel.online.card)))
  | enable {enabled : Bool} (ht : st.target = id) (ha : st.action = .enable enabled) :
      Effect r id st none none
        (r.store .policyOptimizationEnabled (if enabled then 1 else 0))
  | put {t : Tunable} {v : Int32} (ht : st.target = id) (ha : st.action = .put t v) :
      Effect r id st none none (r.put t v)
  | reset (ht : st.target = id) (ha : st.action = .reset) : Effect r id st none none .defaults

/-- What one step can do to the registry of a controller; the index is the assignment
from outside that the step carries out. -/
inductive Registry.Change (r : Registry) (id : ControllerId) : Option Assignment → Registry → Prop
    where
  /-- The assignment is to this controller. -/
  | outside {t : Tunable} {v : Int32} (ha : t.spec.access = .readWrite)
      (hv : t.spec.accepts v = true) : Change r id (some ⟨id, t, v⟩) (r.put t v)
  /-- There is none, or it is to another controller. -/
  | inside {w : Option Assignment} {r' : Registry} (hw : ∀ a ∈ w, a.owner ≠ id)
      (h : r.Internal r') : Change r id w r'

/-- What a checked step does is a value from outside or a change from within. -/
theorem Registry.Effect.change {r r' : Registry} {id : ControllerId} {st : Step}
    {w : Option Assignment} {p : Option Pass} (h : r.Effect id st w p r')
    (hc : st.action.checked = true) : r.Change id w r' := by
  have hnone : ∀ a ∈ (none : Option Assignment), a.owner ≠ id := fun _ h => nomatch h
  cases h with
  | outside _ ha hv => exact .outside ha hv
  | rest _ hw => exact .inside hw .keep
  | pass _ => exact .inside hnone (.pass st.kernel)
  | size _ _ => exact .inside hnone (.size (Sizing.forOnline_mem _))
  | enable _ _ => exact .inside hnone (.enable _)
  | put _ ha =>
    rw [ha] at hc
    exact absurd hc Bool.false_ne_true
  | reset _ _ => exact .inside hnone .reset

namespace Controller

variable {c c' : Controller} {k : Kernel} {st : Step}

/-- The least time between two passes, in milliseconds, as it stands now. -/
def intervalMs (c : Controller) : Int32 := c.registry.get .loadBalanceInterval

/-- The time between two policy ticks, in milliseconds, as it stands now. -/
def tickMs (c : Controller) : Int32 := c.registry.get .policyTickMs

/-- The timer after it let the tick at `now` through. -/
def rearmed (c : Controller) (now : UInt64) : PolicyTimer :=
  ⟨some (satAdd now (PolicyTimer.periodNanos c.tickMs))⟩

/-- What one step at the clock reading `now` can do to the gate and the timer; the
index is the reading of the pass that it completes. -/
inductive Paced (c : Controller) (now : UInt64) : Option UInt64 → Controller → Prop where
  /-- Neither is touched. -/
  | rest {c' : Controller} (hg : c'.gate = c.gate) (ht : c'.timer = c.timer) : Paced c now none c'
  /-- A pass that no tick led to. -/
  | pass {c' : Controller} (hg : c'.gate = .passed now) (ht : c'.timer = c.timer) :
      Paced c now (some now) c'
  /-- A tick that the timer lets through and the gate does not. -/
  | throttle {c' : Controller} (hd : c.timer.due now = true)
      (ha : c.gate.admits c.intervalMs now = false) (hg : c'.gate = c.gate)
      (ht : c'.timer = c.rearmed now) : Paced c now none c'
  /-- A tick that leads to a pass. -/
  | beat {c' : Controller} (hd : c.timer.due now = true)
      (ha : c.gate.admits c.intervalMs now = true) (hg : c'.gate = .passed now)
      (ht : c'.timer = c.rearmed now) : Paced c now (some now) c'

/-! ### One operation on a controller -/

theorem event_cases (c : Controller) (k : Kernel) :
    (c.gate.admits c.intervalMs k.now = true ∧
        c.event k = (.completed (c.force k).1, (c.force k).2)) ∨
      (c.gate.admits c.intervalMs k.now = false ∧ c.event k = (.throttled, c)) := by
  cases h : c.gate.admits c.intervalMs k.now with
  | true => exact Or.inl ⟨rfl, event_of_admits h⟩
  | false => exact Or.inr ⟨rfl, event_of_not_admits h⟩

/-- A tick is not let through, is throttled, or leads to a pass. -/
theorem tick_cases (c : Controller) (k : Kernel) :
    (c.timer.due k.now = false ∧ c.tick k = (none, c)) ∨
      (c.timer.due k.now = true ∧ c.gate.admits c.intervalMs k.now = false ∧
        c.tick k = (some .throttled, { c with timer := c.rearmed k.now })) ∨
      (c.timer.due k.now = true ∧ c.gate.admits c.intervalMs k.now = true ∧
        c.tick k = (some (.completed (c.force k).1),
          { (c.force k).2 with timer := c.rearmed k.now })) := by
  unfold tick
  cases hd : c.timer.due k.now with
  | false =>
    rw [PolicyTimer.poll_of_not_due hd]
    exact Or.inl ⟨rfl, rfl⟩
  | true =>
    rw [PolicyTimer.poll_of_due hd]
    -- the timer has no part in the event, so the cases are those of the event
    rcases event_cases { c with timer := c.rearmed k.now } k with ⟨ha, he⟩ | ⟨ha, he⟩
    · refine Or.inr (Or.inr ⟨rfl, ha, ?_⟩)
      exact congrArg (fun x => (some x.1, x.2)) he
    · refine Or.inr (Or.inl ⟨rfl, ha, ?_⟩)
      exact congrArg (fun x => (some x.1, x.2)) he

theorem paced_force (c : Controller) (k : Kernel) :
    Paced c k.now (some (c.force k).1.sample.timestamp) (c.force k).2 := by
  rw [fst_force, Pass.sample_of, LoadSample.timestamp_collect]
  exact .pass (c.gate_force k) (c.timer_force k)

theorem paced_event (c : Controller) (k : Kernel) :
    Paced c k.now ((c.event k).1.pass?.map (·.sample.timestamp)) (c.event k).2 := by
  rcases event_cases c k with ⟨-, he⟩ | ⟨-, he⟩ <;> rw [he]
  · exact paced_force c k
  · exact .rest rfl rfl

theorem paced_tick (c : Controller) (k : Kernel) :
    Paced c k.now (((c.tick k).1.bind Outcome.pass?).map (·.sample.timestamp)) (c.tick k).2 := by
  rcases tick_cases c k with ⟨-, ht⟩ | ⟨hd, ha, ht⟩ | ⟨hd, ha, ht⟩ <;> rw [ht]
  · exact .rest rfl rfl
  · exact .throttle hd ha rfl rfl
  · exact .beat hd ha rfl rfl

/-- An event leads to a pass only if the gate admits one. -/
theorem admits_of_event {p : Pass} (h : (c.event k).1.pass? = some p) :
    c.gate.admits c.intervalMs k.now = true := by
  rcases event_cases c k with ⟨ha, -⟩ | ⟨-, he⟩
  · exact ha
  · rw [he] at h
    cases h

theorem admits_of_tick {p : Pass} (h : (c.tick k).1.bind Outcome.pass? = some p) :
    c.gate.admits c.intervalMs k.now = true := by
  rcases tick_cases c k with ⟨-, ht⟩ | ⟨-, -, ht⟩ | ⟨-, ha, -⟩
  · rw [ht] at h
    cases h
  · rw [ht] at h
    cases h
  · exact ha

theorem effect_event (c : Controller) (id : ControllerId) (hs : st.action.stores = false) :
    Registry.Effect c.registry id st none (c.event st.kernel).1.pass?
      (c.event st.kernel).2.registry := by
  rcases event_cases c st.kernel with ⟨-, he⟩ | ⟨-, he⟩ <;> rw [he]
  · exact .pass hs
  · exact .rest (fun _ => hs) (fun _ h => nomatch h)

theorem effect_tick (c : Controller) (id : ControllerId) (hs : st.action.stores = false) :
    Registry.Effect c.registry id st none ((c.tick st.kernel).1.bind Outcome.pass?)
      (c.tick st.kernel).2.registry := by
  rcases tick_cases c st.kernel with ⟨-, ht⟩ | ⟨-, -, ht⟩ | ⟨-, -, ht⟩ <;> rw [ht]
  · exact .rest (fun _ => hs) (fun _ h => nomatch h)
  · exact .rest (fun _ => hs) (fun _ h => nomatch h)
  · exact .pass hs

end Controller

namespace System

variable {s : System} {st : Step} {id owner : ControllerId} {t : Tunable} {v : Int32}

/-! ### Which assignment a step carries out -/

theorem written?_of_not_accepted (h : (s.act st).result.accepted = false) :
    s.written? st = none := by
  unfold written?
  rw [h]
  exact if_neg Bool.false_ne_true

theorem written?_of_accepted (h : (s.act st).result.accepted = true) :
    s.written? st = s.asked? st := by
  unfold written?
  rw [if_pos h]

theorem targetAt?_of_leads {path : String} {perm : Perm} {endpoint : Endpoint}
    (h : s.Leads path perm endpoint) : s.targetAt? path = endpoint.target? := by
  obtain ⟨node, hr, hc⟩ := h
  unfold targetAt?
  rw [hr]
  simp only [Option.bind_some, hc]

/-! ### What a step does to a registry -/

theorem pass?_of_none (id : ControllerId) (h : (s.act st).result.pass? = none) :
    s.pass? id st = none := by
  unfold pass?
  rw [h, ite_self]

/-- A step that leaves the system as it was. -/
theorem effect_of_frame (hst : st.action.stores = false)
    (hn : (s.act st).result.accepted = false) (hp : (s.act st).result.pass? = none)
    (hs : (s.act st).system = s) :
    Registry.Effect (s.controller id).registry id st (s.written? st) (s.pass? id st)
      ((s.act st).system.controller id).registry := by
  rw [written?_of_not_accepted hn, pass?_of_none id hp, hs]
  exact .rest (fun _ => hst) (fun _ h => nomatch h)

/-- A step that replaces the controller it goes to, and not because of a write. -/
theorem effect_of_target {c' : Controller} (hs : (s.act st).system = s.setController st.target c')
    (hn : (s.act st).result.accepted = false)
    (h : Registry.Effect (s.controller st.target).registry st.target st none
      (s.act st).result.pass? c'.registry) :
    Registry.Effect (s.controller id).registry id st (s.written? st) (s.pass? id st)
      ((s.act st).system.controller id).registry := by
  unfold pass?
  rw [written?_of_not_accepted hn, hs, controller_setController]
  by_cases hid : st.target = id
  · subst hid
    rw [if_pos rfl, if_pos rfl]
    exact h
  · rw [if_neg hid, if_neg (Ne.symm hid)]
    exact .rest (fun h => absurd h hid) (fun _ h => nomatch h)

/-- A step that carries out an assignment changes one value of its owner. -/
theorem effect_of_assignment (hst : st.action.stores = false)
    (hw : s.written? st = some ⟨owner, t, v⟩) (hp : (s.act st).result.pass? = none)
    (ha : t.spec.access = .readWrite) (hv : t.spec.accepts v = true)
    (hr : ((s.act st).system.controller id).registry =
      if id = owner then (s.controller owner).registry.put t v else (s.controller id).registry) :
    Registry.Effect (s.controller id).registry id st (s.written? st) (s.pass? id st)
      ((s.act st).system.controller id).registry := by
  rw [hw, pass?_of_none id hp, hr]
  by_cases h : id = owner
  · subst h
    rw [if_pos rfl]
    exact .outside hst ha hv
  · -- the assignment is to another controller, which leaves this one alone
    rw [if_neg h]
    refine .rest (fun _ => hst) fun a hm => ?_
    cases hm
    exact Ne.symm h

theorem registry_setRegistry (target : ControllerId) (r : Registry) :
    ((s.setRegistry target r).controller id).registry =
      if id = target then r else (s.controller id).registry := by
  unfold setRegistry
  rw [controller_setController]
  split <;> rfl

/-- A write to a tunable that does not go through a file. -/
theorem effect_of_update {x : Except SetError Registry} (hst : st.action.stores = false)
    (hact : s.act st = s.update owner x)
    (hok : ∀ r, x = .ok r → ∃ t v, s.asked? st = some ⟨owner, t, v⟩ ∧
      t.spec.access = .readWrite ∧ t.spec.accepts v = true ∧
      (s.controller owner).registry.put t v = r) :
    Registry.Effect (s.controller id).registry id st (s.written? st) (s.pass? id st)
      ((s.act st).system.controller id).registry := by
  cases x with
  | error cause => refine effect_of_frame hst ?_ ?_ ?_ <;> rw [hact] <;> rfl
  | ok r =>
    obtain ⟨t, v, hask, ha, hv, rfl⟩ := hok r rfl
    refine effect_of_assignment hst ((written?_of_accepted ?_).trans hask) ?_ ha hv ?_
    · rw [hact]
      rfl
    · rw [hact]
      rfl
    · rw [hact]
      exact registry_setRegistry owner _

/-- A write to a file. -/
theorem effect_of_write {path : String} {bytes : ByteArray} (hst : st.action = .write path bytes) :
    Registry.Effect (s.controller id).registry id st (s.written? st) (s.pass? id st)
      ((s.act st).system.controller id).registry := by
  obtain ⟨k, target, action⟩ := st
  subst hst
  rcases s.refuses_or_accepts path bytes with ⟨e, h⟩ | ⟨endpoint, owner, t, v, h⟩
  · obtain ⟨hr, hs⟩ := write_of_refuses (k := k) h
    refine effect_of_frame rfl ?_ rfl hs
    simp only [act, Response.map, hr, Reply.accepted]
  · obtain ⟨hr, hs⟩ := write_of_accepts (k := k) h
    obtain ⟨perm, hf, -⟩ := h.file
    have hask : s.asked? ⟨k, target, .write path bytes⟩ = some ⟨owner, t, v⟩ := by
      simp only [asked?, targetAt?_of_leads hf, h.target, h.literal, Option.bind_some,
        Option.map_some]
    refine effect_of_assignment rfl ((written?_of_accepted ?_).trans hask) rfl h.access h.range ?_
    · simp only [act, Response.map, hr, Reply.accepted]
    · simp only [act, Response.map, hs]

/-- What a step does to the registry of a controller. -/
theorem effect_act (s : System) (id : ControllerId) (st : Step) :
    Registry.Effect (s.controller id).registry id st (s.written? st) (s.pass? id st)
      ((s.act st).system.controller id).registry := by
  obtain ⟨k, target, action⟩ := st
  cases action with
  | event e => exact effect_of_target rfl rfl (Controller.effect_event _ target rfl)
  | notify e => exact effect_of_target rfl rfl (Controller.effect_event _ target rfl)
  | tick => exact effect_of_target rfl rfl (Controller.effect_tick _ target rfl)
  | force => exact effect_of_target rfl rfl (.pass rfl)
  | resize => exact effect_of_target rfl rfl (.size rfl rfl)
  | enable enabled => exact effect_of_target rfl rfl (.enable rfl rfl)
  | set t bytes =>
    refine effect_of_update rfl rfl fun r hr => ?_
    obtain ⟨v, hl, ha, hv, hp⟩ := Registry.set_eq_ok_iff.1 hr
    exact ⟨t, v, by simp only [asked?, hl, Option.map_some], ha, hv, hp⟩
  | setValue t v =>
    exact effect_of_update rfl rfl fun r hr => ⟨t, v, rfl, Registry.setValue_eq_ok_iff.1 hr⟩
  | put t v => exact effect_of_target rfl rfl (.put rfl rfl)
  | reset => exact effect_of_target rfl rfl (.reset rfl rfl)
  | report => exact effect_of_frame rfl rfl rfl rfl
  | read path => exact effect_of_frame rfl rfl rfl rfl
  | write path bytes => exact effect_of_write rfl

/-- A step sets one value from outside or changes the registry from within. -/
theorem registry_act (id : ControllerId) (hc : st.action.checked = true) :
    Registry.Change (s.controller id).registry id (s.written? st)
      ((s.act st).system.controller id).registry :=
  (s.effect_act id st).change hc

/-! ### What a step does to gate and timer -/

/-- A step that completes no pass and leaves gate and timer alone. -/
theorem paced_of_frame (hn : (s.act st).result.pass? = none)
    (hg : ((s.act st).system.controller id).gate = (s.controller id).gate)
    (ht : ((s.act st).system.controller id).timer = (s.controller id).timer) :
    (s.controller id).Paced st.now ((s.pass? id st).map (·.sample.timestamp))
      ((s.act st).system.controller id) := by
  rw [pass?_of_none id hn]
  exact .rest hg ht

/-- A step that replaces the controller it goes to. -/
theorem paced_of_target {c' : Controller} (hs : (s.act st).system = s.setController st.target c')
    (hp : (s.controller st.target).Paced st.now
      ((s.act st).result.pass?.map (·.sample.timestamp)) c') :
    (s.controller id).Paced st.now ((s.pass? id st).map (·.sample.timestamp))
      ((s.act st).system.controller id) := by
  unfold pass?
  rw [hs, controller_setController]
  by_cases h : st.target = id
  · subst h
    rw [if_pos rfl, if_pos rfl]
    exact hp
  · rw [if_neg h, if_neg (Ne.symm h)]
    exact .rest rfl rfl

/-- A write to a tunable that does not go through a file leaves gate and timer alone. -/
theorem paced_of_update {x : Except SetError Registry} (hact : s.act st = s.update st.target x) :
    (s.controller id).Paced st.now ((s.pass? id st).map (·.sample.timestamp))
      ((s.act st).system.controller id) := by
  cases x with
  | error cause => refine paced_of_frame ?_ ?_ ?_ <;> rw [hact] <;> rfl
  | ok r =>
    refine paced_of_target (by rw [hact]; rfl) ?_
    rw [hact]
    exact .rest rfl rfl

/-- A write to a file leaves gate and timer alone. -/
theorem paced_of_write {path : String} {bytes : ByteArray} (hst : st.action = .write path bytes) :
    (s.controller id).Paced st.now ((s.pass? id st).map (·.sample.timestamp))
      ((s.act st).system.controller id) := by
  obtain ⟨k, target, action⟩ := st
  subst hst
  rcases s.refuses_or_accepts path bytes with ⟨e, h⟩ | ⟨endpoint, owner, t, v, h⟩
  · obtain ⟨hr, hs⟩ := write_of_refuses (k := k) h
    refine paced_of_frame rfl ?_ ?_ <;> simp only [act, Response.map, hs]
  · obtain ⟨hr, hs⟩ := write_of_accepts (k := k) h
    refine paced_of_frame rfl ?_ ?_ <;> simp only [act, Response.map, hs]

/-- What a step does to gate and timer of a controller. -/
theorem paced_act (s : System) (id : ControllerId) (st : Step) :
    (s.controller id).Paced st.now ((s.pass? id st).map (·.sample.timestamp))
      ((s.act st).system.controller id) := by
  obtain ⟨k, target, action⟩ := st
  cases action with
  | event e => exact paced_of_target rfl (Controller.paced_event _ k)
  | notify e => exact paced_of_target rfl (Controller.paced_event _ k)
  | tick => exact paced_of_target rfl (Controller.paced_tick _ k)
  | force => exact paced_of_target rfl (Controller.paced_force _ k)
  | resize => exact paced_of_target rfl (.rest rfl rfl)
  | enable enabled => exact paced_of_target rfl (.rest rfl rfl)
  | set t bytes => exact paced_of_update rfl
  | setValue t v => exact paced_of_update rfl
  | put t v => exact paced_of_target rfl (.rest rfl rfl)
  | reset => exact paced_of_target rfl (.rest rfl rfl)
  | report => exact paced_of_frame rfl rfl rfl
  | read path => exact paced_of_frame rfl rfl rfl
  | write path bytes => exact paced_of_write rfl

/-! ### Loading -/

/-- Loading makes a new controller, resizes it and runs a pass, which the gate of a new
controller lets through at any clock reading. -/
theorem controller_load {k : Kernel} (h : (s.load k).result = .ok id) :
    (s.load k).system.controller id = ((({} : Controller).resize k).2.force k).2 := by
  unfold load at h ⊢
  -- only a registered control plane gets a controller
  cases hr : (s.register s.nextController).result with
  | error cause =>
    simp only [hr] at h
    cases h
  | ok u =>
    simp only [hr] at h ⊢
    cases h
    simp only [event, resize, controller_setController, if_true]
    -- the gate is still that of a new controller, which admits at any clock reading
    have ha : (({} : Controller).resize k).2.gate.admits
        ((({} : Controller).resize k).2.registry.get .loadBalanceInterval) k.now = true := rfl
    rw [Controller.event_of_admits ha]

/-- The registry of a controller that was just loaded has seen the defaults, a sizing and
a pass. -/
theorem registry_of_load {k : Kernel} (h : (s.load k).result = .ok id) :
    let sized := Registry.defaults.size (.forOnline (.ofNat k.online.card))
    ((s.load k).system.controller id).registry = (Pass.of k sized).apply sized := by
  rw [controller_load h]
  rfl

/-- The registry that loading leaves has its defaults where neither the sizing nor the first
pass has a say. -/
theorem get_load_of_ne {k : Kernel} (h : (s.load k).result = .ok id)
    (hi : t ≠ .loadBalanceInterval) (ht : t ≠ .cpuPerformanceThreshold) (hn : t ≠ .nrRebalance)
    (hl : t ≠ .lastTotalLoad) :
    ((s.load k).system.controller id).registry.get t = t.spec.default := by
  rw [registry_of_load h, Pass.get_apply_of_ne _ _ hn ht hl, Registry.get_size_of_ne _ _ hi ht,
    Registry.get_defaults]

end System
end CpuSteward
