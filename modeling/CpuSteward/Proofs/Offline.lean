import CpuSteward.Proofs.Session

/-!
# CPUs that are offline are out of sight

The counters of a CPU that is offline are whatever they were left at.  Two machines that
differ in such counters only, step by step, are one machine to all control planes on them:
the same passes with the same reports, the same CPUs made to reschedule, the same values
of all tunables, the same texts.

This is shown for machines that may differ in their frequency policies as well.  These are
recorded on request, but no pass, tunable or report is about them.

## Main definitions

* `System.answer` — what a request leads to, with the result in the form that it has.
* `Kernel.Alike`, `Request.Alike` — the same machine as far as it is online.
* `Controller.Alike`, `System.Alike` — the same but for the recorded governors.
* `System.trace` — all that a session shows, request by request.

## Main results

* `LoadSample.collect_eq` — a sample has nothing of CPUs that are offline.
* `System.Alike.act`, `System.Alike.answer` — alike systems answer alike requests the same, and
  stay alike.
* `System.offline_unseen` — **counters of CPUs that are offline never show.**
-/

namespace CpuSteward

/-! ### What a request shows -/

/-- What the caller of a request sees of it. -/
inductive Answer where
  | loaded (r : Except LoadError ControllerId)
  | unloaded (p : Pass)
  | reply (r : Reply)
  | made (node : Option (Node Endpoint))
  | removed (r : Except AccessError Unit)

/-- What a request leads to. -/
def System.answer (s : System) : Request → Response Answer
  | .load k => (s.load k).map .loaded
  | .unload k id => (s.unload k id).map .unloaded
  | .act st => (s.act st).map .reply
  | .mkdir parent name =>
    { result := .made (s.mkdir parent name).1, system := (s.mkdir parent name).2 }
  | .create parent name perm endpoint =>
    { result := .made (s.create parent name perm endpoint).1
      system := (s.create parent name perm endpoint).2 }
  | .remove parent name => (s.remove parent name).map .removed

/-- All that a request shows: its result, the CPUs that are made to reschedule, and the
registries after it. -/
structure Observation where
  answer : Answer
  kicked : List Nat
  registry : ControllerId → Registry

/-- All that a request shows. -/
def System.observe (s : System) (r : Request) : Observation where
  answer := (s.answer r).result
  kicked := (s.answer r).kicked
  registry id := ((s.answer r).system.controller id).registry

/-- All that a session shows, request by request. -/
def System.trace (s : System) : List Request → List Observation
  | [] => []
  | r :: rs => s.observe r :: (s.answer r).system.trace rs

/-! ### Machines that are alike -/

/-- The machine is the same as far as it is online: one clock, one class, one caller, and the
same counters of the same CPUs that are online. -/
structure Kernel.Alike (k k' : Kernel) : Prop where
  now : k.now = k'.now
  online : k.online = k'.online
  load : ∀ c ∈ k.online, k.load c = k'.load c
  extension : k.extension = k'.extension
  thisCpu : k.thisCpu = k'.thisCpu

/-- The same request, at states of the machine that are alike. -/
inductive Request.Alike : Request → Request → Prop where
  | load {k k' : Kernel} (h : k.Alike k') : Alike (.load k) (.load k')
  | unload {k k' : Kernel} (h : k.Alike k') (id : ControllerId) :
      Alike (.unload k id) (.unload k' id)
  | act {k k' : Kernel} (h : k.Alike k') (target : ControllerId) (action : Action) :
      Alike (.act ⟨k, target, action⟩) (.act ⟨k', target, action⟩)
  | mkdir (parent : Node Endpoint) (name : String) : Alike (.mkdir parent name) (.mkdir parent name)
  | create (parent : Node Endpoint) (name : String) (perm : Perm) (endpoint : Endpoint) :
      Alike (.create parent name perm endpoint) (.create parent name perm endpoint)
  | remove (parent : Node Endpoint) (name : String) :
      Alike (.remove parent name) (.remove parent name)

section Machine

variable {k k' : Kernel}

/-- A sample has nothing of CPUs that are offline. -/
theorem LoadSample.collect_eq (h : k.Alike k') : collect k = collect k' := by
  have hcounter : ∀ c : Fin maxCpus, (if k.online.contains c then k.load c else {}) =
      if k'.online.contains c then k'.load c else {} := by
    intro c
    rw [← h.online]
    split
    · rename_i hc
      exact h.load c hc
    · rfl
  exact LoadSample.ext h.now h.online (congrArg Vector.ofFn (funext hcounter))

theorem Pass.of_eq (h : k.Alike k') (r : Registry) : of k r = of k' r := by
  unfold of
  rw [LoadSample.collect_eq h, h.online, h.thisCpu]

end Machine

/-! ### Controllers that are alike -/

/-- The controllers are the same but for the recorded governors. -/
structure Controller.Alike (c c' : Controller) : Prop where
  registry : c.registry = c'.registry
  gate : c.gate = c'.gate
  timer : c.timer = c'.timer

namespace Controller

variable {c c' : Controller} {k k' : Kernel}

theorem Alike.force (h : c.Alike c') (hk : k.Alike k') :
    (c.force k).1 = (c'.force k').1 ∧ (c.force k).2.Alike (c'.force k').2 := by
  rw [fst_force, fst_force, Pass.of_eq hk, h.registry]
  refine ⟨rfl, ?_, ?_, ?_⟩
  · rw [registry_force, registry_force, Pass.of_eq hk, h.registry]
  · rw [gate_force, gate_force, hk.now]
  · rw [timer_force, timer_force, h.timer]

theorem Alike.event (h : c.Alike c') (hk : k.Alike k') :
    (c.event k).1 = (c'.event k').1 ∧ (c.event k).2.Alike (c'.event k').2 := by
  obtain ⟨hpass, hforce⟩ := h.force hk
  unfold Controller.event
  rw [← h.gate, ← h.registry, ← hk.now]
  split
  · exact ⟨congrArg Outcome.completed hpass, hforce⟩
  · exact ⟨rfl, h⟩

theorem Alike.tick (h : c.Alike c') (hk : k.Alike k') :
    (c.tick k).1 = (c'.tick k').1 ∧ (c.tick k).2.Alike (c'.tick k').2 := by
  unfold Controller.tick
  rw [← h.timer, ← h.registry, ← hk.now]
  split
  · exact ⟨rfl, rfl, h.gate, rfl⟩
  · rename_i timer _
    have halike : ({ c with timer } : Controller).Alike { c' with timer } :=
      ⟨h.registry, h.gate, rfl⟩
    obtain ⟨houtcome, hevent⟩ := halike.event hk
    rw [← h.registry] at houtcome hevent
    exact ⟨congrArg some houtcome, hevent⟩

theorem Alike.resize (h : c.Alike c') (hk : k.Alike k') :
    (c.resize k).1 = (c'.resize k').1 ∧ (c.resize k).2.Alike (c'.resize k').2 := by
  unfold Controller.resize
  rw [← h.registry, ← hk.online]
  exact ⟨rfl, rfl, h.gate, h.timer⟩

theorem Alike.enable (h : c.Alike c') (enabled : Bool) :
    (c.enable enabled).Alike (c'.enable enabled) := by
  unfold Controller.enable
  rw [← h.registry]
  exact ⟨rfl, h.gate, h.timer⟩

end Controller

/-- A report is about the CPUs that are online only. -/
theorem Report.render_eq {c c' : Controller} {k k' : Kernel} (h : c.Alike c') (hk : k.Alike k') :
    render c k = render c' k' := by
  have hmonitor : monitor c = monitor c' := by
    unfold monitor Controller.enabled
    rw [h.registry, h.gate]
  unfold render lines
  rw [LoadSample.collect_eq hk, hmonitor, h.registry, hk.extension]

/-! ### Systems that are alike -/

/-- The systems are the same but for the recorded governors. -/
structure System.Alike (s s' : System) : Prop where
  tree : s.tree = s'.tree
  controller : ∀ id, (s.controller id).Alike (s'.controller id)
  nextController : s.nextController = s'.nextController

/-- The responses show the same, and leave systems that are alike. -/
structure Response.Alike {α : Type} (x x' : Response α) : Prop where
  result : x.result = x'.result
  kicked : x.kicked = x'.kicked
  system : x.system.Alike x'.system

theorem Response.Alike.map {α β : Type} {x x' : Response α} (h : x.Alike x') (f : α → β) :
    (x.map f).Alike (x'.map f) :=
  ⟨congrArg f h.result, h.kicked, h.system⟩

namespace System

variable {s s' : System} {k k' : Kernel} {id : ControllerId}

theorem Alike.refl (s : System) : s.Alike s := ⟨rfl, fun _ => ⟨rfl, rfl, rfl⟩, rfl⟩

theorem Alike.setController (h : s.Alike s') {c c' : Controller} (hc : c.Alike c')
    (id : ControllerId) : (s.setController id c).Alike (s'.setController id c') where
  tree := h.tree
  controller i := by
    rw [controller_setController, controller_setController]
    split
    · exact hc
    · exact h.controller i
  nextController := h.nextController

theorem Alike.setTree (h : s.Alike s') (tree : Namespace Endpoint) :
    ({ s with tree } : System).Alike { s' with tree } :=
  ⟨rfl, h.controller, h.nextController⟩

theorem Alike.event (h : s.Alike s') (hk : k.Alike k') (id : ControllerId) (e : CpuEvent) :
    (s.event k id e).Alike (s'.event k' id e) := by
  obtain ⟨houtcome, hc⟩ := (h.controller id).event hk
  exact ⟨houtcome, congrArg Outcome.kicked houtcome, h.setController hc id⟩

theorem Alike.tick (h : s.Alike s') (hk : k.Alike k') (id : ControllerId) :
    (s.tick k id).Alike (s'.tick k' id) := by
  obtain ⟨houtcome, hc⟩ := (h.controller id).tick hk
  exact ⟨houtcome, congrArg (fun o => o.elim [] Outcome.kicked) houtcome, h.setController hc id⟩

theorem Alike.force (h : s.Alike s') (hk : k.Alike k') (id : ControllerId) :
    (s.force k id).Alike (s'.force k' id) := by
  obtain ⟨hpass, hc⟩ := (h.controller id).force hk
  exact ⟨hpass, congrArg Pass.kicked hpass, h.setController hc id⟩

theorem Alike.resize (h : s.Alike s') (hk : k.Alike k') (id : ControllerId) :
    (s.resize k id).Alike (s'.resize k' id) := by
  obtain ⟨hsizing, hc⟩ := (h.controller id).resize hk
  exact ⟨hsizing, rfl, h.setController hc id⟩

theorem Alike.enable (h : s.Alike s') (id : ControllerId) (enabled : Bool) :
    (s.enable id enabled).Alike (s'.enable id enabled) :=
  h.setController ((h.controller id).enable enabled) id

theorem Alike.setRegistry (h : s.Alike s') (id : ControllerId) (r : Registry) :
    (s.setRegistry id r).Alike (s'.setRegistry id r) := by
  have hc : ({ s.controller id with registry := r } : Controller).Alike
      { s'.controller id with registry := r } :=
    ⟨rfl, (h.controller id).gate, (h.controller id).timer⟩
  exact h.setController hc id

/-! ### Requests to files -/

theorem Alike.content (h : s.Alike s') (hk : k.Alike k') (endpoint : Endpoint) :
    s.content k endpoint = s'.content k' endpoint := by
  cases endpoint with
  | tunable owner t => rw [System.content, System.content, (h.controller owner).registry]
  | governors owner keeper => rw [System.content, System.content, (h.controller owner).registry]
  | report owner =>
    rw [System.content, System.content, Report.render_eq (h.controller owner) hk]
  | fixed content => rfl

theorem Alike.read (h : s.Alike s') (hk : k.Alike k') (path : String) :
    s.read k path = s'.read k' path := by
  unfold System.read
  simp only [h.tree, h.content hk]

theorem Alike.writeTunable (h : s.Alike s') (owner : ControllerId) (t : Tunable)
    (bytes : ByteArray) : (s.writeTunable owner t bytes).Alike (s'.writeTunable owner t bytes) := by
  unfold System.writeTunable
  rw [(h.controller owner).registry]
  split
  · exact ⟨rfl, rfl, h⟩
  · exact ⟨rfl, rfl, h.setRegistry owner _⟩

/-- The governors that are recorded may differ, and nothing else does. -/
theorem Alike.saveGovernors (h : s.Alike s') (k k' : Kernel) (keeper : ControllerId) :
    (s.saveGovernors k keeper).system.Alike (s'.saveGovernors k' keeper).system := by
  have hkeeper := h.controller keeper
  have hc : ((s.controller keeper).saveGovernors k).Alike
      ((s'.controller keeper).saveGovernors k') :=
    ⟨hkeeper.registry, hkeeper.gate, hkeeper.timer⟩
  exact h.setController hc keeper

theorem Alike.writeEndpoint (h : s.Alike s') (k k' : Kernel) (bytes : ByteArray)
    (endpoint : Endpoint) :
    (s.writeEndpoint k bytes endpoint).Alike (s'.writeEndpoint k' bytes endpoint) := by
  cases endpoint with
  | tunable owner t => exact h.writeTunable owner t bytes
  | governors owner keeper =>
    have hwrite := h.writeTunable owner .saveGov bytes
    unfold System.writeEndpoint
    dsimp only
    rw [← hwrite.result]
    split
    · exact hwrite
    · exact ⟨rfl, hwrite.kicked, hwrite.system.saveGovernors k k' keeper⟩
  | report owner => exact ⟨rfl, rfl, h⟩
  | fixed content => exact ⟨rfl, rfl, h⟩

theorem Alike.write (h : s.Alike s') (k k' : Kernel) (path : String) (bytes : ByteArray) :
    (s.write k path bytes).Alike (s'.write k' path bytes) := by
  unfold System.write
  rw [← h.tree]
  split
  · exact ⟨rfl, rfl, h⟩
  · split
    · exact ⟨rfl, rfl, h⟩
    · split
      · exact h.writeEndpoint k k' bytes _
      · exact ⟨rfl, rfl, h⟩

/-! ### One step -/

theorem Alike.update (h : s.Alike s') (id : ControllerId) (x : Except SetError Registry) :
    (s.update id x).Alike (s'.update id x) := by
  cases x with
  | error cause => exact ⟨rfl, rfl, h⟩
  | ok r => exact ⟨rfl, rfl, h.setRegistry id r⟩

/-- The same step at alike states of the machine does the same to alike systems. -/
theorem Alike.act (h : s.Alike s') (hk : k.Alike k') (target : ControllerId) (action : Action) :
    (s.act ⟨k, target, action⟩).Alike (s'.act ⟨k', target, action⟩) := by
  have hregistry := (h.controller target).registry
  cases action with
  | event e => exact (h.event hk target e).map _
  | notify e =>
    have hevent := h.event hk target e
    exact ⟨congrArg Reply.outcome hevent.result, hevent.kicked, hevent.system⟩
  | tick => exact (h.tick hk target).map _
  | force => exact (h.force hk target).map _
  | resize => exact (h.resize hk target).map _
  | enable enabled => exact ⟨rfl, rfl, h.enable target enabled⟩
  | set t bytes =>
    simp only [System.act, hregistry]
    exact h.update target _
  | setValue t v =>
    simp only [System.act, hregistry]
    exact h.update target _
  | put t v =>
    simp only [System.act, hregistry]
    exact ⟨rfl, rfl, h.setRegistry target _⟩
  | reset => exact ⟨rfl, rfl, h.setRegistry target _⟩
  | report => exact ⟨congrArg Reply.text (Report.render_eq (h.controller target) hk), rfl, h⟩
  | read path => exact ⟨congrArg Reply.content (h.read hk path), rfl, h⟩
  | write path bytes => exact (h.write k k' path bytes).map _

/-! ### Loading and unloading -/

theorem Alike.remove (h : s.Alike s') (parent : Node Endpoint) (name : String) :
    (s.remove parent name).Alike (s'.remove parent name) := by
  unfold System.remove
  rw [← h.tree]
  split
  · exact ⟨rfl, rfl, h⟩
  · exact ⟨rfl, rfl, h.setTree _⟩

theorem Alike.register (h : s.Alike s') (owner : ControllerId) :
    (s.register owner).Alike (s'.register owner) := by
  unfold System.register
  rw [← h.tree]
  split
  · exact ⟨rfl, rfl, h.setTree _⟩
  · split
    · exact ⟨rfl, rfl, h.setTree _⟩
    · exact ⟨rfl, rfl, ((h.setTree _).remove .root Identity.directory).system⟩

theorem Alike.load (h : s.Alike s') (hk : k.Alike k') : (s.load k).Alike (s'.load k') := by
  have hregister := h.register s.nextController
  unfold System.load
  dsimp only
  rw [← h.nextController, ← hregister.result]
  split
  · exact ⟨rfl, rfl, hregister.system⟩
  · have hcreated : ({ (s.register s.nextController).system.setController s.nextController {} with
          nextController := s.nextController + 1 } : System).Alike
        { (s'.register s.nextController).system.setController s.nextController {} with
          nextController := s.nextController + 1 } :=
      ⟨hregister.system.tree,
        (hregister.system.setController ⟨rfl, rfl, rfl⟩ s.nextController).controller, rfl⟩
    have hfirst := (hcreated.resize hk s.nextController).system.event hk s.nextController .tick
    exact ⟨rfl, hfirst.kicked, hfirst.system⟩

theorem Alike.unload (h : s.Alike s') (hk : k.Alike k') (id : ControllerId) :
    (s.unload k id).Alike (s'.unload k' id) := by
  have hlast := (h.enable id false).force hk id
  exact ⟨hlast.result, hlast.kicked, (hlast.system.remove .root Identity.directory).system⟩

/-! ### Sessions -/

/-- Alike systems answer alike requests the same, and stay alike. -/
theorem Alike.answer (h : s.Alike s') {r r' : Request} (hr : r.Alike r') :
    (s.answer r).Alike (s'.answer r') := by
  cases hr with
  | load hk => exact (h.load hk).map _
  | unload hk id => exact (h.unload hk id).map _
  | act hk target action => exact (h.act hk target action).map _
  | mkdir parent name =>
    simp only [System.answer, System.mkdir, h.tree]
    exact ⟨rfl, rfl, h.setTree _⟩
  | create parent name perm endpoint =>
    simp only [System.answer, System.create, h.tree]
    exact ⟨rfl, rfl, h.setTree _⟩
  | remove parent name => exact (h.remove parent name).map _

theorem Alike.observe (h : s.Alike s') {r r' : Request} (hr : r.Alike r') :
    s.observe r = s'.observe r' := by
  have hanswer := h.answer hr
  have hregistry : (fun id => ((s.answer r).system.controller id).registry) =
      fun id => ((s'.answer r').system.controller id).registry :=
    funext fun id => (hanswer.system.controller id).registry
  unfold System.observe
  rw [hanswer.result, hanswer.kicked, hregistry]

theorem Alike.trace (h : s.Alike s') {rs rs' : List Request}
    (hr : List.Forall₂ Request.Alike rs rs') : s.trace rs = s'.trace rs' := by
  induction hr generalizing s s' with
  | nil => rfl
  | cons hr _ ih => rw [System.trace, System.trace, h.observe hr, ih (h.answer hr).system]

/-- **Counters of CPUs that are offline never show.**  Two machines take the same requests,
among them loading, events, ticks, passes, reports and writes from outside.  At each request
they agree as far as they are online, and differ at will in the counters of the CPUs that are
offline then.  So the two sessions show the same all the way: all results, with the passes
and the reports among them, all CPUs made to reschedule, and all values of all tunables. -/
theorem offline_unseen (s : System) {rs rs' : List Request}
    (h : List.Forall₂ Request.Alike rs rs') : s.trace rs = s.trace rs' :=
  (Alike.refl s).trace h

/-- Four CPUs are overloaded, then one of them goes offline with its counters left over.  The
other machine has other counters there, and others for a CPU that was never online.  Two
passes make the other CPUs reschedule, and the governors are recorded on one machine only. -/
theorem offline_unseen_leftover :
    let up : Kernel := { online := .first 4, load := fun _ => { running := 20, switches := 7 } }
    let up' : Kernel := { up with load := fun c => if c = 9 then {} else up.load c }
    let down : Kernel := { up with now := 200000000, online := up.online.erase 1 }
    let down' : Kernel :=
      { down with
        load := fun c => if c = 1 then { running := 0xFFFFFFFFFFFFFFFF } else down.load c
        present := .first 1
        policyCpu := some
        governor := fun _ => some "schedutil" }
    let requests (up down : Kernel) : List Request := [
      .load up,
      .act ⟨down, 1, .notify (.offline 1)⟩,
      .act ⟨down, 1, .write "hmbird_sched/save_gov" "1".toUTF8⟩,
      .act ⟨down, 1, .report⟩]
    let s : System := {}
    up.load 9 ≠ up'.load 9 ∧ down.load 1 ≠ down'.load 1 ∧
      s.trace (requests up down) = s.trace (requests up' down') ∧
      (s.trace (requests up down)).map Observation.kicked = [[1, 2, 3], [2, 3], [], []] := by
  intro up up' down down' requests s
  have hup : up.Alike up' := by
    have hall : ∀ c ∈ up.online.toList, up.load c = up'.load c := by decide
    exact ⟨rfl, rfl, fun c hc => hall c (CpuMask.mem_toList.2 hc), rfl, rfl⟩
  have hdown : down.Alike down' := by
    have hall : ∀ c ∈ down.online.toList, down.load c = down'.load c := by decide
    exact ⟨rfl, rfl, fun c hc => hall c (CpuMask.mem_toList.2 hc), rfl, rfl⟩
  have hrequests : List.Forall₂ Request.Alike (requests up down) (requests up' down') :=
    .cons (.load hup) (.cons (.act hdown 1 _) (.cons (.act hdown 1 _)
      (.cons (.act hdown 1 .report) .nil)))
  exact ⟨by decide, by decide, offline_unseen s hrequests, by decide +kernel⟩

end System
end CpuSteward
