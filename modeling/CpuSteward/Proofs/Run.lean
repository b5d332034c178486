import CpuSteward.Proofs.Write
import CpuSteward.System.Lifecycle

/-!
# Runs

A step is one action at one kernel state, and a run is a list of steps.  Most
actions go to one controller; a request to a file goes wherever its path leads.  A
run may put the actions for several controllers in any order.

The states of a run, the passes completed in it and the writes accepted in it are
lists in the order of time, and a statement about every state or about the latest pass
is one about these lists.

## Main definitions

* `Action`, `Step` — what can be asked of a control plane, and when.
* `System.act` — one step; its `Reply` is what the caller sees of it.
* `System.run`, `System.states` — the system after a run, and on its way.
* `System.gather` — what the steps of a run yield; with it `System.passes` and
  `System.writes`.
* `System.pass?`, `System.written?` — the pass that one step completes, and the
  write from outside that it carries out.

## Main results

* `System.run_invariant` — **what every step keeps, a run keeps.**
* `System.pairwise_gather` — a relation along all that a run yields.
-/

namespace CpuSteward

/-- What can be asked of a control plane. -/
inductive Action where
  /-- Look at the load because of an event. -/
  | event (e : CpuEvent)
  /-- Announce an event in the log, and look at the load because of it. -/
  | notify (e : CpuEvent)
  /-- The hardware tick. -/
  | tick
  /-- A pass that the gate has no say in. -/
  | force
  /-- Set the starting values for the CPUs that are online. -/
  | resize
  /-- Enable or disable rebalancing. -/
  | enable (enabled : Bool)
  /-- Write a buffer to a tunable. -/
  | set (t : Tunable) (bytes : ByteArray)
  /-- Write a value to a tunable. -/
  | setValue (t : Tunable) (v : Int32)
  /-- Give a tunable a value from within, whatever it is. -/
  | put (t : Tunable) (v : Int32)
  /-- Give every tunable its default. -/
  | reset
  /-- Look at the report. -/
  | report
  /-- Read a file. -/
  | read (path : String)
  /-- Write a buffer to a file. -/
  | write (path : String) (bytes : ByteArray)

/-- Whether an action leaves it to the control plane which values the tunables get. -/
def Action.checked : Action → Bool
  | put _ _ => false
  | _ => true

/-- One action at one kernel state. -/
structure Step where
  kernel : Kernel
  /-- The controller that the action goes to; a request to a file does not look at it. -/
  target : ControllerId
  action : Action

/-- The clock reading of a step. -/
def Step.now (st : Step) : UInt64 := st.kernel.now

/-- One value of one tunable of one controller. -/
structure Assignment where
  owner : ControllerId
  tunable : Tunable
  value : Int32
  deriving DecidableEq

/-- What the caller of an action sees of it: the result in the form that the action has. -/
inductive Reply where
  | outcome (o : Outcome)
  | ticked (o : Option Outcome)
  | pass (p : Pass)
  | sizing (z : Sizing)
  | set (r : Except SetError Unit)
  | text (s : String)
  | content (r : Except AccessError ByteArray)
  | written (r : Except AccessError Nat)
  | done

namespace Reply

/-- The pass that an action completed. -/
def pass? : Reply → Option Pass
  | outcome o => o.pass?
  | ticked o => o.bind Outcome.pass?
  | pass p => some p
  | _ => none

/-- Whether an action was a write from outside that was accepted. -/
def accepted : Reply → Bool
  | set (.ok _) => true
  | written (.ok _) => true
  | _ => false

end Reply

/-- The same response with its result in another form. -/
def Response.map {α β : Type} (f : α → β) (r : Response α) : Response β :=
  { result := f r.result, system := r.system, kicked := r.kicked, log := r.log }

namespace System

/-- The response of a tunable of a controller to a write. -/
def update (s : System) (id : ControllerId) : Except SetError Registry → Response Reply
  | .ok registry => { result := .set (.ok ()), system := s.setRegistry id registry }
  | .error cause => { result := .set (.error cause), system := s }

/-- One step. -/
def act (s : System) (st : Step) : Response Reply :=
  let registry := (s.controller st.target).registry
  match st.action with
  | .event e => (s.event st.kernel st.target e).map .outcome
  | .notify e => (s.notify st.kernel st.target e).map .outcome
  | .tick => (s.tick st.kernel st.target).map .ticked
  | .force => (s.force st.kernel st.target).map .pass
  | .resize => (s.resize st.kernel st.target).map .sizing
  | .enable enabled => { result := .done, system := s.enable st.target enabled }
  | .set t bytes => s.update st.target (registry.set t bytes)
  | .setValue t v => s.update st.target (registry.setValue t v)
  | .put t v => { result := .done, system := s.setRegistry st.target (registry.put t v) }
  | .reset => { result := .done, system := s.setRegistry st.target .defaults }
  | .report => { result := .text (s.report st.kernel st.target), system := s }
  | .read path => { result := .content (s.read st.kernel path), system := s }
  | .write path bytes => (s.write st.kernel path bytes).map .written

/-- The tunable behind the file that a path leads to, and the controller it belongs to. -/
def targetAt? (s : System) (path : String) : Option (ControllerId × Tunable) :=
  (s.tree.resolve? path).bind fun node =>
    match node.content with
    | .directory => none
    | .file _ endpoint => endpoint.target?

/-- The assignment that a step asks for from outside, if it asks for one. -/
def asked? (s : System) (st : Step) : Option Assignment :=
  match st.action with
  | .set t bytes => (IntLiteral.read? bytes).map fun v => ⟨st.target, t, v⟩
  | .setValue t v => some ⟨st.target, t, v⟩
  | .write path bytes =>
    (s.targetAt? path).bind fun (owner, t) =>
      (IntLiteral.read? bytes).map fun v => ⟨owner, t, v⟩
  | _ => none

/-- The assignment that a step carries out from outside. -/
def written? (s : System) (st : Step) : Option Assignment :=
  if (s.act st).result.accepted then s.asked? st else none

/-- The pass of a controller that a step completes. -/
def pass? (s : System) (id : ControllerId) (st : Step) : Option Pass :=
  if st.target = id then (s.act st).result.pass? else none

/-- The system after a run. -/
def run (s : System) : List Step → System
  | [] => s
  | st :: sts => (s.act st).system.run sts

/-- The system before, during and after a run. -/
def states (s : System) : List Step → List System
  | [] => [s]
  | st :: sts => s :: (s.act st).system.states sts

/-- What the steps of a run yield, in order. -/
def gather {α : Type} (f : System → Step → Option α) (s : System) : List Step → List α
  | [] => []
  | st :: sts => (f s st).toList ++ gather f (s.act st).system sts

/-- The passes of a controller in a run. -/
def passes (s : System) (id : ControllerId) (steps : List Step) : List Pass :=
  s.gather (fun s st => s.pass? id st) steps

/-- The assignments from outside that are accepted in a run. -/
def writes (s : System) (steps : List Step) : List Assignment := s.gather written? steps

/-! ### Runs in two parts -/

variable {α : Type} (f : System → Step → Option α) (s : System)

@[simp] theorem run_nil : s.run [] = s := rfl

@[simp] theorem run_cons (st : Step) (sts : List Step) :
    s.run (st :: sts) = (s.act st).system.run sts := rfl

@[simp] theorem gather_nil : s.gather f [] = [] := rfl

@[simp] theorem gather_cons (st : Step) (sts : List Step) :
    s.gather f (st :: sts) = (f s st).toList ++ (s.act st).system.gather f sts := rfl

theorem run_append (steps steps' : List Step) :
    s.run (steps ++ steps') = (s.run steps).run steps' := by
  induction steps generalizing s with
  | nil => rfl
  | cons st sts ih => exact ih _

/-- What every step of a certain kind keeps, a run of such steps keeps. -/
theorem run_invariant {P : System → Prop} {K : Step → Prop}
    (hstep : ∀ s st, K st → P s → P (s.act st).system) {s : System} {steps : List Step}
    (hk : ∀ st ∈ steps, K st) (h : P s) : P (s.run steps) := by
  induction steps generalizing s with
  | nil => exact h
  | cons st sts ih =>
    obtain ⟨hst, hsts⟩ := List.forall_mem_cons.1 hk
    exact ih hsts (hstep s st hst h)

/-- The state after the first part of a run is one of its states. -/
theorem run_mem_states (steps steps' : List Step) : s.run steps ∈ s.states (steps ++ steps') := by
  induction steps generalizing s with
  | nil => cases steps' <;> exact List.mem_cons_self
  | cons st sts ih => exact List.mem_cons_of_mem s (ih _)

/-- What a run yields, one of its steps yields. -/
theorem exists_of_mem_gather {steps : List Step} {a : α} (h : a ∈ s.gather f steps) :
    ∃ before st after, steps = before ++ st :: after ∧ f (s.run before) st = some a := by
  induction steps generalizing s with
  | nil => cases h
  | cons st sts ih =>
    rw [gather_cons, List.mem_append, Option.mem_toList] at h
    rcases h with h | h
    · exact ⟨[], st, sts, rfl, h⟩
    · obtain ⟨before, st', after, rfl, ha⟩ := ih _ h
      exact ⟨st :: before, st', after, rfl, ha⟩

/-- A relation between what any two steps of a run yield holds along all it yields. -/
theorem pairwise_gather {R : α → α → Prop} {steps : List Step}
    (h : ∀ before st between st' after, steps = before ++ st :: (between ++ st' :: after) →
      ∀ a b, f (s.run before) st = some a → f (s.run (before ++ st :: between)) st' = some b →
        R a b) :
    (s.gather f steps).Pairwise R := by
  induction steps generalizing s with
  | nil => exact List.Pairwise.nil
  | cons st sts ih =>
    rw [gather_cons, List.pairwise_append]
    -- one step yields at most one thing, so only pairs with a later step are left
    refine ⟨?_, ih _ fun before st₁ between st₂ after he => ?_, fun a ha b hb => ?_⟩
    · cases f s st with
      | none => exact List.Pairwise.nil
      | some a => exact List.pairwise_singleton R a
    · exact h (st :: before) st₁ between st₂ after (congrArg (st :: ·) he)
    · obtain ⟨between, st', after, he, hb⟩ := exists_of_mem_gather f _ hb
      exact h [] st between st' after (congrArg (st :: ·) he) a b (Option.mem_toList.1 ha) hb

end System
end CpuSteward
