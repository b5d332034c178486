import CpuSteward.Namespace.Path
import CpuSteward.Report

/-!
# The system

A system is a file tree together with all controllers that exist beside it.  A
file of the tree stands for something of a controller: a tunable, the request to
record the governors, or the report.

An operation on the system leads to a `Response`: the result, the system after
it, the CPUs that were made to reschedule, and the log records.

Operations come one after the other, and each finds the system as the one before has
left it.  Two that overlap in time, on two CPUs, are not described here, so neither is
the case that one of them loses the gate, the timer or a count to the other.

## Main definitions

* `Endpoint`: what a file stands for.
* `System`, `Response`.
* `System.read`, `System.write`: requests to files.
* `System.event`, `System.tick`, `System.force`, `System.resize`: what drives one
  controller.
-/

namespace CpuSteward

/-- The number of a controller in a system. -/
abbrev ControllerId := Nat

/-- What a file stands for. -/
inductive Endpoint where
  /-- A tunable of a controller. -/
  | tunable (owner : ControllerId) (t : Tunable)
  /-- The request to record the governors: a tunable of one controller, and the
  table of the controller that keeps the names. -/
  | governors (owner keeper : ControllerId)
  /-- The report of a controller. -/
  | report (owner : ControllerId)
  /-- Bytes that never change. -/
  | fixed (content : ByteArray)

/-- A file tree and the controllers beside it. -/
structure System where
  /-- The file tree. -/
  tree : Namespace Endpoint := .empty
  /-- The controllers; one that was never loaded is as good as new. -/
  controller : ControllerId → Controller := fun _ => {}
  /-- The number of the next controller to be loaded. -/
  nextController : ControllerId := 1
  deriving Inhabited

/-- What an operation on a system leads to. -/
structure Response (α : Type) where
  /-- The result. -/
  result : α
  /-- The system afterwards. -/
  system : System
  /-- The CPUs that were made to reschedule, in order. -/
  kicked : List Nat := []
  /-- The log records, in order. -/
  log : List Notice := []

namespace System

/-- Replace one controller. -/
def setController (s : System) (id : ControllerId) (c : Controller) : System :=
  { s with controller := fun i => if i = id then c else s.controller i }

/-- Change the registry of one controller. -/
def setRegistry (s : System) (id : ControllerId) (r : Registry) : System :=
  s.setController id { s.controller id with registry := r }

/-! ### Requests to files -/

/-- The bytes that reading a file yields. -/
def content (s : System) (k : Kernel) : Endpoint → ByteArray
  | .tunable owner t => (Decimal.ofInt32 ((s.controller owner).registry.get t) ++ "\n").toUTF8
  | .governors owner _ =>
    (Decimal.ofInt32 ((s.controller owner).registry.get .saveGov) ++ "\n").toUTF8
  | .report owner => (Report.render (s.controller owner) k).toUTF8
  | .fixed content => content

/-- Read the file that a path leads to. -/
def read (s : System) (k : Kernel) (path : String) : Except AccessError ByteArray :=
  match s.tree.resolve? path with
  | none => .error .noEntry
  | some node =>
    match node.content with
    | .directory => .error .isDirectory
    | .file perm endpoint =>
      if perm.readable then .ok (s.content k endpoint) else .error .permissionDenied

/-- Write a buffer to a tunable. -/
def writeTunable (s : System) (owner : ControllerId) (t : Tunable) (bytes : ByteArray) :
    Response (Except AccessError Nat) :=
  match (s.controller owner).registry.set t bytes with
  | .error cause =>
    { result := .error (.ofSetError cause), system := s, log := [.writeRejected t.path cause] }
  | .ok registry => { result := .ok bytes.size, system := s.setRegistry owner registry }

/-- Record the governors in use in the table of one controller. -/
def saveGovernors (s : System) (k : Kernel) (keeper : ControllerId) : Response Nat where
  result := k.governorCount
  system := s.setController keeper ((s.controller keeper).saveGovernors k)
  log := k.policyRecords.map PolicyRecord.notice

/-- Write a buffer to what a file stands for. -/
def writeEndpoint (s : System) (k : Kernel) (bytes : ByteArray) :
    Endpoint → Response (Except AccessError Nat)
  | .tunable owner t => s.writeTunable owner t bytes
  | .governors owner keeper =>
    let written := s.writeTunable owner .saveGov bytes
    match written.result with
    | .error _ => written
    | .ok _ =>
      let saved := written.system.saveGovernors k keeper
      { written with
        system := saved.system
        log := written.log ++ saved.log ++ [.governorsRecorded saved.result] }
  | .report _ => { result := .error .permissionDenied, system := s }
  | .fixed _ => { result := .error .permissionDenied, system := s }

/-- Write a buffer to the file that a path leads to; the result is how many bytes
were taken. -/
def write (s : System) (k : Kernel) (path : String) (bytes : ByteArray) :
    Response (Except AccessError Nat) :=
  match s.tree.resolve? path with
  | none => { result := .error .noEntry, system := s }
  | some node =>
    match node.content with
    | .directory => { result := .error .isDirectory, system := s }
    | .file perm endpoint =>
      if perm.writable then s.writeEndpoint k bytes endpoint
      else { result := .error .permissionDenied, system := s }

/-! ### Changes of the tree -/

/-- Make a directory. -/
def mkdir (s : System) (parent : Node Endpoint) (name : String) : Option (Node Endpoint) × System :=
  let (node, tree) := s.tree.mkdir parent name
  (node, { s with tree })

/-- Make a file. -/
def create (s : System) (parent : Node Endpoint) (name : String) (perm : Perm)
    (endpoint : Endpoint) : Option (Node Endpoint) × System :=
  let (node, tree) := s.tree.create parent name perm endpoint
  (node, { s with tree })

/-- Take a child of a node out of the tree. -/
def remove (s : System) (parent : Node Endpoint) (name : String) :
    Response (Except AccessError Unit) :=
  match s.tree.remove? parent name with
  | none => { result := .error .noEntry, system := s }
  | some tree => { result := .ok (), system := { s with tree }, log := [.entryRemoved name] }

/-! ### What drives a controller -/

/-- An event for a controller, without an announcement in the log. -/
def event (s : System) (k : Kernel) (id : ControllerId) (e : CpuEvent) : Response Outcome :=
  let (outcome, c) := (s.controller id).event k
  { result := outcome
    system := s.setController id c
    kicked := outcome.kicked
    log := outcome.notices e }

/-- An event for a controller that is announced in the log. -/
def notify (s : System) (k : Kernel) (id : ControllerId) (e : CpuEvent) : Response Outcome :=
  let response := s.event k id e
  { response with log := e.notices ++ response.log }

/-- The hardware tick for a controller. -/
def tick (s : System) (k : Kernel) (id : ControllerId) : Response (Option Outcome) :=
  let (outcome, c) := (s.controller id).tick k
  { result := outcome
    system := s.setController id c
    kicked := outcome.elim [] Outcome.kicked
    log := outcome.elim [] (Outcome.notices .tick) }

/-- A pass of a controller that the gate has no say in. -/
def force (s : System) (k : Kernel) (id : ControllerId) : Response Pass :=
  let (pass, c) := (s.controller id).force k
  { result := pass, system := s.setController id c, kicked := pass.kicked, log := pass.notices }

/-- Set the starting values of a controller. -/
def resize (s : System) (k : Kernel) (id : ControllerId) : Response Sizing :=
  let (sizing, c) := (s.controller id).resize k
  { result := sizing
    system := s.setController id c
    log := [.sized (.ofNat k.online.card) sizing] }

/-- Enable or disable rebalancing for a controller. -/
def enable (s : System) (id : ControllerId) (enabled : Bool) : System :=
  s.setController id ((s.controller id).enable enabled)

/-- The text of the report of a controller. -/
def report (s : System) (k : Kernel) (id : ControllerId) : String :=
  Report.render (s.controller id) k

/-! ### The parts after a change -/

@[simp] theorem tree_setController (s : System) (id : ControllerId) (c : Controller) :
    (s.setController id c).tree = s.tree := rfl

@[simp] theorem controller_setController (s : System) (id i : ControllerId) (c : Controller) :
    (s.setController id c).controller i = if i = id then c else s.controller i := rfl

end System
end CpuSteward
