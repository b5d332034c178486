import CpuSteward.System.Basic

/-!
# Loading and unloading

To load a control plane is to make its directory below the root of the tree, with
a file for every tunable and one for the report, and then to start the load
monitor.  Where the name of the directory is taken, nothing is made.  Should any
later entry be refused, the directory is taken out of the tree again.

To unload it is to disable rebalancing, run one last pass, and take the directory
out of the tree.

## Main definitions

* `System.populate`: the entries below the directory.
* `System.load`, `System.unload`.
-/

namespace CpuSteward
namespace System

/-- Make the directories of the groups below the directory of the control plane.
The result tells where the files of each group belong. -/
def addGroups (top : Node Endpoint) :
    List TunableGroup → Namespace Endpoint →
      Except LoadError (TunableGroup → Node Endpoint) × Namespace Endpoint
  | [], tree => (.ok fun _ => top, tree)
  | group :: groups, tree =>
    match group.directory? with
    | none => addGroups top groups tree
    | some name =>
      match tree.mkdir top name with
      | (none, tree) => (.error (.entryNotCreated name), tree)
      | (some node, tree) =>
        match addGroups top groups tree with
        | (.error cause, tree) => (.error cause, tree)
        | (.ok place, tree) => (.ok fun g => if g = group then node else place g, tree)

/-- What the file of a tunable of a controller stands for. -/
def endpointOf (owner : ControllerId) (t : Tunable) : Endpoint :=
  if t = .saveGov then .governors owner owner else .tunable owner t

/-- The permission bits of the file of a tunable. -/
def permOf (t : Tunable) : Perm :=
  match t.spec.access with
  | .readWrite => .readWrite
  | .readOnly => .readOnly

/-- Make the files of some tunables, each where its group belongs. -/
def addTunables (owner : ControllerId) (place : TunableGroup → Node Endpoint) :
    List Tunable → Namespace Endpoint → Except LoadError Unit × Namespace Endpoint
  | [], tree => (.ok (), tree)
  | t :: ts, tree =>
    match tree.create (place t.spec.group) t.name (permOf t) (endpointOf owner t) with
    | (none, tree) => (.error (.entryNotCreated t.path), tree)
    | (some _, tree) => addTunables owner place ts tree

/-- Make the file of the report. -/
def addReport (owner : ControllerId) (top : Node Endpoint) (tree : Namespace Endpoint) :
    Except LoadError Unit × Namespace Endpoint :=
  match tree.create top Identity.reportFile .readOnly (.report owner) with
  | (none, tree) => (.error (.entryNotCreated Identity.reportFile), tree)
  | (some _, tree) => (.ok (), tree)

/-- Make all entries below the directory of a control plane. -/
def populate (owner : ControllerId) (top : Node Endpoint) (tree : Namespace Endpoint) :
    Except LoadError Unit × Namespace Endpoint :=
  match addGroups top TunableGroup.all tree with
  | (.error cause, tree) => (.error cause, tree)
  | (.ok place, tree) =>
    match addTunables owner place Tunable.all tree with
    | (.error cause, tree) => (.error cause, tree)
    | (.ok (), tree) => addReport owner top tree

/-- Make the directory of a control plane and all that is below it. -/
def register (owner : ControllerId) (s : System) : Response (Except LoadError Unit) :=
  match s.tree.mkdir .root Identity.directory with
  | (none, tree) =>
    { result := .error (.entryNotCreated Identity.directory), system := { s with tree } }
  | (some top, tree) =>
    match populate owner top tree with
    | (.ok (), tree) => { result := .ok (), system := { s with tree } }
    | (.error cause, tree) =>
      let removed := { s with tree : System }.remove .root Identity.directory
      { result := .error cause, system := removed.system, log := removed.log }

/-- Load a control plane.  The result is the number of its controller. -/
def load (s : System) (k : Kernel) : Response (Except LoadError ControllerId) :=
  let owner := s.nextController
  let registered := s.register owner
  match registered.result with
  | .error cause =>
    { result := .error cause
      system := registered.system
      log := registered.log ++ [.loadFailed cause] }
  | .ok () =>
    let created :=
      { registered.system.setController owner {} with nextController := owner + 1 }
    let sized := created.resize k owner
    let first := sized.system.event k owner .tick
    { result := .ok owner
      system := first.system
      kicked := first.kicked
      log := registered.log ++ sized.log ++ first.log ++ [.loaded Tunable.all.length] }

/-- Unload a control plane.  The result is its last pass. -/
def unload (s : System) (k : Kernel) (id : ControllerId) : Response Pass :=
  let last := (s.enable id false).force k id
  let removed := last.system.remove .root Identity.directory
  let failure := match removed.result with
    | .ok () => []
    | .error cause => [Notice.removalFailed cause]
  let rebalances := (removed.system.controller id).registry.get .nrRebalance
  { result := last.result
    system := removed.system
    kicked := last.kicked
    log := last.log ++ removed.log ++ failure ++ [.unloaded rebalances] }

end System
end CpuSteward
