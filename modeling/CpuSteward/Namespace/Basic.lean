/-!
# The file tree

The tree has directories and files.  Every node has a number, its inode, that no
other node ever gets, and a name that is unique among its siblings.  The children
of a directory are listed in the order in which they were made.

A node that was taken out of the tree is still a node: whoever kept it can go on
adding to it and looking into it, but no path leads there any more.

Inodes tell the nodes apart, so they are counted without end.  The kernel counts them
in one word, which comes round after `2 ^ 64` of them; `Node.number` and
`Namespace.counter` are what stands in that word.  No session lasts that long, see
`Session.numbers_fit`.

## Main definitions

* `Node`: a node, which never changes; `Namespace`: the children of every node.
* `Node.number`, `Namespace.counter`: an inode, and the next one, in one word.
* `Namespace.mkdir`, `Namespace.create`, `Namespace.remove?`: the changes.
* `Namespace.child?`: one step of a path.

## Main results

* `Namespace.children_setChildren`: a change of one list leaves the others alone.
-/

namespace CpuSteward

/-- Permission bits of a file. -/
structure Perm where
  /-- The bits: reading and writing for the owner, the group and all others. -/
  bits : UInt16
  deriving DecidableEq, Inhabited

namespace Perm

/-- The permission bits among sixteen; all others are dropped. -/
def ofBits (bits : UInt16) : Perm := ⟨bits &&& 0o666⟩

/-- A file that everyone reads and writes. -/
def readWrite : Perm := ofBits 0o666

/-- A file that everyone reads. -/
def readOnly : Perm := ofBits 0o444

/-- The bits of every directory. -/
def directory : Perm := ofBits 0o555

/-- Whether the owner may read. -/
def readable (p : Perm) : Bool := p.bits &&& 0o400 != 0

/-- Whether the owner may write. -/
def writable (p : Perm) : Bool := p.bits &&& 0o200 != 0

end Perm

/-- What a node is.  A file carries what serves its requests. -/
inductive Content (ε : Type) where
  /-- A directory. -/
  | directory
  /-- A file with its permission bits. -/
  | file (perm : Perm) (endpoint : ε)
  deriving DecidableEq

/-- A node of the tree. -/
structure Node (ε : Type) where
  /-- What tells the node from all others: the next inode when it was made. -/
  inode : Nat
  /-- The name among its siblings. -/
  name : String
  /-- What the node is. -/
  content : Content ε
  deriving DecidableEq

namespace Node

variable {ε : Type}

/-- Whether the node is a directory. -/
def isDirectory (n : Node ε) : Bool :=
  match n.content with
  | .directory => true
  | .file _ _ => false

/-- The permission bits of the node. -/
def perm (n : Node ε) : Perm :=
  match n.content with
  | .directory => .directory
  | .file perm _ => perm

/-- The number that the node is shown under: the inode as far as a word has it. -/
def number (n : Node ε) : UInt64 := .ofNat n.inode

/-- The root of the tree. -/
def root : Node ε := ⟨1, "/", .directory⟩

@[simp] theorem isDirectory_root : (root : Node ε).isDirectory = true := rfl

@[simp] theorem inode_root : (root : Node ε).inode = 1 := rfl

end Node

/-- The names that an entry can have: not empty, no slash, and neither of the two
names that mean a place relative to a directory. -/
def validName (name : String) : Bool :=
  !name.isEmpty && !name.toList.contains '/' && name != "." && name != ".."

/-- What it takes to be the name of an entry. -/
theorem validName_iff {name : String} :
    validName name = true ↔ name ≠ "" ∧ '/' ∉ name.toList ∧ name ≠ "." ∧ name ≠ ".." := by
  simp [validName, and_assoc]

/-- A file tree, with the nodes that were taken out of it. -/
structure Namespace (ε : Type) where
  /-- The children of the node with an inode, in order. -/
  children : Nat → List (Node ε)
  /-- The inode of the next node.  It never comes round, unlike `Namespace.counter`. -/
  nextInode : Nat

namespace Namespace

variable {ε : Type}

/-- The counter of the inodes as far as a word has it. -/
def counter (ns : Namespace ε) : UInt64 := .ofNat ns.nextInode

/-- The tree that has a root and nothing else. -/
def empty : Namespace ε := ⟨fun _ => [], 2⟩

instance : Inhabited (Namespace ε) := ⟨empty⟩

/-- Replace the children of one node. -/
def setChildren (ns : Namespace ε) (inode : Nat) (nodes : List (Node ε)) : Namespace ε :=
  { ns with children := fun i => if i = inode then nodes else ns.children i }

/-- The child of a node that has a name. -/
def child? (ns : Namespace ε) (parent : Node ε) (name : String) : Option (Node ε) :=
  (ns.children parent.inode).find? fun child => child.name == name

/-- Make a node below a directory.  A name that no entry can have, and a parent
that is a file, are refused at once; a name that is taken still uses an inode
up. -/
def add (ns : Namespace ε) (parent : Node ε) (name : String) (content : Content ε) :
    Option (Node ε) × Namespace ε :=
  if validName name && parent.isDirectory then
    let node : Node ε := ⟨ns.nextInode, name, content⟩
    let siblings := ns.children parent.inode
    let ns' := { ns with nextInode := ns.nextInode + 1 }
    if siblings.any fun child => child.name == name then (none, ns')
    else (some node, ns'.setChildren parent.inode (siblings ++ [node]))
  else (none, ns)

/-- Make a directory. -/
def mkdir (ns : Namespace ε) (parent : Node ε) (name : String) :
    Option (Node ε) × Namespace ε :=
  ns.add parent name .directory

/-- Make a file. -/
def create (ns : Namespace ε) (parent : Node ε) (name : String) (perm : Perm) (endpoint : ε) :
    Option (Node ε) × Namespace ε :=
  ns.add parent name (.file perm endpoint)

/-- Take the child with a name out of the tree, and its own children off it. -/
def remove? (ns : Namespace ε) (parent : Node ε) (name : String) : Option (Namespace ε) :=
  (ns.child? parent name).map fun node =>
    let rest := (ns.children parent.inode).eraseP fun child => child.name == name
    (ns.setChildren parent.inode rest).setChildren node.inode []

/-! ### The children after a change -/

@[simp] theorem children_setChildren (ns : Namespace ε) (inode i : Nat) (nodes : List (Node ε)) :
    (ns.setChildren inode nodes).children i = if i = inode then nodes else ns.children i := rfl

@[simp] theorem nextInode_setChildren (ns : Namespace ε) (inode : Nat) (nodes : List (Node ε)) :
    (ns.setChildren inode nodes).nextInode = ns.nextInode := rfl

@[simp] theorem children_empty (i : Nat) : (empty : Namespace ε).children i = [] := rfl

/-- The child that a name leads to has that name. -/
theorem name_of_child? {ns : Namespace ε} {parent node : Node ε} {name : String}
    (h : ns.child? parent name = some node) : node.name = name := by
  have := List.find?_some h
  simpa using this

theorem mem_of_child? {ns : Namespace ε} {parent node : Node ε} {name : String}
    (h : ns.child? parent name = some node) : node ∈ ns.children parent.inode :=
  List.mem_of_find?_eq_some h

end Namespace
end CpuSteward
