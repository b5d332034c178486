import CpuSteward.Namespace.Basic

/-!
# Paths

A path names a node by the names on the way from the root, separated by slashes.
Slashes at either end and slashes in a row mean nothing.

## Main definitions

* `Path.components`: the names on a path.
* `Namespace.walk?`: the node at the end of a way.
* `Namespace.resolve?`: the node that a path leads to.

## Main results

* `Path.components_append_slash`, `Path.components_of_validName`: the names on a path
  that is put together from names.
* `Namespace.walk?_append`: a way can be walked in two parts.
-/

namespace CpuSteward

namespace Path

/-- The parts of a text between its slashes, of which some may be empty. -/
def split : List Char → List (List Char)
  | [] => [[]]
  | c :: s =>
    if c = '/' then [] :: split s
    else
      match split s with
      | [] => [[c]]
      | part :: parts => (c :: part) :: parts

/-- The names on a path, from the root on. -/
def components (path : String) : List String :=
  ((split path.toList).filter fun part => !part.isEmpty).map String.ofList

@[simp] theorem split_nil : split [] = [[]] := rfl

@[simp] theorem split_slash (s : List Char) : split ('/' :: s) = [] :: split s := by
  simp [split]

theorem split_ne_nil (s : List Char) : split s ≠ [] := by
  cases s with
  | nil => simp
  | cons c s =>
    unfold split
    split
    · simp
    · split <;> simp

/-- The parts of two texts with a slash between them. -/
theorem split_append_slash (s r : List Char) : split (s ++ '/' :: r) = split s ++ split r := by
  induction s with
  | nil => simp
  | cons c s ih =>
    rw [List.cons_append, split, split, ih]
    split
    · rfl
    · cases hs : split s with
      | nil => exact absurd hs (split_ne_nil s)
      | cons part parts => rfl

theorem split_of_not_mem {s : List Char} (h : '/' ∉ s) : split s = [s] := by
  induction s with
  | nil => rfl
  | cons c s ih =>
    rw [List.mem_cons, not_or] at h
    rw [split, if_neg (Ne.symm h.1), ih h.2]

/-- The names on a path that is put together from two. -/
theorem components_append_slash (a b : String) :
    components (a ++ "/" ++ b) = components a ++ components b := by
  have hsplit : split (a ++ "/" ++ b).toList = split a.toList ++ split b.toList := by
    rw [← split_append_slash]
    simp
  rw [components, hsplit, List.filter_append, List.map_append]
  rfl

/-- A name is a path of its own. -/
theorem components_of_validName {name : String} (h : validName name = true) :
    components name = [name] := by
  obtain ⟨hne, hslash, -⟩ := validName_iff.1 h
  have hlist : name.toList ≠ [] := fun hnil => hne (String.toList_eq_nil_iff.1 hnil)
  rw [components, split_of_not_mem hslash]
  simp [hlist]

end Path

namespace Namespace

variable {ε : Type}

/-- The node at the end of the way that takes the named children one after the
other. -/
def walk? (ns : Namespace ε) : Node ε → List String → Option (Node ε)
  | node, [] => some node
  | node, name :: names => (ns.child? node name).bind fun child => ns.walk? child names

/-- The node that a path leads to from the root. -/
def resolve? (ns : Namespace ε) (path : String) : Option (Node ε) :=
  ns.walk? .root (Path.components path)

/-- The children of the directory that a path leads to. -/
def list? (ns : Namespace ε) (path : String) : Option (List (Node ε)) :=
  (ns.resolve? path).bind fun node =>
    if node.isDirectory then some (ns.children node.inode) else none

@[simp] theorem walk?_nil (ns : Namespace ε) (node : Node ε) : ns.walk? node [] = some node := rfl

@[simp] theorem walk?_cons (ns : Namespace ε) (node : Node ε) (name : String)
    (names : List String) :
    ns.walk? node (name :: names)
      = (ns.child? node name).bind fun child => ns.walk? child names := rfl

theorem walk?_append (ns : Namespace ε) (node : Node ε) (names names' : List String) :
    ns.walk? node (names ++ names')
      = (ns.walk? node names).bind fun child => ns.walk? child names' := by
  induction names generalizing node with
  | nil => rfl
  | cons name names ih =>
    simp only [List.cons_append, walk?_cons, Option.bind_assoc]
    congr 1
    funext child
    exact ih child

end Namespace
end CpuSteward
