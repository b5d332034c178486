import CpuSteward.Proofs.Removal

/-!
# Ways and paths

A node is found by the names of the nodes above it and its own.  In a forest that requests
lead to, siblings have different names and a node is in one list at most.  So a way down is
told by its names, and the names by the node at its end.  A path is a spelling of such names,
and the shortest spelling is a name of the node in its own right.

## Main definitions

* `Path.Spells` — the names that a text spells, whatever slashes are around them.
* `Path.ofNames`, `Path.IsNormal` — the spelling without a slash too many.
* `Namespace.Way` — the names along a chain of children.

## Main results

* `Path.spells_iff` — every text spells one list of names.
* `Path.components_ofNames` — the shortest spelling of names spells them.
* `Forest.Sound.walk?_eq_some_iff` — to walk is to go down a way.
* `Forest.Sound.way_unique` — one way only leads from the root to a node.
* `Forest.resolution_exact` — **a path leads exactly where its names lead.**
-/

namespace CpuSteward

namespace Path

variable {s : List Char} {names : List String} {name path : String}

/-! ### What a text spells -/

/-- The text consists of the names, in order, with a slash at least between two of them and
any slashes before and after. -/
inductive Spells : List Char → List String → Prop where
  | nil : Spells [] []
  | slash {s : List Char} {names : List String} (h : Spells s names) : Spells ('/' :: s) names
  /-- A name at the end. -/
  | last {part : List Char} (hne : part ≠ []) (hs : '/' ∉ part) :
      Spells part [String.ofList part]
  /-- A name that a slash closes. -/
  | name {part s : List Char} {names : List String} (hne : part ≠ []) (hs : '/' ∉ part)
      (h : Spells s names) : Spells (part ++ '/' :: s) (String.ofList part :: names)

/-- The names in some parts, of which the empty ones name nothing. -/
def namesOf (parts : List (List Char)) : List String :=
  (parts.filter fun part => !part.isEmpty).map String.ofList

theorem namesOf_cons_nil (parts : List (List Char)) : namesOf ([] :: parts) = namesOf parts := rfl

theorem namesOf_cons {part : List Char} (hne : part ≠ []) (parts : List (List Char)) :
    namesOf (part :: parts) = String.ofList part :: namesOf parts := by
  simp [namesOf, hne]

/-- A text is one part, or a part, a slash, and a shorter text. -/
theorem eq_or_exists_slash (s : List Char) :
    '/' ∉ s ∨ ∃ part r, s = part ++ '/' :: r ∧ '/' ∉ part := by
  by_cases h : '/' ∈ s
  · obtain ⟨part, r, hs, hpart⟩ := List.eq_append_cons_of_mem h
    exact Or.inr ⟨part, r, hs, hpart⟩
  · exact Or.inl h

theorem spells_namesOf_split (s : List Char) : Spells s (namesOf (split s)) := by
  induction hn : s.length using Nat.strong_induction_on generalizing s with
  | _ n ih =>
    subst hn
    rcases eq_or_exists_slash s with hs | ⟨part, r, rfl, hpart⟩
    · rw [split_of_not_mem hs]
      cases s with
      | nil => exact .nil
      | cons c s =>
        rw [namesOf_cons (List.cons_ne_nil c s)]
        exact .last (List.cons_ne_nil c s) hs
    · have hrest : Spells r (namesOf (split r)) :=
        ih r.length (by simp only [List.length_append, List.length_cons]; omega) r rfl
      rw [split_append_slash, split_of_not_mem hpart, List.singleton_append]
      cases part with
      | nil => exact .slash hrest
      | cons c part =>
        rw [namesOf_cons (List.cons_ne_nil c part)]
        exact .name (List.cons_ne_nil c part) hpart hrest

theorem Spells.eq_namesOf_split (h : Spells s names) : names = namesOf (split s) := by
  induction h with
  | nil => rfl
  | slash h ih => rw [split_slash, namesOf_cons_nil, ih]
  | last hne hs =>
    rw [split_of_not_mem hs, namesOf_cons hne, namesOf, List.filter_nil, List.map_nil]
  | name hne hs h ih =>
    rw [split_append_slash, split_of_not_mem hs, List.singleton_append, namesOf_cons hne, ih]

/-- **Every text spells one list of names.** -/
theorem spells_iff : Spells path.toList names ↔ components path = names := by
  have hcomponents : components path = namesOf (split path.toList) := rfl
  constructor
  · intro h
    rw [hcomponents, h.eq_namesOf_split]
  · rintro rfl
    exact spells_namesOf_split path.toList

/-! ### The shortest spelling -/

/-- The names with one slash between two of them. -/
def ofNames : List String → String
  | [] => ""
  | [name] => name
  | name :: next :: names => name ++ "/" ++ ofNames (next :: names)

/-- There is no slash too many in the path. -/
def IsNormal (path : String) : Prop := ofNames (components path) = path

/-- What is neither empty nor has a slash in it spells itself. -/
theorem components_of_not_mem (hne : name ≠ "") (hs : '/' ∉ name.toList) :
    components name = [name] := by
  have hlist : name.toList ≠ [] := fun hnil => hne (String.toList_eq_nil_iff.1 hnil)
  rw [← spells_iff]
  have h := Spells.last hlist hs
  rwa [String.ofList_toList] at h

/-- The shortest spelling of names spells them. -/
theorem components_ofNames (h : ∀ name ∈ names, name ≠ "" ∧ '/' ∉ name.toList) :
    components (ofNames names) = names := by
  induction names with
  | nil => rfl
  | cons name names ih =>
    obtain ⟨⟨hne, hs⟩, hnames⟩ := List.forall_mem_cons.1 h
    cases names with
    | nil => exact components_of_not_mem hne hs
    | cons next names =>
      rw [ofNames, components_append_slash, components_of_not_mem hne hs, ih hnames,
        List.singleton_append]

end Path

namespace Namespace

variable {ε : Type} {ns : Namespace ε} {a b c n : Node ε} {names names' : List String}

/-- The names along a chain of children that leads down from a node. -/
inductive Way (ns : Namespace ε) (a : Node ε) : List String → Node ε → Prop where
  | start : Way ns a [] a
  | step {names : List String} {b c : Node ε} (h : Way ns a names b) (hc : ns.Child b c) :
      Way ns a (names ++ [c.name]) c

/-- A way can be longer at its upper end. -/
theorem Way.cons (hc : ns.Child a c) (h : ns.Way c names n) : ns.Way a (c.name :: names) n := by
  induction h with
  | start => exact .step .start hc
  | step _ hn ih => exact ih.step hn

theorem Way.trans (h : ns.Way a names b) (h' : ns.Way b names' c) :
    ns.Way a (names ++ names') c := by
  induction h' with
  | start => rwa [List.append_nil]
  | step _ hc ih =>
    rw [← List.append_assoc]
    exact ih.step hc

/-- Ways are the ways down, with their names put to them. -/
theorem exists_way_iff : (∃ names, ns.Way a names n) ↔ Relation.ReflTransGen ns.Child a n := by
  constructor
  · rintro ⟨names, h⟩
    induction h with
    | start => exact .refl
    | step _ hc ih => exact ih.tail hc
  · intro h
    induction h with
    | refl => exact ⟨[], .start⟩
    | tail _ hc ih =>
      obtain ⟨names, h⟩ := ih
      exact ⟨_, h.step hc⟩

end Namespace

namespace Forest

variable {ε : Type} {f : Forest ε} {a n x y : Node ε} {names names' : List String}
  {path : String}

open Namespace (Way)

/-- To walk is to go down a way. -/
theorem Sound.walk?_eq_some_iff (hf : f.Sound) :
    f.tree.walk? a names = some n ↔ f.tree.Way a names n := by
  constructor
  · intro h
    induction names generalizing a with
    | nil =>
      cases h
      exact .start
    | cons name names ih =>
      rw [Namespace.walk?_cons, Option.bind_eq_some_iff] at h
      obtain ⟨c, hc, h⟩ := h
      obtain ⟨hmem, rfl⟩ := hf.child?_eq_some_iff.1 hc
      exact (ih h).cons hmem
  · intro h
    induction h with
    | start => rfl
    | step _ hc ih =>
      -- the name of a child leads to this child, since it is the only one of that name
      rw [Namespace.walk?_append, ih, Option.bind_some, Namespace.walk?_cons,
        hf.child?_eq_some_iff.2 ⟨hc, rfl⟩]
      rfl

theorem Sound.resolve?_eq_some_iff (hf : f.Sound) :
    f.tree.resolve? path = some n ↔ f.tree.Way .root (Path.components path) n :=
  hf.walk?_eq_some_iff

theorem Sound.held_of_way (hf : f.Sound) (ha : a ∈ f.held) (h : f.tree.Way a names n) :
    n ∈ f.held := by
  cases h with
  | start => exact ha
  | step _ hc => exact hf.listed hc

/-- The names on a way are good names. -/
theorem Sound.validName_of_way (hf : f.Sound) (h : f.tree.Way a names n) :
    ∀ name ∈ names, validName name = true := by
  induction h with
  | start => exact List.forall_mem_nil _
  | step _ hc ih =>
    intro name hname
    rcases List.mem_append.1 hname with hname | hname
    · exact ih name hname
    · cases List.mem_singleton.1 hname
      exact hf.valid hc

/-- One way only leads from the root to a node. -/
theorem Sound.way_unique (hf : f.Sound) (h : f.tree.Way .root names x)
    (h' : f.tree.Way .root names' x) : names = names' := by
  induction h generalizing names' with
  | start =>
    cases h' with
    | start => rfl
    | step _ hc => exact absurd hc (hf.root_not_mem _)
  | step hp hc ih =>
    cases h' with
    | start => exact absurd hc (hf.root_not_mem _)
    | step hp' hc' =>
      -- the last step of both is from the one node that has the child
      have hparent := hf.unique (hf.held_of_way hf.root hp) (hf.held_of_way hf.root hp')
        (hf.single hc hc')
      subst hparent
      rw [ih hp']

/-- Nothing is below a file. -/
theorem Sound.eq_nil_of_way (hf : f.Sound) (hx : x ∈ f.held) (hfile : x.isDirectory = false)
    (h : f.tree.Way x names n) : names = [] := by
  cases names with
  | nil => rfl
  | cons name names =>
    rw [← hf.walk?_eq_some_iff, Namespace.walk?_cons, Option.bind_eq_some_iff] at h
    obtain ⟨c, hc, -⟩ := h
    have hmem := Namespace.mem_of_child? hc
    rw [hf.files hx hfile] at hmem
    cases hmem

/-! ### Normal paths -/

/-- The shortest spelling of the names on a way is a path to its end, the only normal one. -/
theorem Sound.existsUnique_normal (hf : f.Sound) (h : f.tree.Way .root names x) :
    ∃! path, Path.IsNormal path ∧ f.tree.resolve? path = some x := by
  have hcomponents : Path.components (Path.ofNames names) = names := by
    refine Path.components_ofNames fun name hname => ?_
    obtain ⟨hne, hs, -⟩ := validName_iff.1 (hf.validName_of_way h name hname)
    exact ⟨hne, hs⟩
  refine ⟨Path.ofNames names, ⟨?_, ?_⟩, ?_⟩
  · rw [Path.IsNormal, hcomponents]
  · rw [hf.resolve?_eq_some_iff, hcomponents]
    exact h
  · rintro path ⟨hnormal, hpath⟩
    rw [← hnormal, hf.way_unique (hf.resolve?_eq_some_iff.1 hpath) h]

/-- **A path leads exactly where its names lead.**  It leads to a node if and only if what it
spells are the names along the chain of children from the root to the node.  So each node
below the root has one normal path, no two normal paths lead to the same node, and it is only
the names of a path that count.  A path goes on where its first part ends.  Names that mean a
place relative to a directory lead nowhere, and neither does what goes on below a file. -/
theorem resolution_exact (hf : f.Reachable) :
    (∀ path x, f.tree.resolve? path = some x ↔
      ∃ names, Path.Spells path.toList names ∧ f.tree.Way .root names x) ∧
    (∀ x, Relation.ReflTransGen f.tree.Child .root x →
      ∃! path, Path.IsNormal path ∧ f.tree.resolve? path = some x) ∧
    (∀ p q x y, Path.IsNormal p → Path.IsNormal q → p ≠ q → f.tree.resolve? p = some x →
      f.tree.resolve? q = some y → x.inode ≠ y.inode) ∧
    (∀ p q : String, ∀ names, Path.Spells p.toList names → Path.Spells q.toList names →
      f.tree.resolve? p = f.tree.resolve? q) ∧
    (∀ p q : String, ∀ y, f.tree.resolve? (p ++ "/" ++ q) = some y ↔
      ∃ x names, f.tree.resolve? p = some x ∧ Path.Spells q.toList names ∧
        f.tree.Way x names y) ∧
    (∀ path : String, ∀ names, Path.Spells path.toList names → "." ∈ names ∨ ".." ∈ names →
      f.tree.resolve? path = none) ∧
    ∀ path : String, ∀ names rest x, Path.Spells path.toList (names ++ rest) → rest ≠ [] →
      f.tree.Way .root names x → x.isDirectory = false → f.tree.resolve? path = none := by
  have hs := hf.sound
  simp only [Path.spells_iff]
  refine ⟨fun path x => ?_, fun x hx => ?_, fun p q x y hp hq hne hx hy hinode => ?_,
    fun p q names hp hq => ?_, fun p q y => ?_, fun path names hpath hdots => ?_,
    fun path names rest x hpath hrest hway hfile => ?_⟩
  · simp only [exists_eq_left', hs.resolve?_eq_some_iff]
  · obtain ⟨names, h⟩ := Namespace.exists_way_iff.2 hx
    exact hs.existsUnique_normal h
  · -- two nodes with one inode are the same, and its normal path is unique
    have hway := hs.resolve?_eq_some_iff.1 hx
    have hxheld := hs.held_of_way hs.root hway
    have hyheld := hs.held_of_way hs.root (hs.resolve?_eq_some_iff.1 hy)
    cases hs.unique hxheld hyheld hinode
    exact hne ((hs.existsUnique_normal hway).unique ⟨hp, hx⟩ ⟨hq, hy⟩)
  · rw [Namespace.resolve?, Namespace.resolve?, hp, hq]
  · simp only [Namespace.resolve?, Path.components_append_slash, Namespace.walk?_append,
      Option.bind_eq_some_iff, hs.walk?_eq_some_iff, exists_eq_left', exists_and_left]
  · rw [Option.eq_none_iff_forall_ne_some]
    intro x hx
    have hvalid := hs.validName_of_way (hs.resolve?_eq_some_iff.1 hx)
    rw [hpath] at hvalid
    rcases hdots with hdots | hdots
    · exact absurd (hvalid _ hdots) (by decide)
    · exact absurd (hvalid _ hdots) (by decide)
  · rw [Option.eq_none_iff_forall_ne_some]
    intro y hy
    rw [Namespace.resolve?, hpath, Namespace.walk?_append, hs.walk?_eq_some_iff.2 hway,
      Option.bind_some, hs.walk?_eq_some_iff] at hy
    exact hrest (hs.eq_nil_of_way (hs.held_of_way hs.root hway) hfile hy)

/-- A directory with a file in it.  Of two spellings only one is normal, and there is no way
on below the file or back to the root. -/
theorem resolution_exact_file :
    let file : Node Unit := ⟨3, "f", .file .readOnly ()⟩
    ∃ f : Forest Unit, f.Reachable ∧ f.tree.resolve? "//a///f/" = some file ∧
      f.tree.resolve? "a/f" = some file ∧ ¬Path.IsNormal "//a///f/" ∧
      (∃! path, Path.IsNormal path ∧ f.tree.resolve? path = some file) ∧
      f.tree.resolve? "a/f/x" = none ∧ f.tree.resolve? "a/.." = none := by
  intro file
  let a : Node Unit := ⟨2, "a", .directory⟩
  have hvalid : validName "a" = true ∧ validName "f" = true := by decide
  have ha := Later.refl.grow (f := start) (Set.mem_singleton _) hvalid.1 rfl
    (by rintro c ⟨⟩) (.directory : Content Unit)
  have hfile := ha.grow (show a ∈ _ from Or.inr rfl) hvalid.2 rfl (by rintro c ⟨⟩)
    (.file .readOnly ())
  obtain ⟨hiff, hunique, -, -, -, hdots, hbelow⟩ := resolution_exact hfile
  let tree : Namespace Unit := (Namespace.empty.grow 1 a).grow 2 file
  have hway : tree.Way .root ["a", "f"] file :=
    have htop : tree.Child .root a := List.mem_singleton_self a
    have hinner : tree.Child a file := List.mem_singleton_self file
    (Way.start.step htop).step hinner
  refine ⟨_, hfile, ?_, ?_, ?_, ?_, ?_, ?_⟩
  · exact (hiff _ _).2 ⟨_, Path.spells_iff.2 (by decide), hway⟩
  · exact (hiff _ _).2 ⟨_, Path.spells_iff.2 (by decide), hway⟩
  · unfold Path.IsNormal
    decide
  · exact hunique _ (Namespace.exists_way_iff.1 ⟨_, hway⟩)
  · exact hbelow _ ["a", "f"] ["x"] file (Path.spells_iff.2 (by decide)) (List.cons_ne_nil _ _)
      hway rfl
  · exact hdots _ ["a", ".."] (Path.spells_iff.2 (by decide)) (Or.inr (by decide))

end Forest
end CpuSteward
