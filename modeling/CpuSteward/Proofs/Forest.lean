import CpuSteward.Namespace.Path
import Mathlib.Data.List.Pairwise
import Mathlib.Data.Set.Insert

/-!
# Trees and the nodes that are held

A node that was taken out of a tree lives on with whoever holds a handle to it, and a
request may still go there.  So what holds of a tree after any requests has to be said of
all nodes that were ever made, and not only of those that a path leads to.

## Main definitions

* `Namespace.grow` — a tree with one more node in it.
* `Forest` — a tree with the nodes that someone may hold a handle to.
* `Forest.Later`, `Forest.Reachable` — what requests through these handles lead to.
* `Forest.Sound` — names, inodes and child lists are in order.

## Main results

* `Namespace.add_cases`, `Namespace.children_remove?` — what a request changes.
* `Forest.Sound.add`, `Forest.Sound.remove` — a request keeps a forest sound.
* `Forest.Reachable.sound` — **every forest that requests lead to is sound.**
* `Forest.Sound.walk?_remove?` — only ways through a removed node change.
* `Forest.Sound.eq_of_walk?` — the one way from a node to its child is the name.
-/

namespace CpuSteward

namespace Namespace

variable {ε : Type} {ns ns' : Namespace ε} {parent n : Node ε} {name : String}
  {content : Content ε} {i : Nat}

/-! ### A tree with more nodes in it -/

/-- The tree with one more node, the last child of the node with inode `parent`. -/
def grow (ns : Namespace ε) (parent : Nat) (node : Node ε) : Namespace ε :=
  { ns with nextInode := ns.nextInode + 1 }.setChildren parent (ns.children parent ++ [node])

theorem children_grow (ns : Namespace ε) (parent : Nat) (node : Node ε) (i : Nat) :
    (ns.grow parent node).children i =
      ns.children i ++ if i = parent then [node] else [] := by
  unfold grow
  rw [children_setChildren]
  by_cases h : i = parent
  · rw [if_pos h, if_pos h, h]
  · rw [if_neg h, if_neg h, List.append_nil]

@[simp] theorem nextInode_grow (ns : Namespace ε) (parent : Nat) (node : Node ε) :
    (ns.grow parent node).nextInode = ns.nextInode + 1 := rfl

theorem mem_children_grow {node : Node ε} {parent : Nat} :
    n ∈ (ns.grow parent node).children i ↔ n ∈ ns.children i ∨ (i = parent ∧ n = node) := by
  rw [children_grow, List.mem_append]
  by_cases h : i = parent
  · simp [h]
  · simp [h]

/-! ### What a request changes -/

/-- The name is free among the children of a node. -/
def Free (ns : Namespace ε) (parent : Node ε) (name : String) : Prop :=
  ∀ c ∈ ns.children parent.inode, c.name ≠ name

theorem child?_eq_none_iff : ns.child? parent name = none ↔ ns.Free parent name := by
  unfold child? Free
  simp only [List.find?_eq_none, beq_iff_eq]

theorem free_iff_not_exists :
    ns.Free parent name ↔ ¬∃ c ∈ ns.children parent.inode, c.name = name := by
  unfold Free
  rw [not_exists]
  exact forall_congr' fun c => not_and.symm

/-- A path that starts with a name that the root does not have leads nowhere. -/
theorem resolve?_of_free (h : ns.Free .root name) {path : String} {names : List String}
    (hp : Path.components path = name :: names) : ns.resolve? path = none := by
  unfold resolve?
  rw [hp, walk?_cons, child?_eq_none_iff.2 h]
  rfl

/-- A request to make a node is refused at once, finds the name taken, or makes the node. -/
theorem add_cases (ns : Namespace ε) (parent : Node ε) (name : String) (content : Content ε) :
    ((validName name && parent.isDirectory) = false ∧
        ns.add parent name content = (none, ns)) ∨
      (validName name = true ∧ parent.isDirectory = true ∧ ¬ns.Free parent name ∧
        ns.add parent name content = (none, { ns with nextInode := ns.nextInode + 1 })) ∨
      (validName name = true ∧ parent.isDirectory = true ∧ ns.Free parent name ∧
        ns.add parent name content = (some ⟨ns.nextInode, name, content⟩,
          ns.grow parent.inode ⟨ns.nextInode, name, content⟩)) := by
  unfold add
  cases hok : validName name && parent.isDirectory with
  | false => exact Or.inl ⟨rfl, rfl⟩
  | true =>
    obtain ⟨hv, hd⟩ := Bool.and_eq_true_iff.1 hok
    have hany : ((ns.children parent.inode).any fun child => child.name == name) = true ↔
        ¬ns.Free parent name := by
      unfold Free
      simp
    by_cases ht : ((ns.children parent.inode).any fun child => child.name == name) = true
    · refine Or.inr (Or.inl ⟨hv, hd, hany.1 ht, ?_⟩)
      simp only [if_true, if_pos ht]
    · refine Or.inr (Or.inr ⟨hv, hd, Classical.not_not.1 fun h => ht (hany.2 h), ?_⟩)
      simp only [if_true, if_neg ht]
      rfl

/-- A directory gets a node under a good name that is free. -/
theorem add_of_free (hv : validName name = true) (hd : parent.isDirectory = true)
    (hf : ns.Free parent name) (content : Content ε) :
    ns.add parent name content = (some ⟨ns.nextInode, name, content⟩,
      ns.grow parent.inode ⟨ns.nextInode, name, content⟩) := by
  rcases ns.add_cases parent name content with ⟨hr, -⟩ | ⟨-, -, ht, -⟩ | ⟨-, -, -, ha⟩
  · rw [hv, hd] at hr
    cases hr
  · exact absurd hf ht
  · exact ha

/-- A removal takes out the child that the name leads to, and its own children off it. -/
theorem children_remove? (h : ns.remove? parent name = some ns') :
    ∃ x, ns.child? parent name = some x ∧ ns'.nextInode = ns.nextInode ∧ ∀ i, ns'.children i =
      if i = x.inode then []
      else if i = parent.inode then (ns.children i).eraseP fun child => child.name == name
      else ns.children i := by
  obtain ⟨x, hx, rfl⟩ := Option.map_eq_some_iff.1 h
  refine ⟨x, hx, rfl, fun i => ?_⟩
  rw [children_setChildren, children_setChildren]
  split
  · rfl
  · split
    · rename_i hi
      rw [hi]
    · rfl

/-- The lists after a removal, for the child that is taken out. -/
theorem children_of_remove? {x : Node ε} (h : ns.remove? parent name = some ns')
    (hx : ns.child? parent name = some x) (i : Nat) : ns'.children i =
      if i = x.inode then []
      else if i = parent.inode then (ns.children i).eraseP fun child => child.name == name
      else ns.children i := by
  obtain ⟨y, hy, -, hc⟩ := children_remove? h
  cases hx.symm.trans hy
  exact hc i

theorem sublist_of_remove? (h : ns.remove? parent name = some ns') (i : Nat) :
    (ns'.children i).Sublist (ns.children i) := by
  obtain ⟨x, -, -, hc⟩ := children_remove? h
  rw [hc]
  split
  · exact List.nil_sublist _
  · split
    · exact List.eraseP_sublist
    · exact List.Sublist.refl _

end Namespace

/-- A tree with the nodes that someone may hold a handle to. -/
structure Forest (ε : Type) where
  tree : Namespace ε
  held : Set (Node ε)

namespace Forest

variable {ε : Type} {f g h : Forest ε} {parent m n : Node ε} {name : String}
  {content : Content ε} {i j : Nat}

/-- The new tree, and a handle to its root. -/
def start : Forest ε := ⟨.empty, {.root}⟩

/-- A request to make a node.  Whoever asks gets a handle to it. -/
def add (f : Forest ε) (parent : Node ε) (name : String) (content : Content ε) : Forest ε :=
  let made := f.tree.add parent name content
  ⟨made.2, f.held ∪ {n | made.1 = some n}⟩

theorem add_of_none {ns : Namespace ε} (h : f.tree.add parent name content = (none, ns)) :
    f.add parent name content = ⟨ns, f.held⟩ := by
  have hnone : {n | (none : Option (Node ε)) = some n} = ∅ := by simp
  simp only [add, h, hnone, Set.union_empty]

theorem add_of_some {ns : Namespace ε} (h : f.tree.add parent name content = (some n, ns)) :
    f.add parent name content = ⟨ns, f.held ∪ {n}⟩ := by
  have hsome : {m | some n = some m} = ({n} : Set (Node ε)) := by
    ext m
    simp [eq_comm]
  simp only [add, h, hsome]

/-- A request to take a node out of the tree.  Handles to it are kept. -/
def remove (f : Forest ε) (parent : Node ε) (name : String) : Forest ε :=
  { f with tree := (f.tree.remove? parent name).getD f.tree }

/-- What requests lead to from a forest.  Each goes to a node that someone holds, be it still
in the tree or not. -/
inductive Later (f : Forest ε) : Forest ε → Prop where
  | refl : Later f f
  | add {g : Forest ε} (hl : Later f g) {parent : Node ε} (hp : parent ∈ g.held) (name : String)
      (content : Content ε) : Later f (g.add parent name content)
  | remove {g : Forest ε} (hl : Later f g) {parent : Node ε} (hp : parent ∈ g.held)
      (name : String) : Later f (g.remove parent name)

/-- What requests lead to from the new tree. -/
def Reachable (f : Forest ε) : Prop := start.Later f

theorem Later.trans (hf : f.Later g) (hg : g.Later h) : f.Later h := by
  induction hg with
  | refl => exact hf
  | add _ hp name content ih => exact ih.add hp name content
  | remove _ hp name ih => exact ih.remove hp name

/-- A handle is never lost. -/
theorem Later.held_subset (hf : f.Later g) : f.held ⊆ g.held := by
  induction hf with
  | refl => exact Set.Subset.rfl
  | add _ _ _ _ ih => exact ih.trans Set.subset_union_left
  | remove _ _ _ ih => exact ih

/-- A node under a good name that is free can be made. -/
theorem Later.grow (hf : f.Later g) (hp : parent ∈ g.held) (hv : validName name = true)
    (hd : parent.isDirectory = true) (hfree : g.tree.Free parent name) (content : Content ε) :
    let node : Node ε := ⟨g.tree.nextInode, name, content⟩
    f.Later ⟨g.tree.grow parent.inode node, g.held ∪ {node}⟩ := by
  have h := hf.add hp name content
  rwa [add_of_some (Namespace.add_of_free hv hd hfree content)] at h

/-- Names, inodes and child lists are in order. -/
structure Sound (f : Forest ε) : Prop where
  root : Node.root ∈ f.held
  /-- Whoever looks into a list could hold what is there. -/
  listed : ∀ {i n}, n ∈ f.tree.children i → n ∈ f.held
  /-- Only directories have children. -/
  files : ∀ {n}, n ∈ f.held → n.isDirectory = false → f.tree.children n.inode = []
  pos : ∀ {n}, n ∈ f.held → 0 < n.inode
  bound : ∀ {n}, n ∈ f.held → n.inode < f.tree.nextInode
  unique : ∀ {m n}, m ∈ f.held → n ∈ f.held → m.inode = n.inode → m = n
  /-- A node is younger than the node it is a child of. -/
  younger : ∀ {i n}, n ∈ f.tree.children i → i < n.inode
  /-- A node is a child of one node at most. -/
  single : ∀ {i j n}, n ∈ f.tree.children i → n ∈ f.tree.children j → i = j
  valid : ∀ {i n}, n ∈ f.tree.children i → validName n.name = true
  names : ∀ i, (f.tree.children i).Pairwise fun a b => a.name ≠ b.name
  sorted : ∀ i, (f.tree.children i).Pairwise fun a b => a.inode < b.inode

theorem sound_start : (start : Forest ε).Sound where
  root := Set.mem_singleton _
  listed hn := nomatch hn
  files _ _ := rfl
  pos hn := by
    rw [Set.mem_singleton_iff.1 hn]
    exact Nat.one_pos
  bound hn := by
    rw [Set.mem_singleton_iff.1 hn]
    exact Nat.lt_succ_self 1
  unique hm hn _ := (Set.mem_singleton_iff.1 hm).trans (Set.mem_singleton_iff.1 hn).symm
  younger hn := nomatch hn
  single hn := nomatch hn
  valid hn := nomatch hn
  names _ := List.Pairwise.nil
  sorted _ := List.Pairwise.nil

/-- No node has an inode that was not given out yet, so nothing is listed there. -/
theorem Sound.children_of_le (hf : f.Sound) (hi : f.tree.nextInode ≤ i) :
    f.tree.children i = [] := by
  rw [List.eq_nil_iff_forall_not_mem]
  intro n hn
  have hlt := hf.younger hn
  have hbound := hf.bound (hf.listed hn)
  omega

/-- A name leads to the child that has it. -/
theorem Sound.child?_eq_some_iff (hf : f.Sound) :
    f.tree.child? parent name = some n ↔ n ∈ f.tree.children parent.inode ∧ n.name = name := by
  constructor
  · intro h
    exact ⟨Namespace.mem_of_child? h, Namespace.name_of_child? h⟩
  · rintro ⟨hn, rfl⟩
    cases hc : f.tree.child? parent n.name with
    | none => exact absurd rfl (Namespace.child?_eq_none_iff.1 hc n hn)
    | some c =>
      -- siblings of one name are the same node
      by_contra hne
      have : Std.Symm fun a b : Node ε => a.name ≠ b.name := ⟨fun _ _ => Ne.symm⟩
      exact (hf.names _).forall (Namespace.mem_of_child? hc) hn (fun h => hne (congrArg some h))
        (Namespace.name_of_child? hc)

/-! ### Requests keep a forest sound -/

/-- Lists that lose nodes, and inodes that are used up, do no harm. -/
theorem Sound.shrink (hf : f.Sound) {ns : Namespace ε}
    (hc : ∀ i, (ns.children i).Sublist (f.tree.children i))
    (hn : f.tree.nextInode ≤ ns.nextInode) : Sound ⟨ns, f.held⟩ where
  root := hf.root
  listed h := hf.listed ((hc _).mem h)
  files {n} h hd := List.sublist_nil.1 (hf.files h hd ▸ hc n.inode)
  pos := hf.pos
  bound h := Nat.lt_of_lt_of_le (hf.bound h) hn
  unique := hf.unique
  younger h := hf.younger ((hc _).mem h)
  single h h' := hf.single ((hc _).mem h) ((hc _).mem h')
  valid h := hf.valid ((hc _).mem h)
  names i := (hf.names i).sublist (hc i)
  sorted i := (hf.sorted i).sublist (hc i)

/-- A new node gets the next inode and stands last among its siblings. -/
theorem Sound.grow (hf : f.Sound) (hp : parent ∈ f.held) (hv : validName name = true)
    (hd : parent.isDirectory = true) (hfree : f.tree.Free parent name) (content : Content ε) :
    let node : Node ε := ⟨f.tree.nextInode, name, content⟩
    Sound ⟨f.tree.grow parent.inode node, f.held ∪ {node}⟩ := by
  intro node
  -- the inode is new, so the node is none of those that are held
  have hfresh : ∀ n ∈ f.held, n.inode < node.inode := fun n hn => hf.bound hn
  constructor
  case root => exact Or.inl hf.root
  case listed =>
    intro i n hn
    rcases Namespace.mem_children_grow.1 hn with hn | ⟨-, rfl⟩
    · exact Or.inl (hf.listed hn)
    · exact Or.inr rfl
  case files =>
    rintro n (hn | rfl) hfile
    · have hne : n.inode ≠ parent.inode := fun he => by
        rw [hf.unique hn hp he, hd] at hfile
        cases hfile
      rw [Namespace.children_grow, if_neg hne, List.append_nil]
      exact hf.files hn hfile
    · rw [Namespace.children_grow, if_neg (Nat.ne_of_gt (hfresh parent hp)), List.append_nil]
      exact hf.children_of_le (Nat.le_refl _)
  case pos =>
    rintro n (hn | rfl)
    · exact hf.pos hn
    · exact Nat.zero_lt_of_lt (hfresh parent hp)
  case bound =>
    rintro n (hn | rfl)
    · exact Nat.lt_succ_of_lt (hf.bound hn)
    · exact Nat.lt_succ_self _
  case unique =>
    rintro m n (hm | rfl) (hn | rfl) he
    · exact hf.unique hm hn he
    · exact absurd he (Nat.ne_of_lt (hfresh m hm))
    · exact absurd he (Nat.ne_of_gt (hfresh n hn))
    · rfl
  case younger =>
    intro i n hn
    rcases Namespace.mem_children_grow.1 hn with hn | ⟨rfl, rfl⟩
    · exact hf.younger hn
    · exact hfresh parent hp
  case single =>
    intro i j n hi hj
    rcases Namespace.mem_children_grow.1 hi with hi | ⟨rfl, rfl⟩
    · rcases Namespace.mem_children_grow.1 hj with hj | ⟨-, rfl⟩
      · exact hf.single hi hj
      · exact absurd (hfresh _ (hf.listed hi)) (Nat.lt_irrefl _)
    · rcases Namespace.mem_children_grow.1 hj with hj | ⟨rfl, -⟩
      · exact absurd (hfresh _ (hf.listed hj)) (Nat.lt_irrefl _)
      · rfl
  case valid =>
    intro i n hn
    rcases Namespace.mem_children_grow.1 hn with hn | ⟨-, rfl⟩
    · exact hf.valid hn
    · exact hv
  case names =>
    intro i
    rw [Namespace.children_grow, List.pairwise_append]
    by_cases h : i = parent.inode
    · subst h
      refine ⟨hf.names _, by simp, fun a ha b hb => ?_⟩
      rw [if_pos rfl, List.mem_singleton] at hb
      rw [hb]
      exact hfree a ha
    · refine ⟨hf.names _, by simp [h], fun a _ b hb => ?_⟩
      rw [if_neg h] at hb
      cases hb
  case sorted =>
    intro i
    rw [Namespace.children_grow, List.pairwise_append]
    refine ⟨hf.sorted i, by split <;> simp, fun a ha b hb => ?_⟩
    split at hb
    · rw [List.mem_singleton.1 hb]
      exact hfresh a (hf.listed ha)
    · cases hb

theorem Sound.add (hf : f.Sound) (hp : parent ∈ f.held) (name : String) (content : Content ε) :
    (f.add parent name content).Sound := by
  rcases f.tree.add_cases parent name content with ⟨-, ha⟩ | ⟨-, -, -, ha⟩ | ⟨hv, hd, hfree, ha⟩
  · rw [add_of_none ha]
    exact hf
  · rw [add_of_none ha]
    exact hf.shrink (fun _ => List.Sublist.refl _) (Nat.le_succ _)
  · rw [add_of_some ha]
    exact hf.grow hp hv hd hfree content

theorem Sound.remove (hf : f.Sound) (parent : Node ε) (name : String) :
    (f.remove parent name).Sound := by
  unfold Forest.remove
  cases hr : f.tree.remove? parent name with
  | none => exact hf
  | some ns =>
    obtain ⟨x, -, hn, -⟩ := Namespace.children_remove? hr
    exact hf.shrink (Namespace.sublist_of_remove? hr) (Nat.le_of_eq hn.symm)

theorem Sound.of_remove? {ns : Namespace ε} (hf : f.Sound)
    (hr : f.tree.remove? parent name = some ns) : Sound ⟨ns, f.held⟩ := by
  have h := hf.remove parent name
  unfold Forest.remove at h
  rwa [hr] at h

theorem Sound.later (hf : f.Sound) (hl : f.Later g) : g.Sound := by
  induction hl with
  | refl => exact hf
  | add _ hp name content ih => exact ih.add hp name content
  | remove _ _ name ih => exact ih.remove _ name

/-- **Every forest that requests lead to is sound.** -/
theorem Reachable.sound (hf : f.Reachable) : f.Sound := sound_start.later hf

/-- It does no harm to lose handles to nodes that are in no list. -/
theorem Sound.forget (hf : f.Sound) {held : Set (Node ε)} (hh : held ⊆ f.held)
    (hr : .root ∈ held) (hl : ∀ i, ∀ n ∈ f.tree.children i, n ∈ held) :
    Sound ⟨f.tree, held⟩ where
  root := hr
  listed hn := hl _ _ hn
  files hn := hf.files (hh hn)
  pos hn := hf.pos (hh hn)
  bound hn := hf.bound (hh hn)
  unique hm hn := hf.unique (hh hm) (hh hn)
  younger := hf.younger
  single := hf.single
  valid := hf.valid
  names := hf.names
  sorted := hf.sorted

/-! ### What a removal leaves -/

section Remove

variable {ns : Namespace ε} {x : Node ε}

/-- Where no two nodes share a name, a name takes out no more than the node that has it. -/
theorem mem_eraseP_name {l : List (Node ε)} (hl : l.Pairwise fun a b => a.name ≠ b.name)
    (hx : x ∈ l) : n ∈ l.eraseP (fun c => c.name == x.name) ↔ n ∈ l ∧ n ≠ x := by
  induction l with
  | nil => cases hx
  | cons a l ih =>
    obtain ⟨ha, hl⟩ := List.pairwise_cons.1 hl
    rcases List.mem_cons.1 hx with rfl | hx
    · rw [List.eraseP_cons_of_pos (by simp)]
      constructor
      · intro h
        exact ⟨List.mem_cons_of_mem x h, fun hn => ha n h (congrArg Node.name hn.symm)⟩
      · rintro ⟨h, hn⟩
        exact (List.mem_cons.1 h).resolve_left hn
    · have hne : a.name ≠ x.name := ha x hx
      rw [List.eraseP_cons_of_neg (by simpa using hne), List.mem_cons, List.mem_cons, ih hl hx]
      constructor
      · rintro (rfl | ⟨h, hn⟩)
        · exact ⟨Or.inl rfl, fun h => hne (congrArg Node.name h)⟩
        · exact ⟨Or.inr h, hn⟩
      · rintro ⟨rfl | h, hn⟩
        · exact Or.inl rfl
        · exact Or.inr ⟨h, hn⟩

/-- A removal takes the node out of the one list that it is in, and empties its own. -/
theorem Sound.mem_children_remove? (hf : f.Sound) (hr : f.tree.remove? parent name = some ns)
    (hx : f.tree.child? parent name = some x) :
    n ∈ ns.children i ↔ n ∈ f.tree.children i ∧ i ≠ x.inode ∧ n ≠ x := by
  obtain ⟨hmem, hname⟩ := hf.child?_eq_some_iff.1 hx
  rw [Namespace.children_of_remove? hr hx]
  by_cases hi : i = x.inode
  · simp [hi]
  rw [if_neg hi]
  by_cases hp : i = parent.inode
  · subst hp
    rw [if_pos rfl]
    rw [← hname, mem_eraseP_name (hf.names _) hmem]
    exact and_congr_right fun _ => ⟨fun hn => ⟨hi, hn⟩, fun hn => hn.2⟩
  · rw [if_neg hp]
    refine ⟨fun h => ⟨h, hi, ?_⟩, fun h => h.1⟩
    rintro rfl
    exact hp (hf.single h hmem)

/-- A step that neither starts nor ends at the removed node is the same as before. -/
theorem Sound.child?_remove? (hf : f.Sound) (hr : f.tree.remove? parent name = some ns)
    (hx : f.tree.child? parent name = some x) {a : Node ε} (ha : a.inode ≠ x.inode)
    {step : String} (hstep : f.tree.child? a step ≠ some x) :
    ns.child? a step = f.tree.child? a step := by
  have hsound : Sound ⟨ns, f.held⟩ := hf.of_remove? hr
  ext c
  rw [hsound.child?_eq_some_iff, hf.child?_eq_some_iff,
    hf.mem_children_remove? hr hx]
  constructor
  · rintro ⟨⟨hc, -⟩, hn⟩
    exact ⟨hc, hn⟩
  · rintro ⟨hc, hn⟩
    refine ⟨⟨hc, ha, ?_⟩, hn⟩
    rintro rfl
    exact hstep (hf.child?_eq_some_iff.2 ⟨hc, hn⟩)

/-- **Only ways through a removed node change.** -/
theorem Sound.walk?_remove? (hf : f.Sound) (hr : f.tree.remove? parent name = some ns)
    (hx : f.tree.child? parent name = some x) {names : List String} {a : Node ε}
    (ha : a ∈ f.held) (hw : ∀ way, way <+: names → f.tree.walk? a way ≠ some x) :
    ns.walk? a names = f.tree.walk? a names := by
  have hxheld : x ∈ f.held := hf.listed (Namespace.mem_of_child? hx)
  induction names generalizing a with
  | nil => rfl
  | cons step names ih =>
    have hne : a.inode ≠ x.inode := fun h =>
      hw [] List.nil_prefix (congrArg some (hf.unique ha hxheld h))
    have hstep : f.tree.child? a step ≠ some x := fun h => by
      refine hw [step] (List.cons_prefix_cons.2 ⟨rfl, List.nil_prefix⟩) ?_
      rw [Namespace.walk?_cons, h]
      rfl
    rw [Namespace.walk?_cons, Namespace.walk?_cons, hf.child?_remove? hr hx hne hstep]
    cases hc : f.tree.child? a step with
    | none => rfl
    | some c =>
      refine ih (hf.listed (Namespace.mem_of_child? hc)) fun way hway h => ?_
      refine hw (step :: way) (List.cons_prefix_cons.2 ⟨rfl, hway⟩) ?_
      rw [Namespace.walk?_cons, hc]
      exact h

end Remove

/-! ### Ways down -/

/-- The last step of a way is taken from the node where it starts, or from a younger one. -/
theorem Sound.exists_parent (hf : f.Sound) {step : String} {names : List String} {a : Node ε}
    (h : f.tree.walk? a (step :: names) = some n) :
    ∃ p : Node ε, a.inode ≤ p.inode ∧ n ∈ f.tree.children p.inode := by
  induction names generalizing a step with
  | nil =>
    rw [Namespace.walk?_cons, Option.bind_eq_some_iff] at h
    obtain ⟨c, hc, h⟩ := h
    cases h
    exact ⟨a, Nat.le_refl _, Namespace.mem_of_child? hc⟩
  | cons next names ih =>
    rw [Namespace.walk?_cons, Option.bind_eq_some_iff] at h
    obtain ⟨c, hc, h⟩ := h
    obtain ⟨p, hp, hn⟩ := ih h
    have hlt := hf.younger (Namespace.mem_of_child? hc)
    exact ⟨p, by omega, hn⟩

/-- The way from a node to a child of it is its name. -/
theorem Sound.eq_of_walk? (hf : f.Sound) {names : List String} {a : Node ε}
    (hn : n ∈ f.tree.children a.inode) (h : f.tree.walk? a names = some n) : names = [n.name] := by
  cases names with
  | nil =>
    cases h
    exact absurd (hf.younger hn) (Nat.lt_irrefl _)
  | cons step names =>
    rw [Namespace.walk?_cons, Option.bind_eq_some_iff] at h
    obtain ⟨c, hc, h⟩ := h
    cases names with
    | nil =>
      cases h
      rw [Namespace.name_of_child? hc]
    | cons next names =>
      -- a longer way ends at a child of a younger node
      obtain ⟨p, hp, hmem⟩ := hf.exists_parent h
      have hlt := hf.younger (Namespace.mem_of_child? hc)
      have he := hf.single hn hmem
      omega

end Forest
end CpuSteward
