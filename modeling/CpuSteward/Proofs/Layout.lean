import CpuSteward.Proofs.Forest
import CpuSteward.Proofs.Step
import Mathlib.Data.List.Nodup

/-!
# What loading makes

Loading makes some forty nodes one after the other, and each of these requests could be
refused.  Below a directory that was just made none is: the names are good, no two files
of one directory share a name, and nothing else knows the directory yet.  So loading
either finds its name taken and makes nothing, or makes all that it is to make.

## Main definitions

* `Namespace.growAll` — a tree with several more nodes in it.
* `System.groupNode`, `System.tunableNode`, `System.reportNode` — the nodes that loading
  makes.
* `System.layout` — all of them, in the order in which they are made.

## Main results

* `System.populate_eq` — below a new directory no request is refused.
* `System.later_load` — loading is a series of requests, so what these keep it keeps.
* `System.register_cases` — loading makes nothing, or all of the layout.
* `System.load_layout` — **the tree after loading, node by node.**
-/

namespace CpuSteward

namespace Namespace

variable {ε : Type} {ns : Namespace ε} {parent node : Node ε} {name : String} {i : Nat}

/-- The tree with some more nodes in it, each the last child of the node whose inode stands
beside it. -/
def growAll (ns : Namespace ε) (nodes : List (Nat × Node ε)) : Namespace ε :=
  nodes.foldl (fun ns entry => ns.grow entry.1 entry.2) ns

theorem growAll_cons (ns : Namespace ε) (entry : Nat × Node ε) (nodes : List (Nat × Node ε)) :
    ns.growAll (entry :: nodes) = (ns.grow entry.1 entry.2).growAll nodes := rfl

theorem growAll_append (ns : Namespace ε) (nodes nodes' : List (Nat × Node ε)) :
    ns.growAll (nodes ++ nodes') = (ns.growAll nodes).growAll nodes' := List.foldl_append

theorem children_growAll (ns : Namespace ε) (nodes : List (Nat × Node ε)) (i : Nat) :
    (ns.growAll nodes).children i =
      ns.children i ++ (nodes.filter fun entry => entry.1 = i).map (·.2) := by
  induction nodes generalizing ns with
  | nil => exact (List.append_nil _).symm
  | cons entry nodes ih =>
    rw [growAll_cons, ih, children_grow, List.append_assoc, List.filter_cons]
    by_cases h : i = entry.1
    · rw [if_pos h, if_pos (by simpa using h.symm)]
      rfl
    · rw [if_neg h, if_neg (by simpa using Ne.symm h)]
      rfl

theorem nextInode_growAll (ns : Namespace ε) (nodes : List (Nat × Node ε)) :
    (ns.growAll nodes).nextInode = ns.nextInode + nodes.length := by
  induction nodes generalizing ns with
  | nil => rfl
  | cons entry nodes ih =>
    rw [growAll_cons, ih, nextInode_grow, List.length_cons]
    omega

/-- A name stays free if the new node has another name or another parent. -/
theorem Free.grow (h : ns.Free parent name) (hn : i = parent.inode → node.name ≠ name) :
    (ns.grow i node).Free parent name := by
  intro c hc
  rcases mem_children_grow.1 hc with hc | ⟨hi, rfl⟩
  · exact h c hc
  · exact hn hi.symm

theorem Free.growAll {nodes : List (Nat × Node ε)} (h : ns.Free parent name)
    (hn : ∀ entry ∈ nodes, entry.1 = parent.inode → entry.2.name ≠ name) :
    (ns.growAll nodes).Free parent name := by
  induction nodes generalizing ns with
  | nil => exact h
  | cons entry nodes ih =>
    obtain ⟨hentry, hnodes⟩ := List.forall_mem_cons.1 hn
    exact ih (h.grow hentry) hnodes

/-- Below a node without children every name is free. -/
theorem free_of_children_eq_nil (h : ns.children parent.inode = []) (name : String) :
    ns.Free parent name := by
  intro c hc
  rw [h] at hc
  cases hc

end Namespace

namespace Tunable

/-- No two tunables share a file name. -/
theorem nodup_map_name : (all.map name).Nodup := by decide +kernel

theorem name_injective {t u : Tunable} (h : t.name = u.name) : t = u :=
  List.inj_on_of_nodup_map nodup_map_name t.mem_all u.mem_all h

/-- No tunable has the file name of the report. -/
theorem name_ne_reportFile (t : Tunable) : t.name ≠ Identity.reportFile := by
  have h : ∀ t ∈ all, t.name ≠ Identity.reportFile := by decide +kernel
  exact h t t.mem_all

theorem validName_name (t : Tunable) : validName t.name = true := by
  have h : ∀ t ∈ all, validName t.name = true := by decide +kernel
  exact h t t.mem_all

end Tunable

namespace TunableGroup

theorem mem_all (g : TunableGroup) : g ∈ all := by cases g <;> decide

/-- No directory of a group has the name of a file. -/
theorem directory?_ne_name (g : TunableGroup) (t : Tunable) : g.directory? ≠ some t.name := by
  have h : ∀ g ∈ all, ∀ t ∈ Tunable.all, g.directory? ≠ some t.name := by decide +kernel
  exact h g g.mem_all t t.mem_all

theorem directory?_ne_reportFile (g : TunableGroup) :
    g.directory? ≠ some Identity.reportFile := by
  have h : ∀ g ∈ all, g.directory? ≠ some Identity.reportFile := by decide +kernel
  exact h g g.mem_all

end TunableGroup

namespace System

variable {s : System} {k : Kernel} {owner : ControllerId} {n : Nat} {tree : Namespace Endpoint}
  {top : Node Endpoint} {t : Tunable} {g : TunableGroup}

/-! ### The nodes that loading makes -/

/-- The directory of a group, if the directory of the control plane has the inode `n`. -/
def groupNode (n : Nat) : TunableGroup → Node Endpoint
  | .root => ⟨n, Identity.directory, .directory⟩
  | .loadTracking => ⟨n + 1, "slim_walt", .directory⟩
  | .frequency => ⟨n + 2, "slim_freq_gov", .directory⟩
  | .policy => ⟨n + 3, "policy", .directory⟩

theorem permOf_eq (t : Tunable) :
    permOf t = ⟨if t.spec.access = .readWrite then 0o666 else 0o444⟩ := by
  unfold permOf
  cases t.spec.access <;> rfl

/-- The file of a tunable. -/
def tunableNode (owner : ControllerId) (n : Nat) (t : Tunable) : Node Endpoint :=
  ⟨n + 4 + t.index, t.name, .file (permOf t) (endpointOf owner t)⟩

/-- The file of the report. -/
def reportNode (owner : ControllerId) (n : Nat) : Node Endpoint :=
  ⟨n + 40, Identity.reportFile, .file .readOnly (.report owner)⟩

/-- The directories below that of the control plane, each with the inode of its parent. -/
def groupEntries (n : Nat) : List (Nat × Node Endpoint) :=
  [.loadTracking, .frequency, .policy].map fun g => (n, groupNode n g)

theorem directory?_of_mem_groupEntries {entry : Nat × Node Endpoint}
    (h : entry ∈ groupEntries n) : ∃ g : TunableGroup, g.directory? = some entry.2.name := by
  obtain ⟨g, hg, rfl⟩ := List.mem_map.1 h
  refine ⟨g, ?_⟩
  cases g with
  | root => exact absurd hg (by decide)
  | loadTracking => rfl
  | frequency => rfl
  | policy => rfl

/-- The file of a tunable with the inode of its parent. -/
def tunableEntry (owner : ControllerId) (n : Nat) (t : Tunable) : Nat × Node Endpoint :=
  ((groupNode n t.spec.group).inode, tunableNode owner n t)

/-- All that is below the directory of a control plane, in the order in which it is made. -/
def layout (owner : ControllerId) (n : Nat) : List (Nat × Node Endpoint) :=
  groupEntries n ++ Tunable.all.map (tunableEntry owner n) ++ [(n, reportNode owner n)]

@[simp] theorem length_layout (owner : ControllerId) (n : Nat) : (layout owner n).length = 40 := rfl

@[simp] theorem isDirectory_groupNode (n : Nat) (g : TunableGroup) :
    (groupNode n g).isDirectory = true := by
  cases g <;> rfl

theorem inode_groupNode_mem (n : Nat) (g : TunableGroup) :
    n ≤ (groupNode n g).inode ∧ (groupNode n g).inode ≤ n + 3 := by
  cases g <;> simp [groupNode]

theorem inode_groupNode_injective {g g' : TunableGroup}
    (h : (groupNode n g).inode = (groupNode n g').inode) : g = g' := by
  revert h
  cases g <;> cases g' <;> simp [groupNode]

/-! ### No request is refused -/

theorem addGroups_nil (top : Node Endpoint) (tree : Namespace Endpoint) :
    addGroups top [] tree = (.ok fun _ => top, tree) := rfl

/-- A directory of a group is made if its name is good and free. -/
theorem addGroups_cons {gs : List TunableGroup} {name : String} (hd : top.isDirectory = true)
    (hg : g.directory? = some name) (hv : validName name = true) (hf : tree.Free top name)
    {place : TunableGroup → Node Endpoint} {tree' : Namespace Endpoint}
    (hrest : addGroups top gs (tree.grow top.inode ⟨tree.nextInode, name, .directory⟩) =
      (.ok place, tree')) :
    addGroups top (g :: gs) tree =
      (.ok fun g' => if g' = g then ⟨tree.nextInode, name, .directory⟩ else place g', tree') := by
  have hmkdir := Namespace.add_of_free hv hd hf (.directory : Content Endpoint)
  simp only [addGroups, hg, Namespace.mkdir, hmkdir, hrest]

theorem addGroups_all (hn : tree.nextInode = n + 1) (hc : tree.children n = []) :
    addGroups (groupNode n .root) TunableGroup.all tree =
      (.ok (groupNode n), tree.growAll (groupEntries n)) := by
  obtain ⟨children, next⟩ := tree
  cases hn
  have hfree : ∀ name, Namespace.Free ⟨children, n + 1⟩ (groupNode n .root) name :=
    Namespace.free_of_children_eq_nil hc
  have hwalt : "slim_walt" ≠ "slim_freq_gov" ∧ "slim_walt" ≠ "policy" := by decide
  have hfreq : "slim_freq_gov" ≠ "policy" := by decide
  have hd := isDirectory_groupNode n .root
  have hgroups :=
    addGroups_cons (g := .loadTracking) hd rfl (by decide) (hfree _) <|
    addGroups_cons (g := .frequency) hd rfl (by decide) ((hfree _).grow fun _ => hwalt.1) <|
    addGroups_cons (g := .policy) hd rfl (by decide)
      (((hfree _).grow fun _ => hwalt.2).grow fun _ => hfreq) (addGroups_nil _ _)
  refine hgroups.trans (Prod.ext (congrArg Except.ok (funext fun g => ?_)) rfl)
  cases g <;> rfl

/-- The files of tunables that follow each other in the order are made if their names are
free where they belong. -/
theorem addTunables_eq {ts : List Tunable} {i : Nat}
    (hi : ts.map (fun t => t.index.val) = List.range' i ts.length)
    (hn : tree.nextInode = n + 4 + i)
    (hf : ∀ t ∈ ts, tree.Free (groupNode n t.spec.group) t.name) :
    addTunables owner (groupNode n) ts tree =
      (.ok (), tree.growAll (ts.map (tunableEntry owner n))) := by
  induction ts generalizing tree i with
  | nil => rfl
  | cons t ts ih =>
    obtain ⟨hti, hi⟩ : t.index.val = i ∧ _ := List.cons_eq_cons.1 hi
    obtain ⟨ht, hts⟩ := List.forall_mem_cons.1 hf
    have hnode : (⟨tree.nextInode, t.name, .file (permOf t) (endpointOf owner t)⟩ : Node Endpoint) =
        tunableNode owner n t := by
      rw [tunableNode, hn, hti]
    have hadd := Namespace.add_of_free t.validName_name (isDirectory_groupNode n _) ht
      (.file (permOf t) (endpointOf owner t))
    rw [hnode] at hadd
    have hrest : ∀ u ∈ ts, (tree.grow (groupNode n t.spec.group).inode
        (tunableNode owner n t)).Free (groupNode n u.spec.group) u.name := by
      intro u hu
      -- a later tunable has another name
      refine (hts u hu).grow fun _ he => ?_
      have hmem : u.index.val ∈ List.range' (i + 1) ts.length := hi ▸ List.mem_map_of_mem hu
      rw [List.mem_range'_1, ← Tunable.name_injective he] at hmem
      omega
    have hnext : (tree.grow (groupNode n t.spec.group).inode (tunableNode owner n t)).nextInode =
        n + 4 + (i + 1) := by
      rw [Namespace.nextInode_grow, hn]
      omega
    simp only [addTunables, Namespace.create, hadd]
    exact ih hi hnext hrest

/-- **Below a new directory no request is refused.** -/
theorem populate_eq (hn : tree.nextInode = n + 1) (hc : ∀ i, n ≤ i → tree.children i = []) :
    populate owner (groupNode n .root) tree = (.ok (), tree.growAll (layout owner n)) := by
  have hfree : ∀ g name, tree.Free (groupNode n g) name := fun g name =>
    Namespace.free_of_children_eq_nil (hc _ (inode_groupNode_mem n g).1) name
  have htunables : addTunables owner (groupNode n) Tunable.all (tree.growAll (groupEntries n)) =
      (.ok (), (tree.growAll (groupEntries n)).growAll
        (Tunable.all.map (tunableEntry owner n))) := by
    refine addTunables_eq (i := 0) rfl ?_ fun t _ => (hfree _ _).growAll ?_
    · rw [Namespace.nextInode_growAll, hn]
      rfl
    · intro entry hentry _ he
      obtain ⟨g, hg⟩ := directory?_of_mem_groupEntries hentry
      exact g.directory?_ne_name t (he ▸ hg)
  have hreport : Namespace.Free ((tree.growAll (groupEntries n)).growAll
      (Tunable.all.map (tunableEntry owner n))) (groupNode n .root) Identity.reportFile := by
    refine ((hfree .root _).growAll fun entry hentry _ he => ?_).growAll fun entry hentry _ => ?_
    · obtain ⟨g, hg⟩ := directory?_of_mem_groupEntries hentry
      exact g.directory?_ne_reportFile (he ▸ hg)
    · obtain ⟨t, -, rfl⟩ := List.mem_map.1 hentry
      exact t.name_ne_reportFile
  have hadd := Namespace.add_of_free (by decide) (isDirectory_groupNode n .root) hreport
    (.file .readOnly (.report owner))
  have hnext : ((tree.growAll (groupEntries n)).growAll
      (Tunable.all.map (tunableEntry owner n))).nextInode = n + 40 := by
    rw [Namespace.nextInode_growAll, Namespace.nextInode_growAll, hn]
    rfl
  rw [hnext] at hadd
  unfold populate
  rw [addGroups_all hn (hc n (Nat.le_refl n))]
  simp only [htunables, addReport, Namespace.create, hadd, layout, Namespace.growAll_append]
  rfl

/-! ### Loading is a series of requests -/

section Later

variable {f : Forest Endpoint}

/-- The directories of the groups are made by requests, and whoever loads holds them. -/
theorem later_addGroups (htop : top ∈ f.held) (groups : List TunableGroup) :
    ∃ g, f.Later g ∧ (addGroups top groups f.tree).2 = g.tree ∧
      ∀ place, (addGroups top groups f.tree).1 = .ok place → ∀ group, place group ∈ g.held := by
  induction groups generalizing f with
  | nil =>
    refine ⟨f, .refl, rfl, fun place h _ => ?_⟩
    cases h
    exact htop
  | cons group groups ih =>
    cases hname : group.directory? with
    | none =>
      simp only [addGroups, hname]
      exact ih htop
    | some name =>
      have hadd := Forest.Later.refl.add htop name .directory
      cases hmade : f.tree.add top name .directory with
      | mk made tree =>
        simp only [addGroups, hname, Namespace.mkdir, hmade]
        cases made with
        | none =>
          rw [Forest.add_of_none hmade] at hadd
          exact ⟨_, hadd, rfl, fun place h => nomatch h⟩
        | some node =>
          rw [Forest.add_of_some hmade] at hadd
          obtain ⟨g, hg, htree, hplace⟩ := ih (f := ⟨tree, f.held ∪ {node}⟩) (Or.inl htop)
          have hnode : node ∈ g.held := hg.held_subset (Or.inr rfl)
          simp only at htree hplace ⊢
          cases hrest : addGroups top groups tree with
          | mk result tree' =>
            rw [hrest] at htree hplace
            cases result with
            | error cause => exact ⟨g, hadd.trans hg, htree, fun place h => nomatch h⟩
            | ok place =>
              refine ⟨g, hadd.trans hg, htree, fun place' h group' => ?_⟩
              cases h
              simp only
              split
              · exact hnode
              · exact hplace place rfl group'

theorem later_addTunables {place : TunableGroup → Node Endpoint}
    (hplace : ∀ group, place group ∈ f.held) (owner : ControllerId) (ts : List Tunable) :
    ∃ g, f.Later g ∧ (addTunables owner place ts f.tree).2 = g.tree := by
  induction ts generalizing f with
  | nil => exact ⟨f, .refl, rfl⟩
  | cons t ts ih =>
    have hadd := Forest.Later.refl.add (hplace t.spec.group) t.name
      (.file (permOf t) (endpointOf owner t))
    cases hmade : f.tree.add (place t.spec.group) t.name
        (.file (permOf t) (endpointOf owner t)) with
    | mk made tree =>
      simp only [addTunables, Namespace.create, hmade]
      cases made with
      | none =>
        rw [Forest.add_of_none hmade] at hadd
        exact ⟨_, hadd, rfl⟩
      | some node =>
        rw [Forest.add_of_some hmade] at hadd
        obtain ⟨g, hg, htree⟩ := ih (f := ⟨tree, f.held ∪ {node}⟩) fun group =>
          Or.inl (hplace group)
        exact ⟨g, hadd.trans hg, htree⟩

theorem snd_addReport (owner : ControllerId) (top : Node Endpoint) (tree : Namespace Endpoint) :
    (addReport owner top tree).2 =
      (tree.add top Identity.reportFile (.file .readOnly (.report owner))).2 := by
  unfold addReport Namespace.create
  split <;> rename_i h <;> rw [h]

theorem later_populate (htop : top ∈ f.held) (owner : ControllerId) :
    ∃ g, f.Later g ∧ (populate owner top f.tree).2 = g.tree := by
  obtain ⟨g, hg, hgroups, hplace⟩ := later_addGroups htop TunableGroup.all
  unfold populate
  cases hr : addGroups top TunableGroup.all f.tree with
  | mk result tree =>
    rw [hr] at hgroups hplace
    cases hgroups
    cases result with
    | error cause => exact ⟨g, hg, rfl⟩
    | ok place =>
      obtain ⟨h, hh, hfiles⟩ := later_addTunables (hplace place rfl) owner Tunable.all
      simp only
      cases hr' : addTunables owner place Tunable.all g.tree with
      | mk result' tree' =>
        rw [hr'] at hfiles
        cases hfiles
        cases result' with
        | error cause => exact ⟨h, hg.trans hh, rfl⟩
        | ok u =>
          have hheld : top ∈ h.held := hh.held_subset (hg.held_subset htop)
          exact ⟨_, ((hg.trans hh).add hheld _ _), snd_addReport owner top h.tree⟩

theorem tree_remove (s : System) (parent : Node Endpoint) (name : String) :
    (s.remove parent name).system.tree = (s.tree.remove? parent name).getD s.tree := by
  unfold remove
  cases s.tree.remove? parent name <;> rfl

theorem later_register {held : Set (Node Endpoint)} (hroot : Node.root ∈ held) (s : System)
    (owner : ControllerId) :
    ∃ g, Forest.Later ⟨s.tree, held⟩ g ∧ (s.register owner).system.tree = g.tree := by
  have hadd := Forest.Later.refl.add (f := ⟨s.tree, held⟩) hroot Identity.directory .directory
  unfold register Namespace.mkdir
  cases hmade : s.tree.add .root Identity.directory .directory with
  | mk made tree =>
    cases made with
    | none =>
      rw [Forest.add_of_none hmade] at hadd
      exact ⟨_, hadd, rfl⟩
    | some top =>
      rw [Forest.add_of_some hmade] at hadd
      obtain ⟨g, hg, htree⟩ := later_populate (f := ⟨tree, held ∪ {top}⟩) (Or.inr rfl) owner
      simp only at htree ⊢
      cases hr : populate owner top tree with
      | mk result tree' =>
        rw [hr] at htree
        cases htree
        cases result with
        | ok u => exact ⟨g, hadd.trans hg, rfl⟩
        | error cause =>
          -- what was made is taken back, which is one more request
          have hheld : Node.root ∈ g.held := hg.held_subset (Or.inl hroot)
          exact ⟨_, (hadd.trans hg).remove hheld Identity.directory, tree_remove _ _ _⟩

/-- Loading goes through requests only, also where it takes back what it made. -/
theorem later_load {held : Set (Node Endpoint)} (hroot : Node.root ∈ held) (s : System)
    (k : Kernel) :
    ∃ g, Forest.Later ⟨s.tree, held⟩ g ∧ (s.load k).system.tree = g.tree := by
  obtain ⟨g, hg, htree⟩ := later_register hroot s s.nextController
  refine ⟨g, hg, htree.symm ▸ ?_⟩
  unfold load
  cases hr : (s.register s.nextController).result with
  | error cause => simp only [hr]
  | ok u =>
    -- sizing and the first pass leave the tree alone
    simp only [hr]
    rfl

end Later

/-! ### What the new directories hold -/

theorem exists_group_of_mem_layout {entry : Nat × Node Endpoint} (h : entry ∈ layout owner n) :
    ∃ g, entry.1 = (groupNode n g).inode := by
  rw [layout, List.mem_append, List.mem_append] at h
  rcases h with (h | h) | h
  · obtain ⟨g, -, rfl⟩ := List.mem_map.1 h
    exact ⟨.root, rfl⟩
  · obtain ⟨t, -, rfl⟩ := List.mem_map.1 h
    exact ⟨t.spec.group, rfl⟩
  · rw [List.mem_singleton.1 h]
    exact ⟨.root, rfl⟩

/-- The files of the tunables of a group. -/
def groupFiles (owner : ControllerId) (n : Nat) (g : TunableGroup) : List (Node Endpoint) :=
  (Tunable.all.filter fun t => t.spec.group = g).map (tunableNode owner n)

/-- What the directory of a group gets. -/
def groupChildren (owner : ControllerId) (n : Nat) : TunableGroup → List (Node Endpoint)
  | .root =>
    [groupNode n .loadTracking, groupNode n .frequency, groupNode n .policy] ++
      groupFiles owner n .root ++ [reportNode owner n]
  | g => groupFiles owner n g

theorem filter_layout (owner : ControllerId) (n : Nat) (g : TunableGroup) :
    ((layout owner n).filter fun entry => entry.1 = (groupNode n g).inode).map (·.2) =
      groupChildren owner n g := by
  have hfiles : ((Tunable.all.map (tunableEntry owner n)).filter fun entry =>
      entry.1 = (groupNode n g).inode).map (·.2) = groupFiles owner n g := by
    rw [List.filter_map, List.map_map, groupFiles]
    congr 1
    refine List.filter_congr fun t _ => ?_
    exact decide_eq_decide.2 ⟨inode_groupNode_injective, fun h => by rw [← h]; rfl⟩
  rw [layout, List.filter_append, List.filter_append, List.map_append, List.map_append, hfiles]
  cases g <;> simp [groupEntries, groupNode, groupChildren]

/-! ### All or nothing -/

/-- The tree after loading. -/
def laid (owner : ControllerId) (tree : Namespace Endpoint) : Namespace Endpoint :=
  (tree.grow 1 (groupNode tree.nextInode .root)).growAll (layout owner tree.nextInode)

/-- Loading makes nothing if the name is taken, though an inode is used up, and all of the
layout if it is free. -/
theorem register_cases {held : Set (Node Endpoint)} (hs : Forest.Sound ⟨s.tree, held⟩)
    (owner : ControllerId) :
    (¬s.tree.Free .root Identity.directory ∧ s.register owner =
        { result := .error (.entryNotCreated Identity.directory)
          system := { s with tree := { s.tree with nextInode := s.tree.nextInode + 1 } } }) ∨
      (s.tree.Free .root Identity.directory ∧ s.register owner =
        { result := .ok (), system := { s with tree := laid owner s.tree } }) := by
  unfold register Namespace.mkdir
  rcases s.tree.add_cases .root Identity.directory .directory with
    ⟨hr, -⟩ | ⟨-, -, ht, ha⟩ | ⟨-, -, hf, ha⟩
  · exact absurd hr (by decide)
  · rw [ha]
    exact Or.inl ⟨ht, rfl⟩
  · have hmade : s.tree.add .root Identity.directory .directory =
        (some (groupNode s.tree.nextInode .root),
          s.tree.grow 1 (groupNode s.tree.nextInode .root)) := ha
    -- the new node has no children yet, and neither has any node after it
    have hpop : populate owner (groupNode s.tree.nextInode .root)
        (s.tree.grow 1 (groupNode s.tree.nextInode .root)) = (.ok (), laid owner s.tree) := by
      refine populate_eq rfl fun i hi => ?_
      have hroot : 1 < s.tree.nextInode := hs.bound hs.root
      rw [Namespace.children_grow, hs.children_of_le hi, if_neg (by omega)]
      rfl
    rw [hmade]
    refine Or.inr ⟨hf, ?_⟩
    simp only [hpop]

theorem load_cases {held : Set (Node Endpoint)} (hs : Forest.Sound ⟨s.tree, held⟩) (k : Kernel) :
    (¬s.tree.Free .root Identity.directory ∧
        (s.load k).result = .error (.entryNotCreated Identity.directory) ∧
        (s.load k).system =
          { s with tree := { s.tree with nextInode := s.tree.nextInode + 1 } } ∧
        (s.load k).kicked = []) ∨
      (s.tree.Free .root Identity.directory ∧ (s.load k).result = .ok s.nextController ∧
        (s.load k).system.tree = laid s.nextController s.tree) := by
  rcases register_cases hs s.nextController with ⟨ht, hr⟩ | ⟨hf, hr⟩
  · refine Or.inl ⟨ht, ?_, ?_, ?_⟩ <;> simp only [load, hr]
  · refine Or.inr ⟨hf, ?_, ?_⟩ <;> simp only [load, hr]
    rfl

theorem children_laid_group {held : Set (Node Endpoint)} (hs : Forest.Sound ⟨tree, held⟩)
    (owner : ControllerId) (g : TunableGroup) :
    (laid owner tree).children (groupNode tree.nextInode g).inode =
      groupChildren owner tree.nextInode g := by
  have hroot : 1 < tree.nextInode := hs.bound hs.root
  have hle := (inode_groupNode_mem tree.nextInode g).1
  unfold laid
  rw [Namespace.children_growAll, filter_layout, Namespace.children_grow, hs.children_of_le hle,
    if_neg (by omega)]
  rfl

/-- Beside the new directories only the root gets a node. -/
theorem children_laid_of_outside (owner : ControllerId) (tree : Namespace Endpoint) {i : Nat}
    (hi : i < tree.nextInode ∨ tree.nextInode + 3 < i) :
    (laid owner tree).children i =
      tree.children i ++ if i = 1 then [groupNode tree.nextInode .root] else [] := by
  unfold laid
  rw [Namespace.children_growAll, List.filter_eq_nil_iff.2, Namespace.children_grow]
  · exact List.append_nil _
  · intro entry hentry he
    obtain ⟨g, hg⟩ := exists_group_of_mem_layout hentry
    have hinode := inode_groupNode_mem tree.nextInode g
    rw [decide_eq_true_iff] at he
    omega

/-- The name leads to the new directory if it was free. -/
theorem child?_laid (hn : 1 < tree.nextInode) (hf : tree.Free .root Identity.directory)
    (owner : ControllerId) :
    (laid owner tree).child? .root Identity.directory = some (groupNode tree.nextInode .root) := by
  have hnone := Namespace.child?_eq_none_iff.2 hf
  unfold Namespace.child? at hnone ⊢
  rw [Node.inode_root] at hnone ⊢
  rw [children_laid_of_outside owner tree (Or.inl hn), List.find?_append, hnone]
  rfl

theorem nextInode_laid (owner : ControllerId) (tree : Namespace Endpoint) :
    (laid owner tree).nextInode = tree.nextInode + 41 := by
  unfold laid
  rw [Namespace.nextInode_growAll, Namespace.nextInode_grow, length_layout]

/-- **Loading is all or nothing, and this is all.**  It fails only if the root has an entry
of that name, and then no list of children changes and no CPU is made to reschedule.

The inodes here do not come round; how long they are the numbers that the nodes are shown
under is said by `Session.numbers_fit`. -/
theorem load_layout {held : Set (Node Endpoint)} (hr : Forest.Reachable ⟨s.tree, held⟩)
    (k : Kernel) :
    let loaded := s.load k
    let tree := loaded.system.tree
    let n := s.tree.nextInode
    let bits (t : Tunable) : UInt16 := if t.spec.access = .readWrite then 0o666 else 0o444
    let files (owner : ControllerId) (g : TunableGroup) : List (Node Endpoint) :=
      (Tunable.all.filter fun t => t.spec.group = g).map fun t =>
        ⟨n + 4 + t.index, t.name, .file ⟨bits t⟩ (endpointOf owner t)⟩
    ((∃ cause, loaded.result = .error cause) ↔
        ∃ node ∈ s.tree.children 1, node.name = "hmbird_sched") ∧
      (∀ cause, loaded.result = .error cause →
        cause = .entryNotCreated "hmbird_sched" ∧
          (∀ i, tree.children i = s.tree.children i) ∧ loaded.kicked = []) ∧
      (∀ owner, loaded.result = .ok owner →
        tree.children 1 = s.tree.children 1 ++ [⟨n, "hmbird_sched", .directory⟩] ∧
          tree.children n =
            [⟨n + 1, "slim_walt", .directory⟩, ⟨n + 2, "slim_freq_gov", .directory⟩,
              ⟨n + 3, "policy", .directory⟩] ++ files owner .root ++
              [⟨n + 40, "hmbird_stats", .file ⟨0o444⟩ (.report owner)⟩] ∧
          (files owner .root).length = 24 ∧
          tree.children (n + 1) = files owner .loadTracking ∧
          tree.children (n + 2) = files owner .frequency ∧
          tree.children (n + 3) = files owner .policy ∧
          ∀ i, i ≠ 1 → (i < n ∨ n + 3 < i) → tree.children i = s.tree.children i) := by
  intro loaded tree n bits files
  have hs := hr.sound
  have hroot : 1 < s.tree.nextInode := hs.bound hs.root
  have hfree : s.tree.Free .root Identity.directory ↔
      ¬∃ node ∈ s.tree.children 1, node.name = "hmbird_sched" := Namespace.free_iff_not_exists
  have hfiles : ∀ owner g, files owner g = groupFiles owner n g := by
    intro owner g
    refine List.map_congr_left fun t _ => ?_
    rw [tunableNode, permOf_eq]
  rcases load_cases hs k with ⟨ht, hresult, hsystem, hkicked⟩ | ⟨hf, hresult, htree⟩
  · refine ⟨⟨fun _ => ?_, fun _ => ⟨_, hresult⟩⟩, fun cause h => ?_, fun owner h => ?_⟩
    · rwa [hfree, not_not] at ht
    · cases hresult.symm.trans h
      exact ⟨rfl, fun i => by rw [show tree = _ from congrArg System.tree hsystem], hkicked⟩
    · cases hresult.symm.trans h
  · refine ⟨⟨fun ⟨_, h⟩ => ?_, fun h => absurd h (hfree.1 hf)⟩, fun cause h => ?_,
      fun owner h => ?_⟩
    · cases hresult.symm.trans h
    · cases hresult.symm.trans h
    · cases hresult.symm.trans h
      have hgroup := children_laid_group hs s.nextController
      rw [← htree] at hgroup
      have hother : ∀ i, (i < n ∨ n + 3 < i) →
          tree.children i = s.tree.children i ++ if i = 1 then [groupNode n .root] else [] := by
        intro i hi
        rw [show tree = _ from htree]
        exact children_laid_of_outside _ _ hi
      refine ⟨hother 1 (Or.inl hroot), ?_, rfl, ?_, ?_, ?_, fun i hi hin => ?_⟩
      · rw [hfiles]
        exact hgroup .root
      · rw [hfiles]
        exact hgroup .loadTracking
      · rw [hfiles]
        exact hgroup .frequency
      · rw [hfiles]
        exact hgroup .policy
      · rw [hother i hin, if_neg hi, List.append_nil]

/-- The name is taken below another directory, which does not matter.  The directory gets
inode 4, and the files of the frequency group stand at places 28 and 29 of the order. -/
theorem load_layout_taken_elsewhere :
    let notes : Node Endpoint := ⟨2, "notes", .directory⟩
    let inner : Node Endpoint := ⟨3, "hmbird_sched", .directory⟩
    let s : System := { tree := (Namespace.empty.grow 1 notes).grow 2 inner }
    Forest.Reachable ⟨s.tree, {.root} ∪ {notes} ∪ {inner}⟩ ∧
      (s.load {}).system.tree.children 1 = [notes, ⟨4, "hmbird_sched", .directory⟩] ∧
      (s.load {}).system.tree.children 6 =
        [⟨36, "slim_gov_debug", .file ⟨0o666⟩ (.tunable 1 .slimGovDebug)⟩,
          ⟨37, "scx_gov_ctrl", .file ⟨0o666⟩ (.tunable 1 .scxGovCtrl)⟩] := by
  intro notes inner s
  have hreach : Forest.Reachable ⟨s.tree, {.root} ∪ {notes} ∪ {inner}⟩ := by
    have hnotes := Forest.Later.refl.grow (f := .start) (Set.mem_singleton _)
      (by decide : validName "notes" = true) rfl
      (Namespace.free_of_children_eq_nil rfl _) (.directory : Content Endpoint)
    exact hnotes.grow (Or.inr rfl) (by decide : validName "hmbird_sched" = true) rfl
      (Namespace.free_of_children_eq_nil rfl _) .directory
  have hresult : (s.load {}).result = .ok 1 := by decide +kernel
  have hfiles : (Tunable.all.filter fun t => t.spec.group = .frequency) =
      [.slimGovDebug, .scxGovCtrl] := by
    decide
  obtain ⟨hroot, -, -, -, hfrequency, -⟩ := (load_layout hreach {}).2.2 1 hresult
  have hn : s.tree.nextInode + 2 = 6 := rfl
  simp only [hfiles, hn] at hfrequency
  exact ⟨hreach, hroot.trans rfl, hfrequency.trans rfl⟩

end System
end CpuSteward
