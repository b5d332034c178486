import CpuSteward.Proofs.Reload

/-!
# Sessions

In a session control planes are loaded and unloaded on one tree in any order, and others make
and remove nodes there in between.

Unloading goes by the name of the directory and not by the node that loading made.  As long
as that node is in its place this comes to the same.  If someone took it out, another node
may stand there under its name, and unloading takes that one out.

## Main definitions

* `Request`, `Session` — what happens on a tree, and what came of it.
* `Session.Reached` — the sessions that requests of some kind lead to.
* `Session.Settled` — the directories of all control planes are in their place.

## Main results

* `System.mem_children_unload`, `System.walk?_unload` — what unloading takes out.
* `Session.Reached.sound`, `Session.Reached.settled` — what holds all through a session.
* `Session.unload_by_name` — **unloading takes out what has the name, and that is its own
  directory unless someone took it out before.**
* `Session.unload_takes_other` — it may be the directory of another control plane.
-/

namespace CpuSteward

namespace Namespace

variable {ε : Type} {ns : Namespace ε} {parent n : Node ε} {name : String} {content : Content ε}
  {i : Nat}

/-- The nodes that are in the list of some node. -/
def listed (ns : Namespace ε) : Set (Node ε) := {n | ∃ i, n ∈ ns.children i}

/-- A request to make a node loses none. -/
theorem mem_children_add (h : n ∈ ns.children i) :
    n ∈ (ns.add parent name content).2.children i := by
  rcases ns.add_cases parent name content with ⟨-, ha⟩ | ⟨-, -, -, ha⟩ | ⟨-, -, -, ha⟩ <;> rw [ha]
  · exact h
  · exact h
  · exact mem_children_grow.2 (Or.inl h)

theorem name_of_add (h : (ns.add parent name content).1 = some n) : n.name = name := by
  rcases ns.add_cases parent name content with ⟨-, ha⟩ | ⟨-, -, -, ha⟩ | ⟨-, -, -, ha⟩ <;>
    rw [ha] at h <;> cases h
  rfl

end Namespace

namespace System

variable {s : System} {held : Set (Node Endpoint)} {node : Node Endpoint}

/-! ### What unloading takes out -/

/-- Unloading leaves of the entries of the root those that have another name. -/
theorem mem_children_unload (hs : Forest.Sound ⟨s.tree, held⟩) (k : Kernel) (id : ControllerId) :
    node ∈ (s.unload k id).system.tree.children 1 ↔
      node ∈ s.tree.children 1 ∧ node.name ≠ Identity.directory := by
  rw [tree_unload]
  cases hr : s.tree.remove? .root Identity.directory with
  | none =>
    have hnone : s.tree.child? .root Identity.directory = none := Option.map_eq_none_iff.1 hr
    exact ⟨fun h => ⟨h, Namespace.child?_eq_none_iff.1 hnone node h⟩, And.left⟩
  | some ns =>
    obtain ⟨x, hx, -⟩ := Namespace.children_remove? hr
    obtain ⟨hmem, -⟩ := hs.child?_eq_some_iff.1 hx
    have hyounger : 1 < x.inode := hs.younger hmem
    have hiff : node ∈ s.tree.children 1 → (node.name = Identity.directory ↔ node = x) := by
      intro h
      constructor
      · intro hname
        exact Option.some.inj ((hs.child?_eq_some_iff.2 ⟨h, hname⟩).symm.trans hx)
      · rintro rfl
        exact (hs.child?_eq_some_iff.1 hx).2
    rw [Option.getD_some, hs.mem_children_remove? hr hx]
    constructor
    · rintro ⟨h, -, hne⟩
      exact ⟨h, fun hname => hne ((hiff h).1 hname)⟩
    · rintro ⟨h, hname⟩
      exact ⟨h, Nat.ne_of_lt hyounger, fun he => hname ((hiff h).2 he)⟩

/-- Unloading leaves all ways that do not start with its name. -/
theorem walk?_unload (hs : Forest.Sound ⟨s.tree, held⟩) (k : Kernel) (id : ControllerId)
    {names : List String} (hn : names.head? ≠ some Identity.directory) :
    (s.unload k id).system.tree.walk? .root names = s.tree.walk? .root names := by
  rw [tree_unload]
  cases hr : s.tree.remove? .root Identity.directory with
  | none => rfl
  | some ns =>
    obtain ⟨x, hx, -⟩ := Namespace.children_remove? hr
    refine hs.walk?_remove? hr hx hs.root fun way hway hwalk => hn ?_
    -- the only way to the removed node is its name
    have hname := hs.eq_of_walk? (Namespace.mem_of_child? hx) hwalk
    rw [Namespace.name_of_child? hx] at hname
    subst hname
    obtain ⟨rest, rfl⟩ := hway
    rfl

end System

/-- What can happen in a session. -/
inductive Request where
  /-- Load a control plane. -/
  | load (k : Kernel)
  /-- Unload a control plane. -/
  | unload (k : Kernel) (id : ControllerId)
  /-- Ask something of a controller, or read or write a file. -/
  | act (st : Step)
  /-- Make a directory. -/
  | mkdir (parent : Node Endpoint) (name : String)
  /-- Make a file. -/
  | create (parent : Node Endpoint) (name : String) (perm : Perm) (endpoint : Endpoint)
  /-- Take a node out of the tree. -/
  | remove (parent : Node Endpoint) (name : String)

/-- A system and what is known of it outside. -/
structure Session where
  system : System
  /-- The nodes that someone may hold a handle to. -/
  held : Set (Node Endpoint)
  /-- The directory that loading made for a control plane, while that is loaded. -/
  home : ControllerId → Option (Node Endpoint)

namespace Session

variable {σ : Session} {K : Request → Prop} {r : Request} {k : Kernel} {id : ControllerId}
  {top : Node Endpoint}

/-- The new tree without any control plane. -/
def start : Session := ⟨{}, {.root}, fun _ => none⟩

/-- The tree with the nodes that someone may hold. -/
def forest (σ : Session) : Forest Endpoint := ⟨σ.system.tree, σ.held⟩

/-- The session with another system, in which all that can be found is found. -/
def see (σ : Session) (s : System) : Session :=
  { σ with system := s, held := σ.held ∪ s.tree.listed }

/-- The session with another directory, or none, for one control plane. -/
def settle (σ : Session) (id : ControllerId) (top : Option (Node Endpoint)) : Session :=
  { σ with home := fun i => if i = id then top else σ.home i }

/-- What a request leads to. -/
def step (σ : Session) : Request → Session
  | .load k =>
    match (σ.system.load k).result with
    | .error _ => σ.see (σ.system.load k).system
    | .ok id =>
      (σ.see (σ.system.load k).system).settle id (σ.system.tree.mkdir .root Identity.directory).1
  | .unload k id => (σ.see (σ.system.unload k id).system).settle id none
  | .act st => σ.see (σ.system.act st).system
  | .mkdir parent name => σ.see (σ.system.mkdir parent name).2
  | .create parent name perm endpoint => σ.see (σ.system.create parent name perm endpoint).2
  | .remove parent name => σ.see (σ.system.remove parent name).system

/-- A request goes to a node that someone holds, and a control plane is unloaded while it is
loaded. -/
def Allows (σ : Session) : Request → Prop
  | .unload _ id => σ.home id ≠ none
  | .mkdir parent _ => parent ∈ σ.held
  | .create parent _ _ _ => parent ∈ σ.held
  | .remove parent _ => parent ∈ σ.held
  | _ => True

/-- The sessions that requests of some kind lead to. -/
inductive Reached (K : Request → Prop) : Session → Prop where
  | start : Reached K start
  | step {σ : Session} (h : Reached K σ) {r : Request} (hk : K r) (ha : σ.Allows r) :
      Reached K (σ.step r)

/-! ### The tree is sound all through a session -/

theorem held_step (σ : Session) (r : Request) :
    (σ.step r).held = σ.held ∪ (σ.step r).system.tree.listed := by
  cases r with
  | load k =>
    simp only [step]
    split <;> rfl
  | _ => rfl

theorem system_step_load (σ : Session) (k : Kernel) :
    (σ.step (.load k)).system = (σ.system.load k).system := by
  simp only [step]
  split <;> rfl

/-- A request of a session comes down to requests to make and remove nodes. -/
theorem later_step (hroot : Node.root ∈ σ.held) (ha : σ.Allows r) :
    ∃ g, σ.forest.Later g ∧ (σ.step r).system.tree = g.tree := by
  cases r with
  | load k =>
    rw [system_step_load]
    exact System.later_load hroot σ.system k
  | unload k id => exact ⟨_, Forest.Later.refl.remove hroot _, System.tree_unload σ.system k id⟩
  | act st => exact ⟨_, .refl, System.tree_act σ.system st⟩
  | mkdir parent name => exact ⟨_, Forest.Later.refl.add ha name .directory, rfl⟩
  | create parent name perm endpoint =>
    exact ⟨_, Forest.Later.refl.add ha name (.file perm endpoint), rfl⟩
  | remove parent name =>
    exact ⟨_, Forest.Later.refl.remove ha name, System.tree_remove σ.system parent name⟩

theorem sound_step (hs : σ.forest.Sound) (ha : σ.Allows r) : (σ.step r).forest.Sound := by
  obtain ⟨g, hg, htree⟩ := later_step hs.root ha
  have hlisted : (σ.step r).held = σ.held ∪ g.tree.listed := htree ▸ held_step σ r
  have hsound := hs.later hg
  unfold forest
  rw [hlisted, htree]
  refine hsound.forget (Set.union_subset hg.held_subset ?_) (Or.inl hs.root) ?_
  · rintro n ⟨i, hn⟩
    exact hsound.listed hn
  · exact fun i n hn => Or.inr ⟨i, hn⟩

/-- All through a session names, inodes and child lists are in order. -/
theorem Reached.sound (h : σ.Reached K) : σ.forest.Sound := by
  induction h with
  | start => exact Forest.sound_start
  | step _ _ ha ih => exact sound_step ih ha

theorem Reached.root_mem_held (h : σ.Reached K) : Node.root ∈ σ.held := h.sound.root

/-! ### The directories of the control planes -/

/-- A control plane that has a directory had it before and is not unloaded, or is loaded. -/
theorem home_of_step (h : (σ.step r).home id = some top) :
    (σ.home id = some top ∧ ∀ k, r ≠ .unload k id) ∨
      ∃ k, r = .load k ∧ (σ.system.load k).result = .ok id ∧
        (σ.system.tree.mkdir .root Identity.directory).1 = some top := by
  cases r with
  | load k =>
    cases hresult : (σ.system.load k).result with
    | error cause =>
      simp only [step, hresult] at h
      exact Or.inl ⟨h, fun _ he => nomatch he⟩
    | ok owner =>
      simp only [step, hresult, settle] at h
      by_cases hid : id = owner
      · subst hid
        rw [if_pos rfl] at h
        exact Or.inr ⟨k, rfl, hresult, h⟩
      · rw [if_neg hid] at h
        exact Or.inl ⟨h, fun _ he => nomatch he⟩
  | unload k owner =>
    simp only [step, settle] at h
    by_cases hid : id = owner
    · rw [if_pos hid] at h
      cases h
    · rw [if_neg hid] at h
      refine Or.inl ⟨h, fun k' he => ?_⟩
      cases he
      exact hid rfl
  | _ => exact Or.inl ⟨h, fun _ he => nomatch he⟩

/-- What loading made has the name that unloading looks for. -/
theorem Reached.name_of_home (h : σ.Reached K) (hid : σ.home id = some top) :
    top.name = Identity.directory := by
  induction h with
  | start => cases hid
  | step _ _ _ ih =>
    rcases home_of_step hid with ⟨hid, -⟩ | ⟨k, -, -, hmade⟩
    · exact ih hid
    · exact Namespace.name_of_add hmade

/-- The directories of all control planes are in their place.  As they share a name, there is
one control plane at most. -/
structure Settled (σ : Session) : Prop where
  present : ∀ {id top}, σ.home id = some top →
    top ∈ σ.system.tree.children 1 ∧ top.name = Identity.directory
  alone : ∀ {id id' top top'}, σ.home id = some top → σ.home id' = some top' → id = id'

/-- A request that loads nothing, and leaves the directories in their place. -/
theorem Settled.keep (hσ : σ.Settled)
    (hh : ∀ id top, (σ.step r).home id = some top → σ.home id = some top)
    (hc : ∀ id top, σ.home id = some top → top ∈ σ.system.tree.children 1 →
      top ∈ (σ.step r).system.tree.children 1) : (σ.step r).Settled where
  present hid := by
    obtain ⟨hmem, hname⟩ := hσ.present (hh _ _ hid)
    exact ⟨hc _ _ (hh _ _ hid) hmem, hname⟩
  alone hid hid' := hσ.alone (hh _ _ hid) (hh _ _ hid')

theorem Settled.load (hσ : σ.Settled) (hs : σ.forest.Sound) (k : Kernel) :
    (σ.step (.load k)).Settled := by
  rcases System.load_cases hs k with ⟨-, hresult, hsystem, -⟩ | ⟨hf, hresult, htree⟩
  · refine hσ.keep (fun id top hid => ?_) fun id top _ hmem => ?_
    · rcases home_of_step hid with ⟨hid, -⟩ | ⟨k', he, hok, -⟩
      · exact hid
      · cases he
        cases hresult.symm.trans hok
    · rw [system_step_load, hsystem]
      exact hmem
  · -- the name was free, so no control plane was loaded before
    have hmade : ∀ id top, (σ.step (.load k)).home id = some top →
        id = σ.system.nextController ∧
          (σ.system.tree.mkdir .root Identity.directory).1 = some top := by
      intro id top hid
      rcases home_of_step hid with ⟨hid, -⟩ | ⟨k', he, hok, hmade⟩
      · obtain ⟨hmem, hname⟩ := hσ.present hid
        exact absurd hname (hf top hmem)
      · cases he
        cases hresult.symm.trans hok
        exact ⟨rfl, hmade⟩
    refine ⟨fun {id top} hid => ?_, fun hid hid' => ?_⟩
    · obtain ⟨-, hmade⟩ := hmade id top hid
      refine ⟨?_, Namespace.name_of_add hmade⟩
      have hadd := Namespace.add_of_free (by decide) rfl hf (.directory : Content Endpoint)
      unfold Namespace.mkdir at hmade
      rw [hadd] at hmade
      cases hmade
      have hroot : 1 < σ.system.tree.nextInode := hs.bound hs.root
      rw [system_step_load, htree, System.children_laid_of_outside _ _ (Or.inl hroot)]
      exact List.mem_append_right _ (List.mem_singleton_self _)
    · exact (hmade _ _ hid).1.trans (hmade _ _ hid').1.symm

/-- Without the one control plane that was loaded none is left. -/
theorem Settled.unload (hσ : σ.Settled) (ha : σ.home id ≠ none) (k : Kernel) :
    (σ.step (.unload k id)).Settled := by
  obtain ⟨top, htop⟩ := Option.ne_none_iff_exists'.1 ha
  have hnone : ∀ i top', (σ.step (.unload k id)).home i ≠ some top' := by
    intro i top' hid
    rcases home_of_step hid with ⟨hid, hne⟩ | ⟨k', he, -⟩
    · cases hσ.alone htop hid
      exact hne k rfl
    · cases he
  exact ⟨fun hid => absurd hid (hnone _ _), fun hid => absurd hid (hnone _ _)⟩

/-- Only a removal of that name from the root takes a directory out of its place. -/
theorem Settled.remove (hσ : σ.Settled) (hs : σ.forest.Sound) {parent : Node Endpoint}
    {name : String} (ha : parent ∈ σ.held)
    (hr : Request.remove parent name ≠ .remove .root Identity.directory) :
    (σ.step (.remove parent name)).Settled := by
  refine hσ.keep (fun _ _ hid => hid) fun id top hid hmem => ?_
  have htree : (σ.step (.remove parent name)).system.tree =
      (σ.system.tree.remove? parent name).getD σ.system.tree :=
    System.tree_remove σ.system parent name
  rw [htree]
  cases hrem : σ.system.tree.remove? parent name with
  | none => exact hmem
  | some ns =>
    obtain ⟨x, hx, -⟩ := Namespace.children_remove? hrem
    obtain ⟨hxmem, hxname⟩ := hs.child?_eq_some_iff.1 hx
    rw [Option.getD_some, hs.mem_children_remove? hrem hx]
    refine ⟨hmem, ?_, ?_⟩
    · -- a child is younger than its parent, and the root is the first of all
      have hyounger := hs.younger hxmem
      have hpos := hs.pos ha
      omega
    · rintro rfl
      have hp : parent = .root := hs.unique ha hs.root (hs.single hxmem hmem)
      have hn : name = Identity.directory := hxname.symm.trans (hσ.present hid).2
      rw [hp, hn] at hr
      exact hr rfl

theorem settled_step (hs : σ.forest.Sound) (hσ : σ.Settled) (ha : σ.Allows r)
    (hr : r ≠ .remove .root Identity.directory) : (σ.step r).Settled := by
  cases r with
  | load k => exact hσ.load hs k
  | unload k id => exact hσ.unload ha k
  | act st =>
    refine hσ.keep (fun _ _ hid => hid) fun id top _ hmem => ?_
    show top ∈ (σ.system.act st).system.tree.children 1
    rwa [System.tree_act]
  | mkdir parent name =>
    exact hσ.keep (fun _ _ hid => hid) fun _ _ _ => Namespace.mem_children_add
  | create parent name perm endpoint =>
    exact hσ.keep (fun _ _ hid => hid) fun _ _ _ => Namespace.mem_children_add
  | remove parent name => exact hσ.remove hs ha hr

/-- If no one outside removes that name from the root, all directories stay in their place. -/
theorem Reached.settled (h : σ.Reached K)
    (hK : ∀ r, K r → r ≠ .remove .root Identity.directory) : σ.Settled := by
  induction h with
  | start => exact ⟨(nomatch ·), (nomatch ·)⟩
  | step h hk ha ih => exact settled_step h.sound ih ha (hK _ hk)

/-! ### What unloading takes out -/

/-- **Unloading takes out of the root what has the name of the directory, and nothing else.**
All ways that do not start with that name stay as they are.  If the directory that loading
made is in its place, it is what is taken out; and it is in its place if no one outside
removes that name from the root. -/
theorem unload_by_name (h : σ.Reached K) (hid : σ.home id = some top) (k : Kernel) :
    let old := σ.system.tree
    let new := (σ.system.unload k id).system.tree
    (∀ node, node ∈ new.children 1 ↔
        node ∈ old.children 1 ∧ node.name ≠ "hmbird_sched") ∧
      (∀ path, (Path.components path).head? ≠ some "hmbird_sched" →
        new.resolve? path = old.resolve? path) ∧
      (top ∈ old.children 1 →
        ∀ node ∈ old.children 1, node ∉ new.children 1 ↔ node = top) ∧
      ((∀ r, K r → r ≠ .remove .root "hmbird_sched") → top ∈ old.children 1) := by
  intro old new
  have hs := h.sound
  have hmem : ∀ node, node ∈ new.children 1 ↔
      node ∈ old.children 1 ∧ node.name ≠ "hmbird_sched" :=
    fun node => System.mem_children_unload hs k id
  refine ⟨hmem, fun path hpath => System.walk?_unload hs k id hpath, fun htop node hnode => ?_,
    fun hK => ((h.settled hK).present hid).1⟩
  have hname := h.name_of_home hid
  rw [hmem, not_and, not_not]
  constructor
  · intro hn
    -- two entries of one name are the same
    have hchild : σ.forest.tree.child? .root Identity.directory = some top :=
      hs.child?_eq_some_iff.2 ⟨htop, hname⟩
    exact Option.some.inj ((hs.child?_eq_some_iff.2 ⟨hnode, hn hnode⟩).symm.trans hchild)
  · rintro rfl _
    exact hname

/-- Someone makes a directory beside that of the control plane, and it stays. -/
theorem unload_by_name_beside :
    let σ := (start.step (.load {})).step (.mkdir .root "notes")
    let new := (σ.system.unload {} 1).system.tree
    ∃ top, σ.home 1 = some top ∧ top.inode = 2 ∧ top ∈ σ.system.tree.children 1 ∧
      (∀ node ∈ σ.system.tree.children 1, node ∉ new.children 1 ↔ node = top) ∧
      (new.resolve? "notes").map Node.inode = some 43 := by
  intro σ new
  let K : Request → Prop := fun r => r ≠ .remove .root "hmbird_sched"
  have hloaded : (start.step (.load {})).Reached K := Reached.start.step nofun trivial
  have hreached : σ.Reached K :=
    hloaded.step (r := .mkdir .root "notes") nofun hloaded.root_mem_held
  have hrun : (σ.home 1).map Node.inode = some 2 ∧
      (σ.system.tree.resolve? "notes").map Node.inode = some 43 ∧
      (Path.components "notes").head? ≠ some "hmbird_sched" := by
    decide +kernel
  obtain ⟨hhome, hnotes, hpath⟩ := hrun
  obtain ⟨top, htop, hinode⟩ := Option.map_eq_some_iff.1 hhome
  obtain ⟨-, hways, hown, hplace⟩ := unload_by_name hreached htop {}
  have hmem := hplace fun _ hr => hr
  refine ⟨top, htop, hinode, hmem, hown hmem, ?_⟩
  rw [hways "notes" hpath]
  exact hnotes

/-- A control plane is loaded, someone takes its directory out, and another one is loaded.
Unloading the first one takes out the directory of the second. -/
theorem unload_takes_other :
    let σ := ((start.step (.load {})).step (.remove .root "hmbird_sched")).step (.load {})
    let unloaded := (σ.system.unload {} 1).system
    σ.Reached (fun _ => True) ∧
      (σ.home 1).map Node.inode = some 2 ∧ (σ.home 2).map Node.inode = some 43 ∧
      (σ.system.tree.resolve? "hmbird_sched").map Node.inode = some 43 ∧
      (σ.system.tree.resolve? "hmbird_sched/heartbeat").map Node.inode = some 60 ∧
      (unloaded.tree.resolve? "hmbird_sched").map Node.inode = none ∧
      (unloaded.tree.resolve? "hmbird_sched/heartbeat").map Node.inode = none := by
  intro σ unloaded
  have hloaded : (start.step (.load {})).Reached fun _ => True :=
    Reached.start.step (r := .load {}) trivial trivial
  have hremoved := hloaded.step (r := .remove .root "hmbird_sched") trivial hloaded.root_mem_held
  have hreached : σ.Reached fun _ => True := hremoved.step (r := .load {}) trivial trivial
  exact ⟨hreached, by decide +kernel⟩

end Session
end CpuSteward
