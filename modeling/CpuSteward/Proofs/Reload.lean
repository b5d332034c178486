import CpuSteward.Proofs.Layout

/-!
# Unloading takes back what loading made

No action of a controller changes the tree, so unloading finds it as loading left it,
whatever happened in between.  What it takes out is then the directory that loading made,
and what remains is the tree as it was before, apart from the inodes that are used up.

The last pass runs with rebalancing switched off, and the gate has no say in it.

## Main definitions

* `System.lastSteps` — unloading as steps of the controller.

## Main results

* `System.tree_run` — a run leaves the tree alone.
* `System.controller_unload`, `System.kicked_unload`, `System.tree_unload` — the parts of
  unloading.
* `System.unload_laid` — every list of children is as it was before loading.
* `System.load_unload` — **loading and unloading cancel out.**
-/

namespace CpuSteward

/-- Without rebalancing no CPU is made to reschedule, whatever the load. -/
theorem Pass.kicked_of_disabled (k : Kernel) {r : Registry}
    (h : r.get .policyOptimizationEnabled = 0) : (Pass.of k r).kicked = [] := by
  rw [kicked_of, if_neg]
  intro hr
  exact ((rebalanced_of k r).1 hr).2 h

namespace System

variable {s s' : System} {k : Kernel} {id owner : ControllerId} {i : Nat}
  {held : Set (Node Endpoint)}

/-! ### A run leaves the tree alone -/

theorem tree_act (s : System) (st : Step) : (s.act st).system.tree = s.tree := by
  obtain ⟨k, target, action⟩ := st
  have hupdate : ∀ x, (s.update target x).system.tree = s.tree := by
    intro x
    cases x <;> rfl
  cases action with
  | set t bytes => exact hupdate _
  | setValue t v => exact hupdate _
  | write path bytes =>
    rcases s.refuses_or_accepts path bytes with ⟨e, h⟩ | ⟨endpoint, owner, t, v, h⟩
    · exact congrArg tree (write_of_refuses h).2
    · exact (written_of_accepts h).tree
  | _ => rfl

theorem tree_run (s : System) (steps : List Step) : (s.run steps).tree = s.tree := by
  induction steps generalizing s with
  | nil => rfl
  | cons st sts ih => exact (ih _).trans (s.tree_act st)

/-! ### The parts of unloading -/

/-- What unloading asks of the controller. -/
def lastSteps (k : Kernel) (id : ControllerId) : List Step :=
  [⟨k, id, .enable false⟩, ⟨k, id, .force⟩]

theorem tree_unload (s : System) (k : Kernel) (id : ControllerId) :
    (s.unload k id).system.tree = (s.tree.remove? .root Identity.directory).getD s.tree :=
  tree_remove ((s.enable id false).force k id).system .root Identity.directory

theorem controller_unload (s : System) (k : Kernel) (id : ControllerId) :
    (s.unload k id).system.controller = (s.run (lastSteps k id)).controller := by
  simp only [unload, remove]
  split <;> rfl

/-- Unloading completes one pass, whatever the gate says. -/
theorem passes_lastSteps (s : System) (k : Kernel) (id : ControllerId) :
    s.passes id (lastSteps k id) = [(s.unload k id).result] := by
  have henable : s.pass? id ⟨k, id, .enable false⟩ = none := pass?_of_none id rfl
  have hforce : (s.act ⟨k, id, .enable false⟩).system.pass? id ⟨k, id, .force⟩ =
      some (s.unload k id).result :=
    if_pos rfl
  unfold passes lastSteps
  rw [gather_cons, gather_cons, gather_nil, henable, hforce]
  rfl

theorem kicked_unload (s : System) (k : Kernel) (id : ControllerId) :
    (s.unload k id).kicked = [] ∧ (s.unload k id).result.kicked = [] := by
  have hoff : ((s.enable id false).controller id).registry.get .policyOptimizationEnabled = 0 := by
    have hc : (s.enable id false).controller id = (s.controller id).enable false := if_pos rfl
    rw [hc]
    exact (Registry.get_store _ _ _ _).trans (if_pos rfl)
  exact ⟨Pass.kicked_of_disabled k hoff, Pass.kicked_of_disabled k hoff⟩

/-! ### The tree after unloading -/

/-- What loading laid out, unloading takes back; the inodes stay used up. -/
theorem unload_laid (hs : Forest.Sound ⟨s.tree, held⟩)
    (hf : s.tree.Free .root Identity.directory) (ht : s'.tree = laid owner s.tree) (k : Kernel)
    (id : ControllerId) :
    (s'.unload k id).system.tree.nextInode = s.tree.nextInode + 41 ∧
      ∀ i < s.tree.nextInode, (s'.unload k id).system.tree.children i = s.tree.children i := by
  have hroot : 1 < s.tree.nextInode := hs.bound hs.root
  have hchild := child?_laid hroot hf owner
  cases hr : (laid owner s.tree).remove? .root Identity.directory with
  | none =>
    rw [Namespace.remove?, hchild] at hr
    cases hr
  | some ns =>
    obtain ⟨x, hx, hn, hc⟩ := Namespace.children_remove? hr
    cases hchild.symm.trans hx
    rw [tree_unload, ht, hr, Option.getD_some, hn]
    refine ⟨nextInode_laid owner s.tree, fun i hi => ?_⟩
    have hne : i ≠ (groupNode s.tree.nextInode .root).inode := Nat.ne_of_lt hi
    rw [hc, if_neg hne, children_laid_of_outside owner s.tree (Or.inl hi), Node.inode_root]
    by_cases h1 : i = 1
    · subst h1
      rw [if_pos rfl, if_pos rfl, List.eraseP_append_right]
      · rw [List.eraseP_cons_of_pos (by simp [groupNode]), List.append_nil]
      · -- none of the entries that were there before has the name
        intro c hmem
        simpa using hf c hmem
    · rw [if_neg h1, if_neg h1, List.append_nil]

/-- Where the name is free a control plane can be loaded, and starts from the defaults. -/
theorem load_of_free (hs : Forest.Sound ⟨s.tree, held⟩)
    (hf : s.tree.Free .root Identity.directory) (k : Kernel) :
    ∃ id, (s.load k).result = .ok id ∧
      ∀ t : Tunable, t ≠ .loadBalanceInterval → t ≠ .cpuPerformanceThreshold →
        t ≠ .nrRebalance → t ≠ .lastTotalLoad →
        ((s.load k).system.controller id).registry.get t = t.spec.default := by
  rcases load_cases hs k with ⟨htaken, -⟩ | ⟨-, hresult, -⟩
  · exact absurd hf htaken
  · exact ⟨_, hresult, fun t => get_load_of_ne hresult⟩

/-- **Loading and unloading cancel out.**  Whatever the controllers did in between, every
node that was there before has the children that it had, no path leads to the control plane
any more, and only inodes are used up: 41 of them, counted without end (for the counter in a
word see `Session.numbers_fit`).  Unloading comes down to one pass with rebalancing
switched off, and makes no CPU reschedule.  Whatever the controllers do after it, a control
plane can be loaded again, and starts from the defaults. -/
theorem load_unload (hr : Forest.Reachable ⟨s.tree, held⟩) (h : (s.load k).result = .ok id)
    (steps : List Step) (k' : Kernel) :
    let loaded := (s.load k).system.run steps
    let unloaded := loaded.unload k' id
    (∀ node ∈ held,
        unloaded.system.tree.children node.inode = s.tree.children node.inode) ∧
      (∀ path names, Path.components path = "hmbird_sched" :: names →
        unloaded.system.tree.resolve? path = none) ∧
      unloaded.system.tree.nextInode = s.tree.nextInode + 41 ∧
      unloaded.system.controller = (loaded.run (lastSteps k' id)).controller ∧
      loaded.passes id (lastSteps k' id) = [unloaded.result] ∧
      unloaded.kicked = [] ∧ unloaded.result.kicked = [] ∧
      ∀ (steps' : List Step) (k'' : Kernel),
        let again := (unloaded.system.run steps').load k''
        ∃ id', again.result = .ok id' ∧
          ∀ t : Tunable, t ≠ .loadBalanceInterval → t ≠ .cpuPerformanceThreshold →
            t ≠ .nrRebalance → t ≠ .lastTotalLoad →
            (again.system.controller id').registry.get t = t.spec.default := by
  intro loaded unloaded
  have hs := hr.sound
  have hroot : 1 < s.tree.nextInode := hs.bound hs.root
  rcases load_cases hs k with ⟨-, herror, -⟩ | ⟨hf, -, htree⟩
  · cases h.symm.trans herror
  have ht : loaded.tree = laid s.nextController s.tree := (tree_run _ steps).trans htree
  obtain ⟨hn, hc⟩ := unload_laid hs hf ht k' id
  -- the root is as before, so the name is free again
  have hfree : unloaded.system.tree.Free .root Identity.directory := by
    intro c hmem
    rw [Node.inode_root, hc 1 hroot] at hmem
    exact hf c hmem
  refine ⟨fun node hnode => hc _ (hs.bound hnode), fun path names hpath =>
    Namespace.resolve?_of_free hfree hpath, hn, controller_unload loaded k' id,
    passes_lastSteps loaded k' id, (kicked_unload loaded k' id).1,
    (kicked_unload loaded k' id).2, fun steps' k'' => ?_⟩
  -- requests led to this tree, so it is sound
  obtain ⟨g, hg, hgtree⟩ := later_load hs.root s k
  have hremoved := (hs.later hg).remove .root Identity.directory
  have hsound : Forest.Sound ⟨(unloaded.system.run steps').tree, g.held⟩ := by
    have hloaded : loaded.tree = g.tree := (tree_run _ steps).trans hgtree
    rw [tree_run, show unloaded.system.tree = _ from tree_unload loaded k' id, hloaded]
    exact hremoved
  refine load_of_free hsound ?_ k''
  rw [tree_run]
  exact hfree

/-- An overloaded machine with rebalancing switched on to the last: the last pass sees eight
overloaded CPUs and makes none of them reschedule. -/
theorem load_unload_overloaded :
    let notes : Node Endpoint := ⟨2, "notes", .directory⟩
    let s : System := { tree := Namespace.empty.grow 1 notes }
    let k : Kernel := { online := .first 8, load := fun _ => { running := 20 } }
    let steps : List Step := [
      ⟨k, 1, .write "/hmbird_sched/heartbeat" "7".toUTF8⟩,
      ⟨k, 1, .force⟩,
      ⟨k, 1, .put .policyOptimizationEnabled 1⟩]
    let unloaded := ((s.load k).system.run steps).unload k 1
    unloaded.result.sample.overloaded = .first 8 ∧ unloaded.kicked = [] ∧
      unloaded.system.tree.children 1 = [notes] ∧ unloaded.system.tree.nextInode = 44 ∧
      ((unloaded.system.load k).system.controller 2).registry.get .heartbeat = 0 := by
  intro notes s k steps
  have hreach : Forest.Reachable ⟨s.tree, {.root} ∪ {notes}⟩ :=
    Forest.Later.refl.grow (f := .start) (Set.mem_singleton _)
      (by decide : validName "notes" = true) rfl (Namespace.free_of_children_eq_nil rfl _)
      .directory
  have hrun : (s.load k).result = .ok 1 ∧
      (((s.load k).system.run steps).unload k 1).result.sample.overloaded = .first 8 ∧
      ((((s.load k).system.run steps).unload k 1).system.load k).result = .ok 2 := by
    decide +kernel
  obtain ⟨hload, hover, hagain⟩ := hrun
  obtain ⟨hc, -, hn, -, -, hkicked, -, hreload⟩ := load_unload hreach hload steps k
  obtain ⟨id, hid, hget⟩ := hreload [] k
  rw [run_nil] at hid hget
  cases hid.symm.trans hagain
  have hroot := hc .root (Or.inl rfl)
  rw [Node.inode_root] at hroot
  exact ⟨hover, hkicked, hroot.trans rfl, hn.trans rfl,
    (hget .heartbeat (by decide) (by decide) (by decide) (by decide)).trans rfl⟩

end System
end CpuSteward
