import CpuSteward.Proofs.Resolution
import CpuSteward.Proofs.Session

/-!
# Handles to what was taken out

No path leads to a node that was taken out, but whoever holds a handle to it can still look into
its list.  A removal takes the children off the removed node, so from there nothing is found any
more.  It does no such thing to the nodes further down: a handle to a directory below the removed
node leads on as if nothing had happened.

## Main definitions

* `Request.takes?` — the entry that a request takes out of the tree.

## Main results

* `Forest.Sound.children_remove?_of_below`, `Forest.Sound.walk?_remove?_of_below` — the lists below
  a removed node, and the ways from there.
* `Session.handles_below` — **a removal empties the list of the node it takes out, and no other
  list below it.**
* `Session.handle_leads_on` — a handle to a directory further down.
-/

namespace CpuSteward

namespace Forest

variable {ε : Type} {f : Forest ε} {parent n x : Node ε} {name : String} {ns : Namespace ε}

/-- A node is no older than what it is below. -/
theorem Sound.inode_le (hf : f.Sound) (h : Relation.ReflTransGen f.tree.Child x n) :
    x.inode ≤ n.inode := by
  rcases Relation.reflTransGen_iff_eq_or_transGen.1 h with rfl | h
  · exact Nat.le_refl _
  · exact Nat.le_of_lt (hf.inode_lt h)

/-- Below the removed node all lists but its own stay.  That of its parent is not among them. -/
theorem Sound.children_remove?_of_below (hf : f.Sound)
    (hr : f.tree.remove? parent name = some ns) (hx : f.tree.child? parent name = some x)
    (h : Relation.ReflTransGen f.tree.Child x n) (hne : n ≠ x) :
    ns.children n.inode = f.tree.children n.inode := by
  have hmem := Namespace.mem_of_child? hx
  have hheld : x ∈ f.held := hf.listed hmem
  have hyounger := hf.younger hmem
  have hle := hf.inode_le h
  have hinode : n.inode ≠ x.inode := fun he =>
    hne (hf.unique (hf.held_of_below hheld h) hheld he)
  rw [Namespace.children_of_remove? hr hx, if_neg hinode, if_neg (by omega)]

/-- From below the removed node all ways lead where they led before, for none of them leads back
up to it. -/
theorem Sound.walk?_remove?_of_below (hf : f.Sound) (hr : f.tree.remove? parent name = some ns)
    (hx : f.tree.child? parent name = some x) (h : Relation.ReflTransGen f.tree.Child x n)
    (hne : n ≠ x) (names : List String) : ns.walk? n names = f.tree.walk? n names := by
  have hheld : x ∈ f.held := hf.listed (Namespace.mem_of_child? hx)
  have hbelow : Relation.TransGen f.tree.Child x n :=
    (Relation.reflTransGen_iff_eq_or_transGen.1 h).resolve_left hne
  refine hf.walk?_remove? hr hx (hf.held_of_below hheld h) fun way _ hway => ?_
  have hback : Relation.ReflTransGen f.tree.Child n x :=
    Namespace.exists_way_iff.1 ⟨way, hf.walk?_eq_some_iff.1 hway⟩
  exact hf.not_transGen_child x (hbelow.trans_left hback)

end Forest

/-- The entry that a request takes out of the tree: the node it is below, and its name. -/
def Request.takes? : Request → Option (Node Endpoint × String)
  | .unload _ _ => some (.root, Identity.directory)
  | .remove parent name => some (parent, name)
  | .load _ => none
  | .act _ => none
  | .mkdir _ _ => none
  | .create _ _ _ _ => none

namespace Session

variable {σ : Session} {K : Request → Prop} {r : Request} {parent x : Node Endpoint}
  {name : String}

/-- A request that takes an entry out does no more to the tree than that. -/
theorem tree_step_of_takes? (h : r.takes? = some (parent, name)) :
    (σ.step r).system.tree = (σ.system.tree.remove? parent name).getD σ.system.tree := by
  cases r with
  | unload k id =>
    cases h
    exact System.tree_unload σ.system k id
  | remove parent name =>
    cases h
    exact System.tree_remove σ.system parent name
  | _ => cases h

/-- **A removal empties the list of the node it takes out, and no other list below it.**  A handle
to that node leads nowhere.  Each handle to a node further down lists what it listed before, and
all ways from there lead where they led; so of all these lists, none but that of the removed node
becomes empty. -/
theorem handles_below (h : σ.Reached K) (hr : r.takes? = some (parent, name))
    (hx : σ.system.tree.child? parent name = some x) :
    let old := σ.system.tree
    let new := (σ.step r).system.tree
    (new.children x.inode = [] ∧ ∀ step, new.child? x step = none) ∧
      ∀ n, Relation.ReflTransGen old.Child x n →
        (n ≠ x → new.children n.inode = old.children n.inode ∧
          ∀ names, new.walk? n names = old.walk? n names) ∧
        (new.children n.inode = [] ↔ n = x ∨ old.children n.inode = []) := by
  intro old new
  have hs := h.sound
  obtain ⟨ns, hrem⟩ : ∃ ns, old.remove? parent name = some ns :=
    ⟨_, congrArg (Option.map _) hx⟩
  have hnew : new = ns := by
    show (σ.step r).system.tree = ns
    rw [tree_step_of_takes? hr, hrem, Option.getD_some]
  rw [hnew]
  have hempty : ns.children x.inode = [] := by
    rw [Namespace.children_of_remove? hrem hx, if_pos rfl]
  refine ⟨⟨hempty, fun step => ?_⟩, fun n hn => ⟨fun hne => ?_, ?_⟩⟩
  · rw [Namespace.child?_eq_none_iff, Namespace.Free, hempty]
    exact fun c hc => nomatch hc
  · exact ⟨hs.children_remove?_of_below hrem hx hn hne, hs.walk?_remove?_of_below hrem hx hn hne⟩
  · by_cases hne : n = x
    · subst hne
      exact iff_of_true hempty (Or.inl rfl)
    · have hkeep : ns.children n.inode = old.children n.inode :=
        hs.children_remove?_of_below hrem hx hn hne
      rw [hkeep, or_iff_right hne]

/-- Someone keeps a handle to a directory of a control plane.  After the control plane is
unloaded that directory lists its files as before. -/
theorem handles_below_unloaded :
    let σ := start.step (.load {})
    let new := (σ.step (.unload {} 1)).system.tree
    ∃ top group, σ.system.tree.child? .root "hmbird_sched" = some top ∧
      σ.system.tree.child? top "slim_walt" = some group ∧ new.children top.inode = [] ∧
      new.children group.inode = σ.system.tree.children group.inode ∧
      (new.children group.inode).length = 4 := by
  intro σ new
  have hreached : σ.Reached fun _ => True := Reached.start.step (r := .load {}) trivial trivial
  have hrun : (σ.system.tree.walk? .root ["hmbird_sched", "slim_walt"]).map Node.inode = some 3 ∧
      (σ.system.tree.children 3).length = 4 := by
    decide +kernel
  obtain ⟨hwalk, hlength⟩ := hrun
  obtain ⟨group, hwalk, hinode⟩ := Option.map_eq_some_iff.1 hwalk
  obtain ⟨top, htop, hwalk⟩ := Option.bind_eq_some_iff.1 hwalk
  obtain ⟨group, hgroup, hlast⟩ := Option.bind_eq_some_iff.1 hwalk
  cases hlast
  obtain ⟨⟨hempty, -⟩, hbelow⟩ := handles_below hreached (r := .unload {} 1) rfl htop
  have hchild : σ.system.tree.Child top group := Namespace.mem_of_child? hgroup
  have hne : group ≠ top := fun he => hreached.sound.not_transGen_child top (.single (he ▸ hchild))
  have hkeep := ((hbelow group (.single hchild)).1 hne).1
  refine ⟨top, group, htop, hgroup, hempty, hkeep, ?_⟩
  rw [hkeep, hinode]
  exact hlength

/-- A directory in a directory in a directory.  The first is taken out, and a handle to the second
still leads to the third. -/
theorem handle_leads_on :
    let a : Node Endpoint := ⟨2, "a", .directory⟩
    let b : Node Endpoint := ⟨3, "b", .directory⟩
    let c : Node Endpoint := ⟨4, "c", .directory⟩
    let σ := ((start.step (.mkdir .root "a")).step (.mkdir a "b")).step (.mkdir b "c")
    let new := (σ.step (.remove .root "a")).system.tree
    σ.Reached (fun _ => True) ∧ σ.system.tree.child? .root "a" = some a ∧
      σ.system.tree.child? a "b" = some b ∧ new.child? .root "a" = none ∧
      new.children a.inode = [] ∧ new.children b.inode = [c] ∧ new.child? b "c" = some c := by
  intro a b c σ new
  have ha : (start.step (.mkdir .root "a")).Reached fun _ => True :=
    Reached.start.step (r := .mkdir .root "a") trivial (Set.mem_singleton _)
  have hb := ha.step (r := .mkdir a "b") trivial (Or.inr ⟨1, List.mem_singleton_self a⟩)
  have hc := hb.step (r := .mkdir b "c") trivial (Or.inr ⟨2, List.mem_singleton_self b⟩)
  exact ⟨hc, rfl, rfl, rfl, rfl, rfl, rfl⟩

end Session
end CpuSteward
