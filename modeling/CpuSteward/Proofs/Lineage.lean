import CpuSteward.Proofs.Forest
import Mathlib.Logic.Relation

/-!
# Who was made below whom

Requests make nodes one after the other, each below a node that someone holds.  A node never
moves, so its birth tells for good where it belongs: also when it was taken out of the tree,
and also for the nodes that are made below it after that.

## Main definitions

* `Namespace.Child` — a node is in the list of another one.
* `Forest.Birth` — a node that was made, and the node that it was made below.
* `Forest.Run` — requests in a row, with all births in their order.

## Main results

* `Forest.Run.mem_held_iff` — whatever is held was held at first or was born.
* `Forest.Run.ascending` — the inodes ascend in the order of the births.
* `Forest.Run.birth_of_mem` — a node is in no list but that of the node it was born below.
* `Forest.Sound.not_transGen_child` — no way down leads back to where it starts.
* `Forest.lineage` — **the nodes form a forest, those that were taken out included.**
-/

namespace CpuSteward

namespace Namespace

/-- The second node is in the list of the first. -/
def Child {ε : Type} (ns : Namespace ε) (parent child : Node ε) : Prop :=
  child ∈ ns.children parent.inode

end Namespace

namespace Forest

variable {ε : Type} {f g : Forest ε} {parent m n : Node ε} {name : String}
  {content : Content ε} {i : Nat}

/-- A node that was made, and the node that it was made below. -/
structure Birth (ε : Type) where
  parent : Node ε
  node : Node ε

variable {births : List (Birth ε)} {b : Birth ε}

/-- The births that a request to make a node leads to: one, or none if it is refused. -/
def born (f : Forest ε) (parent : Node ε) (name : String) (content : Content ε) :
    List (Birth ε) :=
  ((f.tree.add parent name content).1.map fun node => ⟨parent, node⟩).toList

/-- Requests in a row lead from one forest to another; each goes to a node that someone holds,
be it still in the tree or not.  The list has the births on the way in their order. -/
inductive Run (f : Forest ε) : List (Birth ε) → Forest ε → Prop where
  | refl : Run f [] f
  | add {births : List (Birth ε)} {g : Forest ε} (h : Run f births g) {parent : Node ε}
      (hp : parent ∈ g.held) (name : String) (content : Content ε) :
      Run f (births ++ g.born parent name content) (g.add parent name content)
  | remove {births : List (Birth ε)} {g : Forest ε} (h : Run f births g) {parent : Node ε}
      (hp : parent ∈ g.held) (name : String) : Run f births (g.remove parent name)

theorem Run.later (h : f.Run births g) : f.Later g := by
  induction h with
  | refl => exact .refl
  | add _ hp name content ih => exact ih.add hp name content
  | remove _ hp name ih => exact ih.remove hp name

/-! ### One request -/

/-- A request to make a node is refused, which may use an inode up, or the node is born with
the next inode. -/
theorem add_cases (f : Forest ε) (parent : Node ε) (name : String) (content : Content ε) :
    (f.born parent name content = [] ∧ ∃ next, f.tree.nextInode ≤ next ∧
        f.add parent name content = ⟨{ f.tree with nextInode := next }, f.held⟩) ∨
      (validName name = true ∧ parent.isDirectory = true ∧ f.tree.Free parent name ∧
        f.born parent name content = [⟨parent, ⟨f.tree.nextInode, name, content⟩⟩] ∧
        f.add parent name content =
          ⟨f.tree.grow parent.inode ⟨f.tree.nextInode, name, content⟩,
            f.held ∪ {⟨f.tree.nextInode, name, content⟩}⟩) := by
  unfold born
  rcases f.tree.add_cases parent name content with
    ⟨-, ha⟩ | ⟨-, -, -, ha⟩ | ⟨hv, hd, hfree, ha⟩
  · rw [ha, add_of_none ha]
    exact Or.inl ⟨rfl, _, Nat.le_refl _, rfl⟩
  · rw [ha, add_of_none ha]
    exact Or.inl ⟨rfl, _, Nat.le_succ _, rfl⟩
  · rw [ha, add_of_some ha]
    exact Or.inr ⟨hv, hd, hfree, rfl, rfl⟩

/-- A removal takes no inode back and puts no node into a list. -/
theorem remove_tree (f : Forest ε) (parent : Node ε) (name : String) :
    (f.remove parent name).tree.nextInode = f.tree.nextInode ∧
      ∀ i, ((f.remove parent name).tree.children i).Sublist (f.tree.children i) := by
  unfold remove
  cases hr : f.tree.remove? parent name with
  | none => exact ⟨rfl, fun i => List.Sublist.refl _⟩
  | some ns =>
    obtain ⟨x, -, hn, -⟩ := Namespace.children_remove? hr
    exact ⟨hn, Namespace.sublist_of_remove? hr⟩

/-- A node under a good name that is free is born. -/
theorem Run.grow (h : f.Run births g) (hp : parent ∈ g.held) (hv : validName name = true)
    (hd : parent.isDirectory = true) (hfree : g.tree.Free parent name) (content : Content ε) :
    let node : Node ε := ⟨g.tree.nextInode, name, content⟩
    f.Run (births ++ [⟨parent, node⟩]) ⟨g.tree.grow parent.inode node, g.held ∪ {node}⟩ := by
  have hadd := h.add hp name content
  have hmade := Namespace.add_of_free hv hd hfree content
  unfold born at hadd
  rw [add_of_some hmade, hmade] at hadd
  exact hadd

/-! ### What the births tell -/

theorem Run.nextInode_le (h : f.Run births g) : f.tree.nextInode ≤ g.tree.nextInode := by
  induction h with
  | refl => exact Nat.le_refl _
  | @add _ g _ parent _ name content ih =>
    rcases g.add_cases parent name content with ⟨-, next, hle, ha⟩ | ⟨-, -, -, -, ha⟩ <;> rw [ha]
    · exact Nat.le_trans ih hle
    · exact Nat.le_succ_of_le ih
  | @remove _ g _ parent _ name ih =>
    rw [(g.remove_tree parent name).1]
    exact ih

/-- Whatever is held was held at first or was born. -/
theorem Run.mem_held_iff (h : f.Run births g) :
    n ∈ g.held ↔ n ∈ f.held ∨ ∃ b ∈ births, b.node = n := by
  induction h with
  | refl => simp
  | @add births g _ parent _ name content ih =>
    rcases g.add_cases parent name content with ⟨hb, next, -, ha⟩ | ⟨-, -, -, hb, ha⟩ <;>
      rw [hb, ha]
    · rw [List.append_nil]
      exact ih
    · simp only [Set.mem_union, Set.mem_singleton_iff, ih, List.mem_append, List.mem_singleton]
      constructor
      · rintro ((h | ⟨b, hb, rfl⟩) | rfl)
        · exact Or.inl h
        · exact Or.inr ⟨b, Or.inl hb, rfl⟩
        · exact Or.inr ⟨_, Or.inr rfl, rfl⟩
      · rintro (h | ⟨b, hb | rfl, rfl⟩)
        · exact Or.inl (Or.inl h)
        · exact Or.inl (Or.inr ⟨b, hb, rfl⟩)
        · exact Or.inr rfl
  | remove _ _ _ ih => exact ih

/-- A birth happens below a node that someone holds, under a good name and with an inode that
was not in use. -/
theorem Run.of_mem (h : f.Run births g) (hb : b ∈ births) :
    b.parent ∈ g.held ∧ validName b.node.name = true ∧
      f.tree.nextInode ≤ b.node.inode ∧ b.node.inode < g.tree.nextInode := by
  induction h with
  | refl => cases hb
  | @add births g h parent hp name content ih =>
    rcases g.add_cases parent name content with
      ⟨hborn, next, hle, ha⟩ | ⟨hv, -, -, hborn, ha⟩ <;> rw [hborn] at hb <;> rw [ha]
    · rw [List.append_nil] at hb
      obtain ⟨hparent, hvalid, hfirst, hlast⟩ := ih hb
      exact ⟨hparent, hvalid, hfirst, Nat.lt_of_lt_of_le hlast hle⟩
    · rcases List.mem_append.1 hb with hb | hb
      · obtain ⟨hparent, hvalid, hfirst, hlast⟩ := ih hb
        exact ⟨Or.inl hparent, hvalid, hfirst, Nat.lt_succ_of_lt hlast⟩
      · cases List.mem_singleton.1 hb
        exact ⟨Or.inl hp, hv, h.nextInode_le, Nat.lt_succ_self _⟩
  | @remove _ g _ parent _ name ih =>
    rw [(g.remove_tree parent name).1]
    exact ih hb

/-- The inodes ascend in the order of the births. -/
theorem Run.ascending (h : f.Run births g) :
    births.Pairwise fun a b => a.node.inode < b.node.inode := by
  induction h with
  | refl => exact List.Pairwise.nil
  | @add births g h parent _ name content ih =>
    rcases g.add_cases parent name content with ⟨hb, -⟩ | ⟨-, -, -, hb, -⟩ <;> rw [hb]
    · rw [List.append_nil]
      exact ih
    · rw [List.pairwise_append]
      refine ⟨ih, List.pairwise_singleton _ _, fun a ha b hb => ?_⟩
      cases List.mem_singleton.1 hb
      exact (h.of_mem ha).2.2.2
  | remove _ _ _ ih => exact ih

/-- A node is in no list but that of the node it was born below, if it was not there at
first. -/
theorem Run.birth_of_mem (h : f.Run births g) (hn : n ∈ g.tree.children i) :
    n ∈ f.tree.children i ∨ ∃ b ∈ births, b.node = n ∧ b.parent.inode = i := by
  induction h with
  | refl => exact Or.inl hn
  | @add births g _ parent _ name content ih =>
    rcases g.add_cases parent name content with ⟨hb, next, -, ha⟩ | ⟨-, -, -, hb, ha⟩ <;>
      rw [ha] at hn <;> rw [hb]
    · rw [List.append_nil]
      exact ih hn
    · rcases Namespace.mem_children_grow.1 hn with hn | ⟨rfl, rfl⟩
      · refine (ih hn).imp_right fun ⟨b, hb, h⟩ => ⟨b, List.mem_append_left _ hb, h⟩
      · exact Or.inr ⟨_, List.mem_append_right _ (List.mem_singleton_self _), rfl, rfl⟩
  | @remove _ g _ parent _ name ih => exact ih (((g.remove_tree parent name).2 i).mem hn)

/-! ### The order of the nodes -/

/-- Whatever is below a node is younger than it. -/
theorem Sound.inode_lt (hf : f.Sound) (h : Relation.TransGen f.tree.Child m n) :
    m.inode < n.inode := by
  induction h with
  | single h => exact hf.younger h
  | tail _ h ih => exact Nat.lt_trans ih (hf.younger h)

/-- No way down leads back to where it starts. -/
theorem Sound.not_transGen_child (hf : f.Sound) (n : Node ε) :
    ¬Relation.TransGen f.tree.Child n n :=
  fun h => Nat.lt_irrefl _ (hf.inode_lt h)

/-- **The nodes form a forest, those that were taken out included.**  Siblings have different
names, and all names are good.  Each node that was ever made has its own inode, and the lists
are sorted by it.  Files have no children.  A node is in one list at most, which is that of the
older node it was born below, so no way down leads back to where it starts.

The same order is in the numbers that the nodes are shown under as long as the counter fits in a
word, see `Forest.Run.numbers_ascending`. -/
theorem lineage (h : start.Run births f) :
    (∀ n, n ∈ f.held ↔ n = .root ∨ ∃ b ∈ births, b.node = n) ∧
      (∀ i, (f.tree.children i).Pairwise fun a b => a.name ≠ b.name) ∧
      (∀ b ∈ births, b.node.name ≠ "" ∧ '/' ∉ b.node.name.toList ∧ b.node.name ≠ "." ∧
        b.node.name ≠ "..") ∧
      (births.map fun b => b.node.inode).Nodup ∧
      (∀ b ∈ births, 1 < b.node.inode ∧ b.node.inode < f.tree.nextInode) ∧
      (∀ i, (f.tree.children i).Pairwise fun a b => a.inode < b.inode) ∧
      (∀ n ∈ f.held, n.isDirectory = false → f.tree.children n.inode = []) ∧
      (∀ i, ∀ n ∈ f.tree.children i,
        (∃ b ∈ births, b.node = n ∧ b.parent ∈ f.held ∧ b.parent.inode = i) ∧ i < n.inode ∧
          ∀ j, n ∈ f.tree.children j → j = i) ∧
      ∀ n, ¬Relation.TransGen f.tree.Child n n := by
  have hs : f.Sound := sound_start.later h.later
  refine ⟨fun n => h.mem_held_iff, hs.names, fun b hb => ?_, ?_, fun b hb => ?_, hs.sorted,
    fun n hn => hs.files hn, fun i n hn => ⟨?_, hs.younger hn, fun j hj => hs.single hj hn⟩,
    hs.not_transGen_child⟩
  · exact validName_iff.1 (h.of_mem hb).2.1
  · rw [List.Nodup, List.pairwise_map]
    exact h.ascending.imp Nat.ne_of_lt
  · obtain ⟨-, -, hfirst, hlast⟩ := h.of_mem hb
    exact ⟨hfirst, hlast⟩
  · -- nothing was in a list at first
    obtain ⟨b, hb, hnode, hparent⟩ := (h.birth_of_mem hn).resolve_left List.not_mem_nil
    exact ⟨b, hb, hnode, (h.of_mem hb).1, hparent⟩

/-- A directory with a file in it is taken out.  A node is made below it all the same, none
below the file, and the name that is free again is given away.  Inode 4 went to a request that
found the name still taken. -/
theorem lineage_detached :
    let a : Node Unit := ⟨2, "a", .directory⟩
    let file : Node Unit := ⟨3, "f", .file .readOnly ()⟩
    let inner : Node Unit := ⟨5, "b", .directory⟩
    let again : Node Unit := ⟨6, "a", .directory⟩
    let births : List (Birth Unit) := [⟨.root, a⟩, ⟨a, file⟩, ⟨a, inner⟩, ⟨.root, again⟩]
    ∃ f : Forest Unit, start.Run births f ∧ f.tree.children 1 = [again] ∧
      f.tree.children 2 = [inner] ∧ (births.map fun b => b.node.inode).Nodup ∧
      ∀ n, ¬Relation.TransGen f.tree.Child n n := by
  intro a file inner again births
  have hvalid : validName "a" = true ∧ validName "b" = true ∧ validName "f" = true := by decide
  have ha := Run.refl.grow (f := start) (Set.mem_singleton _) hvalid.1 rfl
    (by rintro c ⟨⟩) (.directory : Content Unit)
  have hfile := ha.grow (show a ∈ _ from Or.inr rfl) hvalid.2.2 rfl (by rintro c ⟨⟩)
    (.file .readOnly ())
  have htaken := hfile.add (hfile.later.held_subset (Set.mem_singleton _)) "a" .directory
  have hout := htaken.remove (htaken.later.held_subset (Set.mem_singleton _)) "a"
  have hinner := hout.grow (show a ∈ _ from Or.inl (Or.inl (Or.inr rfl))) hvalid.2.1 rfl
    (by rintro c ⟨⟩) .directory
  have hrefused := hinner.add (show file ∈ _ from Or.inl (Or.inl (Or.inr rfl))) "b" .directory
  have hroot := hrefused.later.held_subset (Set.mem_singleton _)
  have hagain := hrefused.grow hroot hvalid.1 rfl (by rintro c ⟨⟩) .directory
  refine ⟨_, hagain, rfl, rfl, ?_⟩
  obtain ⟨-, -, -, hnodup, -, -, -, -, hcycle⟩ := lineage hagain
  exact ⟨hnodup, hcycle⟩

end Forest
end CpuSteward
