import CpuSteward.Proofs.Forest
import CpuSteward.System.Basic

/-!
# Making and removing entries

A request to make an entry, or to remove one, may go to any node that someone holds, be it in
the tree or not.  It succeeds exactly if nothing stands against it, and then it changes the list
of one node and, in a removal, that of the node that is removed.  A request that fails leaves
every list as it was.  Its only trace is an inode: a new node is numbered before its siblings are
looked at, so one whose name turns out to be taken has used its number up.

## Main definitions

* `Namespace.Gains`, `Namespace.Loses` — the tree with one entry more, and with one less.
* `System.make` — a request to make an entry, be it a directory or a file.

## Main results

* `Forest.Sound.gains`, `Forest.Sound.loses` — what a request that succeeds does to the lists.
* `System.requests_exact` — **when requests succeed, and what they change.**
-/

namespace CpuSteward

namespace Namespace

variable {ε : Type} {ns : Namespace ε} {parent : Node ε} {name : String}

/-- The tree `ns'` is `ns` with the new node `n`, the last one below `parent`. -/
structure Gains (ns ns' : Namespace ε) (parent n : Node ε) : Prop where
  inode : n.inode = ns.nextInode
  nextInode : ns'.nextInode = ns.nextInode + 1
  appended : ns'.children parent.inode = ns.children parent.inode ++ [n]
  found : ns'.child? parent n.name = some n
  empty : ns'.children n.inode = []
  frame : ∀ i, i ≠ parent.inode → ns'.children i = ns.children i

/-- The tree `ns'` is `ns` without the child `x` of `parent`, whose own children are taken off
it. -/
structure Loses (ns ns' : Namespace ε) (parent x : Node ε) : Prop where
  nextInode : ns'.nextInode = ns.nextInode
  /-- The others stay in order. -/
  split : ∃ front back, ns.children parent.inode = front ++ x :: back ∧
    ns'.children parent.inode = front ++ back
  gone : ns'.child? parent x.name = none
  emptied : ns'.children x.inode = []
  frame : ∀ i, i ≠ parent.inode → i ≠ x.inode → ns'.children i = ns.children i

/-- A removal succeeds exactly if the name is taken. -/
theorem remove?_eq_none_iff : ns.remove? parent name = none ↔ ns.Free parent name := by
  rw [remove?, Option.map_eq_none_iff, child?_eq_none_iff]

end Namespace

namespace Forest

open Namespace (Gains Loses)

variable {ε : Type} {f : Forest ε} {ns : Namespace ε} {parent : Node ε} {name : String}

/-- A directory gains a node under a good name that is free. -/
theorem Sound.gains (hf : f.Sound) (hp : parent ∈ f.held) (hv : validName name = true)
    (hd : parent.isDirectory = true) (hfree : f.tree.Free parent name) (content : Content ε) :
    let node : Node ε := ⟨f.tree.nextInode, name, content⟩
    Gains f.tree (f.tree.grow parent.inode node) parent node := by
  intro node
  have hnew : node.inode ≠ parent.inode := Nat.ne_of_gt (hf.bound hp)
  have happended : (f.tree.grow parent.inode node).children parent.inode =
      f.tree.children parent.inode ++ [node] := by
    rw [Namespace.children_grow, if_pos rfl]
  refine ⟨rfl, rfl, happended, ?_, ?_, fun i hi => ?_⟩
  · have hsound := hf.grow hp hv hd hfree content
    refine hsound.child?_eq_some_iff.2 ⟨?_, rfl⟩
    rw [happended]
    exact List.mem_append_right _ (List.mem_singleton_self _)
  · rw [Namespace.children_grow, if_neg hnew, List.append_nil]
    exact hf.children_of_le (Nat.le_refl _)
  · rw [Namespace.children_grow, if_neg hi, List.append_nil]

/-- A removal that succeeds takes the one child of that name. -/
theorem Sound.loses (hf : f.Sound) (h : f.tree.remove? parent name = some ns) :
    ∃ x, x.name = name ∧ Loses f.tree ns parent x := by
  obtain ⟨x, hx, hn, hc⟩ := Namespace.children_remove? h
  obtain ⟨hmem, hname⟩ := hf.child?_eq_some_iff.1 hx
  -- a child is younger than its parent, so the two lists that change are not the same
  have hne : parent.inode ≠ x.inode := Nat.ne_of_lt (hf.younger hmem)
  obtain ⟨hpx, front, back, hsplit, hfront⟩ := List.find?_eq_some_iff_append.1 hx
  have hrest : ns.children parent.inode = front ++ back := by
    rw [hc, if_neg hne, if_pos rfl, hsplit,
      List.eraseP_append_right _ fun c hc => by simpa using hfront c hc]
    exact congrArg (front ++ ·) (List.eraseP_cons_of_pos hpx)
  refine ⟨x, hname, hn, ⟨front, back, hsplit, hrest⟩, ?_, ?_, fun i hi hix => ?_⟩
  · -- whatever has the name now had it before, but siblings do not share names
    rw [Namespace.child?_eq_none_iff]
    intro c hc hcn
    obtain ⟨hcmem, -, hcx⟩ := (hf.mem_children_remove? h hx).1 hc
    have hchild := hf.child?_eq_some_iff.2 ⟨hcmem, hcn.trans hname⟩
    exact hcx (Option.some.inj (hchild.symm.trans hx))
  · rw [hc, if_pos rfl]
  · rw [hc, if_neg hix, if_neg hi]

end Forest

namespace System

variable {s : System} {held : Set (Node Endpoint)} {p : Node Endpoint} {name : String}

/-- A request to make an entry, be it a directory or a file. -/
def make (s : System) (parent : Node Endpoint) (name : String) :
    Content Endpoint → Option (Node Endpoint) × System
  | .directory => s.mkdir parent name
  | .file perm endpoint => s.create parent name perm endpoint

theorem make_eq (s : System) (parent : Node Endpoint) (name : String)
    (content : Content Endpoint) : s.make parent name content =
      ((s.tree.add parent name content).1,
        { s with tree := (s.tree.add parent name content).2 }) := by
  cases content <;> rfl

theorem remove_of_none (h : s.tree.remove? p name = none) :
    s.remove p name = { result := .error .noEntry, system := s } := by
  simp only [remove, h]

theorem remove_of_some {tree : Namespace Endpoint} (h : s.tree.remove? p name = some tree) :
    s.remove p name =
      { result := .ok (), system := { s with tree }, log := [.entryRemoved name] } := by
  simp only [remove, h]

/-- **When requests succeed, and what they change.**  The parent may be the root or any other
node that was ever made, also one that was taken out of the tree.  An entry is made exactly if
the name is a good one, the parent is a directory and none of its children has the name; then
the new entry is the last of these children, and all other lists stay as they are.  If nothing
is made then all lists stay as they are, and an inode is used up exactly if nothing but a child
of that name stood against it.  An entry is removed exactly if a child has the name; then the
other children stay in order, the removed node has no children left, and all other lists stay
as they are.  If nothing is removed then nothing changes.  What using an inode up does to the
counter in a word is said by `Namespace.counter_add`. -/
theorem requests_exact (hr : Forest.Reachable ⟨s.tree, held⟩) (hp : p ∈ held) (name : String) :
    let good := name ≠ "" ∧ '/' ∉ name.toList ∧ name ≠ "." ∧ name ≠ ".."
    let taken := ∃ c ∈ s.tree.children p.inode, c.name = name
    (∀ m ∈ held, m.inode = p.inode → m = p) ∧
      (∀ content : Content Endpoint,
        let made := s.make p name content
        (made.1.isSome = true ↔ good ∧ p.isDirectory = true ∧ ¬taken) ∧
          made.2 = { s with tree := made.2.tree } ∧
          (∀ n, made.1 = some n →
            n.name = name ∧ n.content = content ∧ s.tree.Gains made.2.tree p n) ∧
          (made.1 = none →
            (∀ i, made.2.tree.children i = s.tree.children i) ∧
              (made.2.tree.nextInode = s.tree.nextInode + 1 ↔
                good ∧ p.isDirectory = true ∧ taken) ∧
              (made.2.tree.nextInode ≠ s.tree.nextInode + 1 → made.2 = s))) ∧
      let removed := s.remove p name
      (removed.result = .ok () ↔ taken) ∧
        removed.system = { s with tree := removed.system.tree } ∧
        (removed.result = .ok () → ∃ x, x.name = name ∧ s.tree.Loses removed.system.tree p x) ∧
        (removed.result ≠ .ok () → removed.result = .error .noEntry ∧ removed.system = s) := by
  intro good taken
  have hs : Forest.Sound ⟨s.tree, held⟩ := hr.sound
  have hgood : validName name = true ↔ good := validName_iff
  have hfree : s.tree.Free p name ↔ ¬taken := Namespace.free_iff_not_exists
  refine ⟨fun m hm he => hs.unique hm hp he, fun content => ?_, ?_⟩
  · intro made
    have hmade : made = ((s.tree.add p name content).1,
        { s with tree := (s.tree.add p name content).2 }) := s.make_eq p name content
    rcases s.tree.add_cases p name content with ⟨hbad, ha⟩ | ⟨hv, hd, ht, ha⟩ | ⟨hv, hd, hf, ha⟩
    · have hnot : ¬(good ∧ p.isDirectory = true) := by
        rw [← hgood, ← Bool.and_eq_true, hbad]
        exact Bool.noConfusion
      rw [hmade, ha]
      refine ⟨iff_of_false nofun ?_, rfl, nofun, fun _ => ⟨fun _ => rfl, ?_, fun _ => rfl⟩⟩
      · exact fun h => hnot ⟨h.1, h.2.1⟩
      · exact iff_of_false (Nat.ne_of_lt (Nat.lt_succ_self _)) fun h => hnot ⟨h.1, h.2.1⟩
    · -- an inode was used up before the name turned out to be taken
      have htaken : taken := Classical.not_not.1 fun h => ht (hfree.2 h)
      rw [hmade, ha]
      refine ⟨iff_of_false nofun ?_, rfl, nofun, fun _ => ⟨fun _ => rfl, ?_, ?_⟩⟩
      · exact fun h => h.2.2 htaken
      · exact iff_of_true rfl ⟨hgood.1 hv, hd, htaken⟩
      · exact fun h => absurd rfl h
    · rw [hmade, ha]
      refine ⟨iff_of_true rfl ⟨hgood.1 hv, hd, hfree.1 hf⟩, rfl, fun n hn => ?_, nofun⟩
      cases hn
      exact ⟨rfl, rfl, hs.gains hp hv hd hf content⟩
  · cases hremove : s.tree.remove? p name with
    | none =>
      have hnot : ¬taken := hfree.1 (Namespace.remove?_eq_none_iff.1 hremove)
      rw [remove_of_none hremove]
      exact ⟨iff_of_false nofun hnot, rfl, nofun, fun _ => ⟨rfl, rfl⟩⟩
    | some tree =>
      obtain ⟨x, hname, hloses⟩ := hs.loses hremove
      have htaken : taken := by
        obtain ⟨front, back, hsplit, -⟩ := hloses.split
        refine ⟨x, ?_, hname⟩
        rw [hsplit]
        exact List.mem_append_right _ List.mem_cons_self
      rw [remove_of_some hremove]
      exact ⟨iff_of_true rfl htaken, rfl, fun _ => ⟨x, hname, hloses⟩, fun h => absurd rfl h⟩

/-- A directory that was taken out of the tree still gets an entry, whereas its own name is not
found any more, and a bad name leaves no trace. -/
theorem requests_exact_stale :
    let a : Node Endpoint := ⟨2, "a", .directory⟩
    let held : Set (Node Endpoint) := {.root} ∪ {a}
    let tree : Namespace Endpoint := Namespace.empty.grow 1 a
    let s : System := { tree := (tree.setChildren 1 []).setChildren 2 [] }
    let made := s.make a "b" .directory
    tree.remove? .root "a" = some s.tree ∧ Forest.Reachable ⟨s.tree, held⟩ ∧ a ∈ held ∧
      (∃ b, made.1 = some b ∧ b.inode = 3 ∧ made.2.tree.children 2 = [b] ∧
        made.2.tree.children 1 = []) ∧
      (s.make a ".." .directory).1 = none ∧ (s.remove .root "a").result = .error .noEntry := by
  intro a held tree s made
  have hroot : Node.root ∈ held := Or.inl rfl
  have ha : a ∈ held := Or.inr rfl
  have hgone : tree.remove? .root "a" = some s.tree := rfl
  have hreach : Forest.Reachable ⟨s.tree, held⟩ := by
    have hmade : Forest.Reachable ⟨tree, held⟩ :=
      Forest.Later.refl.grow (f := .start) (Set.mem_singleton _) (by decide) rfl (by rintro c ⟨⟩)
        .directory
    have hremoved := hmade.remove hroot "a"
    rwa [Forest.remove, hgone] at hremoved
  refine ⟨hgone, hreach, ha, ?_, ?_, ?_⟩
  · obtain ⟨-, hrequests, -⟩ := requests_exact hreach ha "b"
    obtain ⟨hiff, -, hgains, -⟩ := hrequests .directory
    have hfree : ¬∃ c ∈ s.tree.children a.inode, c.name = "b" := by
      rintro ⟨c, hc, -⟩
      cases hc
    obtain ⟨b, hb⟩ := Option.isSome_iff_exists.1 (hiff.2 ⟨by decide, rfl, hfree⟩)
    obtain ⟨-, -, hgained⟩ := hgains b hb
    exact ⟨b, hb, hgained.inode, hgained.appended, hgained.frame 1 (by decide)⟩
  · obtain ⟨-, hrequests, -⟩ := requests_exact hreach ha ".."
    obtain ⟨hiff, -⟩ := hrequests .directory
    by_contra hne
    have hsome := hiff.1 (Option.isSome_iff_ne_none.2 hne)
    exact hsome.1.2.2.2 rfl
  · obtain ⟨-, -, hiff, -, -, hfailed⟩ := requests_exact hreach hroot "a"
    refine (hfailed fun h => ?_).1
    obtain ⟨c, hc, -⟩ := hiff.1 h
    cases hc

end System
end CpuSteward
