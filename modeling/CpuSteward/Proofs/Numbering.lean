import CpuSteward.Proofs.Lineage
import CpuSteward.Proofs.Session

/-!
# Inodes in a word

A node is shown under its inode as far as a word has it.  The kernel keeps no more than that
word, and puts it on by one whenever it uses an inode up.  The numbers are the same either way,
also once the counter has come round.

Until then a number is the inode itself, and all nodes have numbers of their own.  A request uses
up 41 inodes at most, so until then a session has room for more requests than any machine takes.

## Main definitions

* `Session.run`, `Session.AllowsAll` — a session request by request.

## Main results

* `Namespace.counter_add` — what a request to make a node does to the counter.
* `Forest.Sound.toNat_number`, `Forest.Sound.eq_of_number_eq` — what numbers tell while the
  counter fits.
* `Forest.Run.numbers_ascending` — the numbers ascend in the order of the births.
* `Session.nextInode_step_le`, `Session.Reached.nextInode_run_le` — how far one request, and how
  far a session, puts the counter on.
* `Session.numbers_fit` — **all through a session of that length each node is shown under its
  inode.**
-/

namespace CpuSteward

namespace Namespace

variable {ε : Type}

/-- A request to make a node puts the counter on by one, unless it is refused at once, and a
node that is made is shown under what the counter was before.  This holds wherever the counter
is, so also when it comes round. -/
theorem counter_add (ns : Namespace ε) (parent : Node ε) (name : String) (content : Content ε) :
    (ns.add parent name content).2.counter =
        (if validName name && parent.isDirectory then ns.counter + 1 else ns.counter) ∧
      ∀ node, (ns.add parent name content).1 = some node → node.number = ns.counter := by
  have hnext : UInt64.ofNat (ns.nextInode + 1) = ns.counter + 1 := UInt64.ofNat_add _ _
  rcases ns.add_cases parent name content with ⟨hr, ha⟩ | ⟨hv, hd, -, ha⟩ | ⟨hv, hd, -, ha⟩
  · rw [ha, hr]
    exact ⟨rfl, fun node h => nomatch h⟩
  · rw [ha, hv, hd]
    exact ⟨hnext, fun node h => nomatch h⟩
  · rw [ha, hv, hd]
    refine ⟨hnext, fun node h => ?_⟩
    cases h
    rfl

/-- When the counter has come round, the next node is shown under 0 and the one after under the
number of the root. -/
example :
    let ns : Namespace Unit := ⟨fun _ => [], UInt64.size⟩
    let first := ns.mkdir .root "a"
    let second := first.2.mkdir .root "b"
    first.1.map Node.number = some 0 ∧
      second.1.map Node.number = some (Node.root : Node Unit).number := by
  decide

theorem nextInode_add_le (ns : Namespace ε) (parent : Node ε) (name : String)
    (content : Content ε) : (ns.add parent name content).2.nextInode ≤ ns.nextInode + 1 := by
  rcases ns.add_cases parent name content with ⟨-, ha⟩ | ⟨-, -, -, ha⟩ | ⟨-, -, -, ha⟩
  · rw [ha]
    exact Nat.le_succ _
  · exact Nat.le_of_eq (congrArg (·.2.nextInode) ha)
  · exact Nat.le_of_eq (congrArg (·.2.nextInode) ha)

end Namespace

namespace Forest

variable {ε : Type} {f : Forest ε} {m n : Node ε} {births : List (Birth ε)}

/-! ### While the counter fits -/

/-- No node has an inode that was not given out, so a counter that fits makes all of them fit. -/
theorem Sound.toNat_number (hf : f.Sound) (hfit : f.tree.nextInode ≤ UInt64.size)
    (hn : n ∈ f.held) : n.number.toNat = n.inode :=
  UInt64.toNat_ofNat_of_lt' (Nat.lt_of_lt_of_le (hf.bound hn) hfit)

theorem Sound.eq_of_number_eq (hf : f.Sound) (hfit : f.tree.nextInode ≤ UInt64.size)
    (hm : m ∈ f.held) (hn : n ∈ f.held) (h : m.number = n.number) : m = n := by
  have hinode : m.inode = n.inode := by
    rw [← hf.toNat_number hfit hm, ← hf.toNat_number hfit hn, h]
  exact hf.unique hm hn hinode

/-- What `lineage` says of the inodes holds of the numbers: they ascend in the order of the
births, and the root has the lowest one. -/
theorem Run.numbers_ascending (h : start.Run births f)
    (hfit : f.tree.nextInode ≤ UInt64.size) :
    ((.root :: births.map Birth.node : List (Node ε)).map Node.number).Pairwise (· < ·) := by
  have hs : f.Sound := sound_start.later h.later
  have hheld : ∀ b ∈ births, b.node ∈ f.held := fun b hb => h.mem_held_iff.2 (Or.inr ⟨b, hb, rfl⟩)
  rw [List.pairwise_map, List.pairwise_cons, List.pairwise_map]
  constructor
  · intro n hn
    obtain ⟨b, hb, rfl⟩ := List.mem_map.1 hn
    rw [UInt64.lt_iff_toNat_lt, hs.toNat_number hfit hs.root, hs.toNat_number hfit (hheld b hb)]
    exact (h.of_mem hb).2.2.1
  · refine h.ascending.imp_of_mem fun {a b} ha hb hab => ?_
    rw [UInt64.lt_iff_toNat_lt, hs.toNat_number hfit (hheld a ha),
      hs.toNat_number hfit (hheld b hb)]
    exact hab

end Forest

/-! ### How long the counter fits -/

theorem System.nextInode_load_le {s : System} {held : Set (Node Endpoint)}
    (hs : Forest.Sound ⟨s.tree, held⟩) (k : Kernel) :
    (s.load k).system.tree.nextInode ≤ s.tree.nextInode + 41 := by
  rcases System.load_cases hs k with ⟨-, -, hsystem, -⟩ | ⟨-, -, htree⟩
  · rw [hsystem]
    exact Nat.add_le_add_left (by decide) _
  · rw [htree]
    exact Nat.le_of_eq (System.nextInode_laid _ _)

namespace Session

variable {σ : Session} {K : Request → Prop} {rs : List Request}

/-- What one request after the other leads to. -/
def run (σ : Session) : List Request → Session
  | [] => σ
  | r :: rs => (σ.step r).run rs

/-- Each request can be made when its turn comes. -/
def AllowsAll (σ : Session) : List Request → Prop
  | [] => True
  | r :: rs => σ.Allows r ∧ (σ.step r).AllowsAll rs

theorem Reached.run (h : σ.Reached K) (hk : ∀ r ∈ rs, K r) (ha : σ.AllowsAll rs) :
    (σ.run rs).Reached K := by
  induction rs generalizing σ with
  | nil => exact h
  | cons r rs ih =>
    obtain ⟨hr, hrs⟩ := List.forall_mem_cons.1 hk
    obtain ⟨har, hars⟩ := ha
    exact ih (h.step hr har) hrs hars

/-- A request uses up 41 inodes at most, which is what loading takes. -/
theorem nextInode_step_le (hs : σ.forest.Sound) (r : Request) :
    (σ.step r).system.tree.nextInode ≤ σ.system.tree.nextInode + 41 := by
  have hadd : ∀ parent name content,
      (σ.system.tree.add parent name content).2.nextInode ≤ σ.system.tree.nextInode + 41 :=
    fun parent name content =>
      Nat.le_trans (Namespace.nextInode_add_le _ _ _ _) (Nat.add_le_add_left (by decide) _)
  have hremove : ∀ parent name,
      ((σ.system.tree.remove? parent name).getD σ.system.tree).nextInode ≤
        σ.system.tree.nextInode + 41 :=
    fun parent name =>
      Nat.le_trans (Nat.le_of_eq (σ.forest.remove_tree parent name).1) (Nat.le_add_right _ _)
  cases r with
  | load k =>
    rw [system_step_load]
    exact System.nextInode_load_le hs k
  | unload k id =>
    show (σ.system.unload k id).system.tree.nextInode ≤ _
    rw [System.tree_unload]
    exact hremove .root Identity.directory
  | act st =>
    show (σ.system.act st).system.tree.nextInode ≤ _
    rw [System.tree_act]
    exact Nat.le_add_right _ _
  | mkdir parent name => exact hadd parent name .directory
  | create parent name perm endpoint => exact hadd parent name (.file perm endpoint)
  | remove parent name =>
    show (σ.system.remove parent name).system.tree.nextInode ≤ _
    rw [System.tree_remove]
    exact hremove parent name

theorem Reached.nextInode_run_le (h : σ.Reached K) (hk : ∀ r ∈ rs, K r) (ha : σ.AllowsAll rs) :
    (σ.run rs).system.tree.nextInode ≤ σ.system.tree.nextInode + 41 * rs.length := by
  induction rs generalizing σ with
  | nil => exact Nat.le_refl _
  | cons r rs ih =>
    obtain ⟨hr, hrs⟩ := List.forall_mem_cons.1 hk
    obtain ⟨har, hars⟩ := ha
    have hstep := nextInode_step_le h.sound r
    have hrest := ih (h.step hr har) hrs hars
    rw [List.length_cons]
    exact Nat.le_trans hrest (by omega)

/-- **Each node is shown under its inode, and under no number of another node.**  A session has
to be longer than `2 ^ 58` requests before that could end, since the new tree starts at 2 and no
request uses up more than 41 inodes. -/
theorem numbers_fit (ha : start.AllowsAll rs) (hlen : 2 + 41 * rs.length ≤ UInt64.size) :
    let σ := start.run rs
    (∀ n ∈ σ.held, n.number.toNat = n.inode) ∧
      ∀ m ∈ σ.held, ∀ n ∈ σ.held, m.number = n.number → m = n := by
  intro σ
  have hstart : start.Reached fun _ => True := .start
  have hs : σ.forest.Sound := (hstart.run (fun _ _ => trivial) ha).sound
  have hle : σ.system.tree.nextInode ≤ 2 + 41 * rs.length :=
    hstart.nextInode_run_le (fun _ _ => trivial) ha
  have hfit : σ.forest.tree.nextInode ≤ UInt64.size := Nat.le_trans hle hlen
  exact ⟨fun n hn => hs.toNat_number hfit hn, fun m hm n hn => hs.eq_of_number_eq hfit hm hn⟩

end Session
end CpuSteward
