import CpuSteward.Proofs.Lineage
import CpuSteward.System.Basic

/-!
# What was taken out stays out

A node that is taken out keeps the nodes that were below its children, and whoever holds a
handle to one of them can go on making nodes there.  All these nodes are apart from the tree:
no list outside names one of them, and a new node joins them only if it is made below one of
them.  So no way from the root ever leads to them again.

## Main definitions

* `Namespace.Passes` — the way of a path goes through a node.
* `Forest.descent` — some nodes with all that was born below them.
* `Forest.Sealed` — no list outside some nodes names one of them.

## Main results

* `Forest.Sealed.walk?` — no way from outside leads to a sealed set of nodes.
* `Forest.Sealed.run` — a sealed set stays sealed, with all that is born in it.
* `Forest.Sound.sealed_remove` — a removal seals what was below the removed node.
* `Forest.removal_permanent` — **a removal is exact and for good.**
-/

namespace CpuSteward

namespace Namespace

variable {ε : Type}

/-- The way of the path goes through the node, or ends there. -/
def Passes (ns : Namespace ε) (path : String) (n : Node ε) : Prop :=
  ∃ way, way <+: Path.components path ∧ ns.walk? .root way = some n

end Namespace

namespace Forest

variable {ε : Type} {f g : Forest ε} {parent m n x : Node ε} {name : String}
  {births : List (Birth ε)} {b : Birth ε} {lost : Set (Node ε)} {ns : Namespace ε}

/-! ### All that was born below some nodes -/

/-- The second node was born below the first. -/
def Bore (births : List (Birth ε)) (parent node : Node ε) : Prop := ⟨parent, node⟩ ∈ births

/-- Some nodes, with all that was born below them, and below these. -/
def descent (lost : Set (Node ε)) (births : List (Birth ε)) : Set (Node ε) :=
  {n | ∃ m ∈ lost, Relation.ReflTransGen (Bore births) m n}

@[simp] theorem descent_nil (lost : Set (Node ε)) : descent lost [] = lost := by
  ext n
  constructor
  · rintro ⟨m, hm, h⟩
    cases h with
    | refl => exact hm
    | tail _ h => cases h
  · intro hn
    exact ⟨n, hn, .refl⟩

/-- One more birth adds its node, if it is below a node that counts.  Nothing was born below
the new node yet. -/
theorem mem_descent_append (hnew : ∀ c ∈ births ++ [b], c.parent ≠ b.node) :
    n ∈ descent lost (births ++ [b]) ↔
      n ∈ descent lost births ∨ (b.parent ∈ descent lost births ∧ n = b.node) := by
  have hmono : ∀ {m n}, Relation.ReflTransGen (Bore births) m n →
      Relation.ReflTransGen (Bore (births ++ [b])) m n := by
    intro m n h
    exact Relation.ReflTransGen.mono (fun _ _ => List.mem_append_left _) _ _ h
  constructor
  · rintro ⟨m, hm, h⟩
    induction h with
    | refl => exact Or.inl ⟨m, hm, .refl⟩
    | @tail p n _ hpn ih =>
      have hp : p ∈ descent lost births := ih.resolve_right fun h => hnew _ hpn h.2
      rcases List.mem_append.1 hpn with hpn | hpn
      · obtain ⟨m, hm, h⟩ := hp
        exact Or.inl ⟨m, hm, h.tail hpn⟩
      · cases List.mem_singleton.1 hpn
        exact Or.inr ⟨hp, rfl⟩
  · rintro (⟨m, hm, h⟩ | ⟨⟨m, hm, h⟩, rfl⟩)
    · exact ⟨m, hm, hmono h⟩
    · exact ⟨m, hm, (hmono h).tail (List.mem_append_right _ (List.mem_singleton_self _))⟩

/-! ### Sealed sets of nodes -/

/-- No list outside names a node of the set. -/
structure Sealed (f : Forest ε) (lost : Set (Node ε)) : Prop where
  root : Node.root ∉ lost
  held : lost ⊆ f.held
  closed : ∀ {m n}, m ∈ f.held → m ∉ lost → f.tree.Child m n → n ∉ lost

/-- A way from outside ends outside. -/
theorem Sealed.walk? (h : f.Sealed lost) (hs : f.Sound) {names : List String} (hm : m ∈ f.held)
    (hout : m ∉ lost) (hw : f.tree.walk? m names = some n) : n ∈ f.held ∧ n ∉ lost := by
  induction names generalizing m with
  | nil =>
    cases hw
    exact ⟨hm, hout⟩
  | cons step names ih =>
    rw [Namespace.walk?_cons, Option.bind_eq_some_iff] at hw
    obtain ⟨c, hc, hw⟩ := hw
    have hmem := Namespace.mem_of_child? hc
    exact ih (hs.listed hmem) (h.closed hm hout hmem) hw

/-- A path leads to a node outside. -/
theorem Sealed.resolve? (h : f.Sealed lost) (hs : f.Sound) {path : String}
    (hn : f.tree.resolve? path = some n) : n ∈ f.held ∧ n ∉ lost :=
  h.walk? hs hs.root h.root hn

/-- A list that a path leads to has only nodes outside. -/
theorem Sealed.list? (h : f.Sealed lost) (hs : f.Sound) {path : String} {nodes : List (Node ε)}
    (hl : f.tree.list? path = some nodes) (hn : n ∈ nodes) : n ∉ lost := by
  unfold Namespace.list? at hl
  obtain ⟨p, hp, hl⟩ := Option.bind_eq_some_iff.1 hl
  obtain ⟨hheld, hout⟩ := h.resolve? hs hp
  split at hl
  · cases hl
    exact h.closed hheld hout hn
  · cases hl

/-- Lists that lose nodes do no harm. -/
theorem Sealed.shrink (h : f.Sealed lost)
    (hc : ∀ i, (ns.children i).Sublist (f.tree.children i)) : Sealed ⟨ns, f.held⟩ lost where
  root := h.root
  held := h.held
  closed hm hout hn := h.closed hm hout ((hc _).mem hn)

/-- A new node joins the set if it is made below one of its nodes. -/
theorem Sealed.grow (h : f.Sealed lost) (hs : f.Sound) (hp : parent ∈ f.held) {node : Node ε}
    (hnew : ∀ n ∈ f.held, n.inode < node.inode) :
    Sealed ⟨f.tree.grow parent.inode node, f.held ∪ {node}⟩
      {n | n ∈ lost ∨ (parent ∈ lost ∧ n = node)} where
  root := by
    rintro (hr | ⟨-, hr⟩)
    · exact h.root hr
    · exact absurd (hnew _ hs.root) (hr ▸ Nat.lt_irrefl _)
  held := by
    rintro n (hn | ⟨-, rfl⟩)
    · exact Or.inl (h.held hn)
    · exact Or.inr rfl
  closed := by
    intro m n hm hout hn
    have hmlost : m ∉ lost := fun hm => hout (Or.inl hm)
    have hnode : node ∉ lost := fun hn => absurd (hnew _ (h.held hn)) (Nat.lt_irrefl _)
    rcases Namespace.mem_children_grow.1 hn with hold | ⟨hi, rfl⟩
    · -- an old entry, in the list of an old node
      have hlt := hnew n (hs.listed hold)
      have hmheld : m ∈ f.held := by
        rcases hm with hm | hm
        · exact hm
        · exact absurd (hm ▸ hs.younger hold) (Nat.not_lt_of_gt hlt)
      rintro (hlost | ⟨-, he⟩)
      · exact h.closed hmheld hmlost hold hlost
      · exact absurd hlt (he ▸ Nat.lt_irrefl _)
    · -- the new entry
      rcases hm with hm | rfl
      · rintro (hlost | ⟨hlost, -⟩)
        · exact hnode hlost
        · exact hmlost (hs.unique hm hp hi ▸ hlost)
      · exact absurd hi (Nat.ne_of_gt (hnew _ hp))

/-- A sealed set stays sealed, with all that is born in it. -/
theorem Sealed.run (h : f.Sealed lost) (hs : f.Sound) (hr : f.Run births g) :
    g.Sealed (descent lost births) := by
  induction hr with
  | refl =>
    rw [descent_nil]
    exact h
  | @add births g hr parent hp name content ih =>
    have hg : g.Sound := hs.later hr.later
    rcases g.add_cases parent name content with ⟨hb, next, -, ha⟩ | ⟨-, -, -, hb, ha⟩ <;>
      rw [hb, ha]
    · rw [List.append_nil]
      exact ih.shrink fun _ => List.Sublist.refl _
    · have hnew : ∀ c ∈ births ++ [⟨parent, ⟨g.tree.nextInode, name, content⟩⟩],
          c.parent ≠ ⟨g.tree.nextInode, name, content⟩ := by
        intro c hc he
        have hheld : c.parent ∈ g.held := by
          rcases List.mem_append.1 hc with hc | hc
          · exact (hr.of_mem hc).1
          · cases List.mem_singleton.1 hc
            exact hp
        exact absurd (hg.bound hheld) (he ▸ Nat.lt_irrefl _)
      have heq : descent lost (births ++ [⟨parent, ⟨g.tree.nextInode, name, content⟩⟩]) =
          {n | n ∈ descent lost births ∨
            (parent ∈ descent lost births ∧ n = ⟨g.tree.nextInode, name, content⟩)} :=
        Set.ext fun n => mem_descent_append hnew
      rw [heq]
      exact ih.grow hg hp fun n hn => hg.bound hn
  | @remove _ g _ parent _ name ih => exact ih.shrink (g.remove_tree parent name).2

/-! ### A removal seals what was below the removed node -/

/-- The root is in no list. -/
theorem Sound.root_not_mem (hf : f.Sound) (i : Nat) : Node.root ∉ f.tree.children i :=
  fun h => absurd (hf.valid h) (by decide : ¬validName "/" = true)

theorem Sound.held_of_below (hf : f.Sound) (hx : x ∈ f.held)
    (h : Relation.ReflTransGen f.tree.Child x n) : n ∈ f.held := by
  cases h with
  | refl => exact hx
  | tail _ h => exact hf.listed h

theorem Sound.sealed_remove (hf : f.Sound) (hr : f.tree.remove? parent name = some ns)
    (hx : f.tree.child? parent name = some x) :
    Sealed ⟨ns, f.held⟩ {n | Relation.ReflTransGen f.tree.Child x n} := by
  have hmem := Namespace.mem_of_child? hx
  have hheld : x ∈ f.held := hf.listed hmem
  refine ⟨?_, fun n hn => hf.held_of_below hheld hn, ?_⟩
  · intro h
    cases h with
    | refl => exact hf.root_not_mem _ hmem
    | tail _ h => exact hf.root_not_mem _ h
  · intro m n hm hout hn h
    obtain ⟨hold, -, hne⟩ := (hf.mem_children_remove? hr hx).1 hn
    cases h with
    | refl => exact hne rfl
    | @tail p _ hp hpn =>
      -- the one list that names the node is that of its parent
      have hpm : p = m := hf.unique (hf.held_of_below hheld hp) hm (hf.single hpn hold)
      exact hout (hpm ▸ hp)

/-! ### Ways after a removal -/

/-- Where lists lost nodes, a way leads to the same node as before, if it leads anywhere. -/
theorem Sound.walk?_of_sublist (hf : f.Sound)
    (hc : ∀ i, (ns.children i).Sublist (f.tree.children i)) {names : List String}
    (hw : ns.walk? m names = some n) : f.tree.walk? m names = some n := by
  induction names generalizing m with
  | nil => exact hw
  | cons step names ih =>
    rw [Namespace.walk?_cons, Option.bind_eq_some_iff] at hw ⊢
    obtain ⟨c, hstep, hw⟩ := hw
    refine ⟨c, ?_, ih hw⟩
    rw [hf.child?_eq_some_iff]
    exact ⟨(hc _).mem (Namespace.mem_of_child? hstep), Namespace.name_of_child? hstep⟩

/-- A way that went through a node which is sealed now leads nowhere. -/
theorem Sealed.walk?_eq_none (h : Sealed ⟨ns, f.held⟩ lost) (hf : f.Sound)
    (hs : Sound ⟨ns, f.held⟩) (hc : ∀ i, (ns.children i).Sublist (f.tree.children i))
    (hx : x ∈ lost) {way names : List String} (hway : way <+: names)
    (hw : f.tree.walk? .root way = some x) : ns.walk? .root names = none := by
  obtain ⟨rest, rfl⟩ := hway
  rw [Option.eq_none_iff_forall_ne_some]
  intro n hn
  rw [Namespace.walk?_append, Option.bind_eq_some_iff] at hn
  obtain ⟨z, hz, -⟩ := hn
  have hzx : z = x := Option.some.inj ((hf.walk?_of_sublist hc hz).symm.trans hw)
  exact (h.walk? hs hs.root h.root hz).2 (hzx ▸ hx)

end Forest

namespace System

variable {s : System} {k : Kernel} {path : String} {bytes : ByteArray}

/-! ### The node that answers a request -/

/-- What reading a node yields. -/
def readNode (s : System) (k : Kernel) (node : Node Endpoint) : Except AccessError ByteArray :=
  match node.content with
  | .directory => .error .isDirectory
  | .file perm endpoint =>
    if perm.readable then .ok (s.content k endpoint) else .error .permissionDenied

/-- What writing a buffer to a node leads to. -/
def writeNode (s : System) (k : Kernel) (bytes : ByteArray) (node : Node Endpoint) :
    Response (Except AccessError Nat) :=
  match node.content with
  | .directory => { result := .error .isDirectory, system := s }
  | .file perm endpoint =>
    if perm.writable then s.writeEndpoint k bytes endpoint
    else { result := .error .permissionDenied, system := s }

/-- A node answers the requests to a path if the path leads there. -/
structure Answers (s : System) (path : String) (node : Node Endpoint) : Prop where
  leads : s.tree.resolve? path = some node
  read : ∀ k, s.read k path = s.readNode k node
  write : ∀ k bytes, s.write k path bytes = s.writeNode k bytes node

/-- No node answers the requests to a path. -/
structure Unanswered (s : System) (path : String) : Prop where
  read : ∀ k, s.read k path = .error .noEntry
  write : ∀ k bytes, s.write k path bytes = { result := .error .noEntry, system := s }

theorem unanswered_of_none (h : s.tree.resolve? path = none) : s.Unanswered path where
  read k := by
    unfold System.read
    rw [h]
  write k bytes := by
    unfold System.write
    rw [h]

theorem answers_of_some {node : Node Endpoint} (h : s.tree.resolve? path = some node) :
    s.Answers path node where
  leads := h
  read k := by
    unfold System.read
    rw [h]
    rfl
  write k bytes := by
    unfold System.write
    rw [h]
    rfl

end System

namespace Forest

variable {f : Forest Endpoint} {parent : Node Endpoint} {name : String} {ns : Namespace Endpoint}

/-- **A removal is exact and for good.**  The paths through the removed node lead nowhere, and
all others where they led before.  Whatever is asked after that, be it of nodes that were taken
out, no path leads to a node that was below the removed one, or was born below such a node: it
is not found, stands in no list that a path leads to, and answers no request to a path. -/
theorem removal_permanent (hf : f.Reachable) (hr : f.tree.remove? parent name = some ns) :
    ∃ x, f.tree.child? parent name = some x ∧
      (∀ path, f.tree.Passes path x → ns.resolve? path = none) ∧
      (∀ path, ¬f.tree.Passes path x → ns.resolve? path = f.tree.resolve? path) ∧
      ∀ births g, Run ⟨ns, f.held⟩ births g →
        let lost := descent {n | Relation.ReflTransGen f.tree.Child x n} births
        (∀ path, ∀ n ∈ lost, g.tree.resolve? path ≠ some n) ∧
          (∀ path nodes, g.tree.list? path = some nodes → ∀ n ∈ lost, n ∉ nodes) ∧
          ∀ s : System, s.tree = g.tree → ∀ path,
            s.Unanswered path ∨ ∃ n ∉ lost, s.Answers path n := by
  have hs := hf.sound
  obtain ⟨x, hx, -⟩ := Namespace.children_remove? hr
  have hsealed := hs.sealed_remove hr hx
  have hns : Sound ⟨ns, f.held⟩ := hs.of_remove? hr
  refine ⟨x, hx, ?_, ?_, ?_⟩
  · rintro path ⟨way, hway, hwalk⟩
    exact hsealed.walk?_eq_none hs hns (Namespace.sublist_of_remove? hr) .refl hway hwalk
  · intro path hpath
    refine hs.walk?_remove? hr hx hs.root fun way hway hwalk => hpath ⟨way, hway, hwalk⟩
  · intro births g hrun lost
    have hg : g.Sound := hns.later hrun.later
    have hlost : g.Sealed lost := hsealed.run hns hrun
    refine ⟨fun path n hn hpath => (hlost.resolve? hg hpath).2 hn,
      fun path nodes hlist n hn hmem => hlost.list? hg hlist hmem hn, ?_⟩
    intro s hs path
    cases hpath : s.tree.resolve? path with
    | none => exact Or.inl (System.unanswered_of_none hpath)
    | some n =>
      have hout := (hlost.resolve? hg (hs ▸ hpath)).2
      exact Or.inr ⟨n, hout, System.answers_of_some hpath⟩

/-- Someone kept a handle to a directory below the removed one, and makes a node there.  The
name that became free leads to a new directory, but not down to that node. -/
theorem removal_permanent_stale :
    let a : Node Endpoint := ⟨2, "a", .directory⟩
    let b : Node Endpoint := ⟨3, "b", .directory⟩
    let late : Node Endpoint := ⟨4, "late", .file .readWrite (.tunable 1 .heartbeat)⟩
    let again : Node Endpoint := ⟨5, "a", .directory⟩
    let f : Forest Endpoint := ⟨(Namespace.empty.grow 1 a).grow 2 b, {.root} ∪ {a} ∪ {b}⟩
    ∃ ns g, f.Reachable ∧ f.tree.remove? .root "a" = some ns ∧ ns.resolve? "a/b" = none ∧
      Run ⟨ns, f.held⟩ [⟨b, late⟩, ⟨.root, again⟩] g ∧ g.tree.children 3 = [late] ∧
      g.tree.children 1 = [again] ∧ ∀ path, g.tree.resolve? path ≠ some late := by
  intro a b late again f
  have hvalid : validName "a" = true ∧ validName "b" = true ∧ validName "late" = true := by decide
  have hreach : f.Reachable := by
    have ha := Later.refl.grow (f := .start) (Set.mem_singleton _) hvalid.1 rfl
      (by rintro c ⟨⟩) (.directory : Content Endpoint)
    exact ha.grow (Or.inr rfl) hvalid.2.1 rfl (by rintro c ⟨⟩) .directory
  let ns : Namespace Endpoint := (f.tree.setChildren 1 []).setChildren 2 []
  have hr : f.tree.remove? .root "a" = some ns := rfl
  have hstart : Run ⟨ns, f.held⟩ [] ⟨ns, f.held⟩ := .refl
  have hlate := hstart.grow (show b ∈ f.held from Or.inr rfl) hvalid.2.2 rfl (by rintro c ⟨⟩)
    (.file .readWrite (.tunable 1 .heartbeat))
  have hroot := hlate.later.held_subset (Or.inl (Or.inl rfl))
  have hagain := hlate.grow hroot hvalid.1 rfl (by rintro c ⟨⟩) .directory
  obtain ⟨x, hx, hthrough, -, hgone⟩ := removal_permanent hreach hr
  cases hx
  have hbelow : late ∈ descent {n | Relation.ReflTransGen f.tree.Child a n}
      [⟨b, late⟩, ⟨.root, again⟩] :=
    ⟨b, .single (List.mem_singleton_self b), .single List.mem_cons_self⟩
  refine ⟨ns, _, hreach, hr, hthrough "a/b" ⟨["a"], by decide +kernel, rfl⟩, hagain, rfl, rfl, ?_⟩
  exact fun path => (hgone _ _ hagain).1 path late hbelow

end Forest
end CpuSteward
