import CpuSteward.Proofs.Grammar
import CpuSteward.Proofs.Ranges
import CpuSteward.Proofs.Reload

/-!
# Backup and restore

What reading the file of a tunable yields can be written back to it, in the same control
plane or in another one, whatever both have been through.  Three things are behind this.
The files are where loading put them.  The text of a value is a literal of it, short enough
for the reader.  And a value that a run can lead to is one that a write is allowed to set.

## Main definitions

* `Tunable.way` — the names on the way to the file of a tunable.
* `System.Serves` — the files of the tunables of a controller are in their places.
* `System.Copy` — what was read from the file of a tunable.
* `System.replies` — what the steps of a run answer.

## Main results

* `IntLiteral.read?_padded` — the text of a word is read as the word.
* `System.Serves.read`, `System.Serves.accepts` — the files take back what they yield.
* `System.replies_restore`, `System.get_restore` — writing copies back, one after the other.
* `System.backup_restore` — **a backup can be restored into any control plane.**
-/

namespace CpuSteward

/-! ### The text of a value -/

namespace IntLiteral

variable {s : List Char} {n : Nat}

@[simp] theorem positional_append_singleton (base : Nat) (s : List Char) (c : Char) :
    positional base (s ++ [c]) = positional base s * base + digitValue c := by
  simp [positional, Nat.ofDigits_cons, Nat.add_comm, Nat.mul_comm]

/-- The digits of a positive number do not begin with `0`. -/
theorem toDigits_spec (hn : 0 < n) :
    ∃ c s, Nat.toDigits 10 n = c :: s ∧ c ≠ '0' ∧ (∀ d ∈ c :: s, d ∈ alphabet 10) ∧
      positional 10 (c :: s) = n := by
  induction n using Nat.strong_induction_on with
  | _ n ih =>
    rcases Nat.lt_or_ge n 10 with hlt | hge
    · have hall : ∀ n < 10, 0 < n → n.digitChar ≠ '0' ∧ n.digitChar ∈ alphabet 10 ∧
          positional 10 [n.digitChar] = n := by decide
      obtain ⟨h0, hmem, hval⟩ := hall n hlt hn
      exact ⟨_, [], Nat.toDigits_of_lt_base hlt, h0, by simpa using hmem, hval⟩
    · obtain ⟨c, s, hs, h0, hmem, hval⟩ := ih (n / 10) (by omega) (by omega)
      have hall : ∀ m < 10, m.digitChar ∈ alphabet 10 ∧ digitValue m.digitChar = m := by decide
      obtain ⟨hlast, hlastval⟩ := hall (n % 10) (by omega)
      refine ⟨c, s ++ [(n % 10).digitChar], ?_, h0, ?_, ?_⟩
      · rw [Nat.toDigits_of_base_le (by decide) hge, hs, List.cons_append]
      · intro d hd
        rw [← List.cons_append, List.mem_append, List.mem_singleton] at hd
        rcases hd with hd | rfl
        · exact hmem d hd
        · exact hlast
      · rw [← List.cons_append, positional_append_singleton, hval, hlastval]
        omega

theorem mem_alphabet_of_mem_toDigits (n : Nat) : ∀ c ∈ Nat.toDigits 10 n, c ∈ alphabet 10 := by
  rcases Nat.eq_zero_or_pos n with rfl | hn
  · exact forall_mem_of_all (by decide)
  · obtain ⟨c, s, hs, -, hmem, -⟩ := toDigits_spec hn
    rw [hs]
    exact hmem

/-- The decimal digits of a number are a body of it: they announce no other base. -/
theorem body_toDigits (n : Nat) : Body (Nat.toDigits 10 n) n := by
  rcases Nat.eq_zero_or_pos n with rfl | hn
  · rw [Nat.toDigits_zero]
    exact .zero
  · obtain ⟨c, s, hs, h0, hmem, hval⟩ := toDigits_spec hn
    have hbody := Body.decimal h0 hmem
    rwa [hval, ← hs] at hbody

theorem signed_ofInt (z : Int) : Signed (Decimal.ofInt z).toList z := by
  rw [Decimal.toList_ofInt]
  split
  · rename_i hz
    have h := Signed.bare (body_toDigits z.natAbs)
    rwa [show (z.natAbs : Int) = z by omega] at h
  · rename_i hz
    have h := Signed.minus (body_toDigits z.natAbs)
    rwa [show -(z.natAbs : Int) = z by omega] at h

/-- The blanks that a decimal text stands between in files and reports. -/
def padding : List Char := [' ', '\n']

/-- The characters of a padded decimal text take a byte each, which is not NUL. -/
theorem utf8EncodeChar_of_mem {c : Char} (h : c ∈ padding ++ '-' :: alphabet 10) :
    (String.utf8EncodeChar c).length = 1 ∧ 0 ∉ String.utf8EncodeChar c :=
  forall_mem_of_all
    (p := fun c => (String.utf8EncodeChar c).length = 1 ∧ 0 ∉ String.utf8EncodeChar c)
    (by decide) c h

theorem isBlank_of_mem_padding {c : Char} (h : c ∈ padding) : Blank.isBlank c = true :=
  forall_mem_of_all (p := fun c => Blank.isBlank c = true) (by decide) c h

theorem mem_of_mem_ofInt {z : Int} : ∀ c ∈ (Decimal.ofInt z).toList, c ∈ '-' :: alphabet 10 := by
  intro c hc
  rw [Decimal.toList_ofInt, List.mem_append] at hc
  rcases hc with hc | hc
  · split at hc
    · cases hc
    · exact List.mem_cons.2 (Or.inl (List.mem_singleton.1 hc))
  · exact List.mem_cons_of_mem _ (mem_alphabet_of_mem_toDigits _ c hc)

/-- A signed word has a sign and ten digits at most. -/
theorem length_ofInt32_le (v : Int32) : (Decimal.ofInt32 v).toList.length ≤ 11 := by
  have hlo := v.le_toInt
  have hhi := v.toInt_lt
  have hdigits : (Nat.toDigits 10 v.toInt.natAbs).length ≤ 10 :=
    (Nat.length_toDigits_le_iff (by decide) (by decide)).2 (by omega)
  rw [Decimal.ofInt32, Decimal.toList_ofInt, List.length_append]
  split <;> simp only [List.length_nil, List.length_singleton] <;> omega

theorem toList_toUTF8 (s : String) :
    s.toUTF8.data.toList = s.toList.flatMap String.utf8EncodeChar := by
  rw [String.toUTF8, ← String.utf8Encode_toList, List.utf8Encode.eq_1,
    List.toList_data_toByteArray]

theorem size_toUTF8 {s : String} (h : ∀ c ∈ s.toList, (String.utf8EncodeChar c).length = 1) :
    s.toUTF8.size = s.toList.length := by
  have hone : (s.toList.map fun c => (String.utf8EncodeChar c).length) =
      s.toList.map fun _ => 1 :=
    List.map_congr_left h
  rw [← ByteArray.size_data, ← Array.length_toList, toList_toUTF8, List.length_flatMap, hone]
  simp

/-- **The text of a word is read as the word**, with up to four blanks around it. -/
theorem read?_padded (v : Int32) {front back : List Char} (hf : ∀ c ∈ front, c ∈ padding)
    (hb : ∀ c ∈ back, c ∈ padding) (hn : front.length + back.length ≤ 4) :
    read? (String.ofList front ++ Decimal.ofInt32 v ++ String.ofList back).toUTF8 = some v := by
  have htext : (String.ofList front ++ Decimal.ofInt32 v ++ String.ofList back).toList =
      front ++ (Decimal.ofInt32 v).toList ++ back := by
    simp
  have hchar : ∀ c ∈ (String.ofList front ++ Decimal.ofInt32 v ++ String.ofList back).toList,
      c ∈ padding ++ '-' :: alphabet 10 := by
    intro c hc
    rw [htext, List.mem_append, List.mem_append] at hc
    rcases hc with (hc | hc) | hc
    · exact List.mem_append_left _ (hf c hc)
    · exact List.mem_append_right _ (mem_of_mem_ofInt c hc)
    · exact List.mem_append_left _ (hb c hc)
  have hsize := size_toUTF8 fun c hc => (utf8EncodeChar_of_mem (hchar c hc)).1
  have hlength := length_ofInt32_le v
  refine read?_eq_some_iff.2 ⟨?_, _, ⟨[], ?_, ?_, ?_⟩, front, _, back, htext, ?_, ?_, ?_⟩
  · rw [hsize, htext, List.length_append, List.length_append]
    omega
  · rw [toList_toUTF8, List.append_nil]
  · intro hzero
    obtain ⟨c, hc, hmem⟩ := List.mem_flatMap.1 hzero
    exact (utf8EncodeChar_of_mem (hchar c hc)).2 hmem
  · simp
  · exact fun c hc => isBlank_of_mem_padding (hf c hc)
  · exact fun c hc => isBlank_of_mem_padding (hb c hc)
  · exact signed_ofInt v.toInt

/-- The text of a word is read as the word, with the line end that files put behind it. -/
theorem read?_ofInt32 (v : Int32) :
    read? (Decimal.ofInt32 v ++ "\n").toUTF8 = some v := by
  have htext : Decimal.ofInt32 v ++ "\n" =
      String.ofList [] ++ Decimal.ofInt32 v ++ String.ofList ['\n'] := by
    rw [String.ofList_nil, String.empty_append]
  rw [htext]
  exact read?_padded v (List.forall_mem_nil _) (List.forall_mem_singleton.2 (by decide))
    (by decide)

end IntLiteral

/-! ### The files are in their places -/

/-- The names on the way from the root to the file of a tunable. -/
def Tunable.way (t : Tunable) : List String :=
  Identity.directory :: (t.spec.group.directory?.toList ++ [t.name])

theorem TunableGroup.validName_directory (g : TunableGroup) {name : String}
    (h : g.directory? = some name) : validName name = true := by
  cases g <;> cases h <;> decide

/-- What follows the name of the top directory names what is below it. -/
theorem Path.components_top (q : String) :
    components ("hmbird_sched/" ++ q) = Identity.directory :: components q := by
  have htop : components Identity.directory = [Identity.directory] :=
    components_of_validName (by decide)
  have hpath : "hmbird_sched/" ++ q = Identity.directory ++ "/" ++ q := rfl
  rw [hpath, components_append_slash, htop]
  rfl

/-- The path of a tunable, put behind the name of the top directory, names its file. -/
theorem Tunable.components_path (t : Tunable) :
    Path.components ("hmbird_sched/" ++ t.path) = t.way := by
  have hname : Path.components t.spec.name = [t.name] :=
    Path.components_of_validName t.validName_name
  rw [Path.components_top, way, path, TunableSpec.path]
  cases hd : t.spec.group.directory? with
  | none =>
    simp only [hname]
    rfl
  | some directory =>
    have hdirectory : Path.components directory = [directory] :=
      Path.components_of_validName (t.spec.group.validName_directory hd)
    simp only [Path.components_append_slash, hdirectory, hname]
    rfl

namespace System

variable {s A B : System} {k : Kernel} {owner a b : ControllerId} {t : Tunable} {path : String}
  {tree : Namespace Endpoint} {held : Set (Node Endpoint)}

/-- The files of the tunables of a controller are in their places. -/
def Serves (s : System) (owner : ControllerId) : Prop :=
  ∀ (t : Tunable) (path : String), Path.components path = t.way →
    s.Leads path (permOf t) (endpointOf owner t)

/-- The file of a tunable is a child of the directory of its group. -/
theorem tunableNode_mem_groupChildren (owner : ControllerId) (n : Nat) (t : Tunable) :
    tunableNode owner n t ∈ groupChildren owner n t.spec.group := by
  have hmem : tunableNode owner n t ∈ groupFiles owner n t.spec.group :=
    List.mem_map_of_mem (List.mem_filter.2 ⟨t.mem_all, by simp⟩)
  cases hg : t.spec.group with
  | root =>
    rw [hg] at hmem
    exact List.mem_append_left _ (List.mem_append_right _ hmem)
  | _ => rwa [hg] at hmem

/-- The directory of a group is a child of that of the control plane. -/
theorem groupNode_mem_groupChildren {g : TunableGroup} {name : String}
    (hg : g.directory? = some name) (owner : ControllerId) (n : Nat) :
    groupNode n g ∈ groupChildren owner n .root ∧ (groupNode n g).name = name := by
  cases g <;> cases hg <;> exact ⟨by simp [groupChildren], rfl⟩

/-- The way to the directory of a group, from that of the control plane on. -/
theorem walk?_laid_group (hs : Forest.Sound ⟨tree, held⟩) {held' : Set (Node Endpoint)}
    (hl : Forest.Sound ⟨laid owner tree, held'⟩) (g : TunableGroup) :
    (laid owner tree).walk? (groupNode tree.nextInode .root) g.directory?.toList =
      some (groupNode tree.nextInode g) := by
  cases hg : g.directory? with
  | none =>
    cases g with
    | root => rfl
    | _ => cases hg
  | some name =>
    have hmem := groupNode_mem_groupChildren hg owner tree.nextInode
    rw [← children_laid_group hs owner .root] at hmem
    rw [Option.toList_some, Namespace.walk?_cons, hl.child?_eq_some_iff.2 hmem]
    rfl

theorem resolve?_laid (hs : Forest.Sound ⟨tree, held⟩) {held' : Set (Node Endpoint)}
    (hl : Forest.Sound ⟨laid owner tree, held'⟩) (hf : tree.Free .root Identity.directory)
    (hp : Path.components path = t.way) :
    (laid owner tree).resolve? path = some (tunableNode owner tree.nextInode t) := by
  have hfile : (laid owner tree).child? (groupNode tree.nextInode t.spec.group) t.name =
      some (tunableNode owner tree.nextInode t) := by
    refine hl.child?_eq_some_iff.2 ⟨?_, rfl⟩
    rw [children_laid_group hs owner t.spec.group]
    exact tunableNode_mem_groupChildren owner tree.nextInode t
  rw [Namespace.resolve?, hp, Tunable.way, Namespace.walk?_cons, child?_laid (hs.bound hs.root) hf,
    Option.bind_some, Namespace.walk?_append, walk?_laid_group hs hl, Option.bind_some,
    Namespace.walk?_cons, hfile]
  rfl

/-- Loading puts the files in their places. -/
theorem serves_load (hr : Forest.Reachable ⟨s.tree, held⟩) (h : (s.load k).result = .ok owner) :
    (s.load k).system.Serves owner := by
  have hs := hr.sound
  intro t path hp
  rcases load_cases hs k with ⟨-, herror, -⟩ | ⟨hf, hresult, htree⟩
  · cases h.symm.trans herror
  · cases hresult.symm.trans h
    obtain ⟨g, hg, hgtree⟩ := later_load hs.root s k
    have hl : Forest.Sound ⟨laid s.nextController s.tree, g.held⟩ := by
      rw [← htree, hgtree]
      exact hs.later hg
    exact ⟨_, by rw [htree]; exact resolve?_laid hs hl hf hp, rfl⟩

/-- No run takes them away. -/
theorem Serves.run (hs : s.Serves owner) (steps : List Step) : (s.run steps).Serves owner := by
  intro t path hp
  unfold Leads
  rw [tree_run]
  exact hs t path hp

/-! ### The files take back what they yield -/

theorem content_endpointOf (s : System) (k : Kernel) (owner : ControllerId) (t : Tunable) :
    s.content k (endpointOf owner t) =
      (Decimal.ofInt32 ((s.controller owner).registry.get t) ++ "\n").toUTF8 := by
  unfold endpointOf
  split
  · rename_i ht
    rw [ht]
    rfl
  · rfl

theorem target?_endpointOf (owner : ControllerId) (t : Tunable) :
    (endpointOf owner t).target? = some (owner, t) := by
  unfold endpointOf
  split
  · rename_i ht
    rw [ht]
    rfl
  · rfl

/-- The file of a tunable yields the text of its value. -/
theorem Serves.read (hs : s.Serves owner) (hp : Path.components path = t.way) (k : Kernel) :
    s.read k path = .ok (Decimal.ofInt32 ((s.controller owner).registry.get t) ++ "\n").toUTF8 := by
  obtain ⟨node, hnode, hcontent⟩ := hs t path hp
  have hreadable : (permOf t).readable = true := by
    unfold permOf
    cases t.spec.access <;> rfl
  rw [System.read, hnode]
  simp only [hcontent, hreadable, if_true, content_endpointOf]

/-- The file of a tunable takes the text of a value that the tunable may hold. -/
theorem Serves.accepts (hs : s.Serves owner) (hp : Path.components path = t.way)
    (ht : t.spec.access = .readWrite) {v : Int32} (hv : t.spec.accepts v = true) :
    s.Accepts path (Decimal.ofInt32 v ++ "\n").toUTF8 (endpointOf owner t) owner t v where
  file := ⟨permOf t, hs t path hp, by rw [permOf, ht]; rfl⟩
  target := target?_endpointOf owner t
  access := ht
  literal := IntLiteral.read?_ofInt32 v
  range := hv

/-! ### Writing copies back -/

/-- What was read from the file of a tunable that is open to writes, the state of the machine
then, and its state when the copy is written back. -/
structure Copy (A : System) where
  tunable : Tunable
  access : tunable.spec.access = .readWrite
  path : String
  names : Path.components path = tunable.way
  readAt : Kernel
  bytes : ByteArray
  read : A.read readAt path = .ok bytes
  writeAt : Kernel

/-- Write a copy back to the path it was read from. -/
def Copy.step (c : A.Copy) : Step := ⟨c.writeAt, 0, .write c.path c.bytes⟩

/-- What the steps of a run answer, in order. -/
def replies (s : System) (steps : List Step) : List Reply :=
  s.gather (fun s st => some (s.act st).result) steps

theorem Copy.bytes_eq (hA : A.Serves a) (c : A.Copy) :
    c.bytes = (Decimal.ofInt32 ((A.controller a).registry.get c.tunable) ++ "\n").toUTF8 :=
  Except.ok.inj (c.read.symm.trans (hA.read c.names c.readAt))

section Restore

variable (hA : A.Serves a) (hr : (A.controller a).registry.Sound)

include hA hr

/-- A copy is accepted, since the range that bounds what a tunable can be is the one that
bounds what it can be set to. -/
theorem Copy.accepts (hB : B.Serves b) (c : A.Copy) :
    B.Accepts c.path c.bytes (endpointOf b c.tunable) b c.tunable
      ((A.controller a).registry.get c.tunable) := by
  rw [c.bytes_eq hA]
  exact hB.accepts c.names c.access (hr.range c.tunable)

/-- Writing one copy back. -/
theorem Copy.act_step (hB : B.Serves b) (c : A.Copy) :
    (B.act c.step).result = .written (.ok c.bytes.size) ∧ (B.act c.step).system.Serves b ∧
      ∀ id u, ((B.act c.step).system.controller id).registry.get u =
        if id = b ∧ u = c.tunable then (A.controller a).registry.get u
        else (B.controller id).registry.get u := by
  have h := c.accepts hA hr hB
  refine ⟨congrArg Reply.written (write_of_accepts h).1, hB.run [c.step], fun id u => ?_⟩
  have hvalue := (written_of_accepts (k := c.writeAt) h).values id u
  show ((B.write c.writeAt c.path c.bytes).system.controller id).registry.get u = _
  rw [hvalue]
  split
  · rename_i hu
    rw [hu.2]
  · rfl

/-- Every copy is written in full. -/
theorem replies_restore (hB : B.Serves b) (copies : List A.Copy) :
    B.replies (copies.map Copy.step) = copies.map fun c => .written (.ok c.bytes.size) := by
  induction copies generalizing B with
  | nil => rfl
  | cons c cs ih =>
    obtain ⟨hresult, hserves, -⟩ := c.act_step hA hr hB
    have hcs := ih hserves
    unfold replies at hcs ⊢
    rw [List.map_cons, gather_cons, hcs, hresult, List.map_cons]
    rfl

/-- The tunables that copies were made of get the values they were copied with, and no other
value of any controller changes. -/
theorem get_restore (hB : B.Serves b) (copies : List A.Copy) (id : ControllerId) (u : Tunable) :
    ((B.run (copies.map Copy.step)).controller id).registry.get u =
      if id = b ∧ u ∈ copies.map Copy.tunable then (A.controller a).registry.get u
      else (B.controller id).registry.get u := by
  induction copies generalizing B with
  | nil => simp
  | cons c cs ih =>
    obtain ⟨-, hserves, hvalues⟩ := c.act_step hA hr hB
    rw [List.map_cons, run_cons, ih hserves, hvalues, List.map_cons]
    by_cases hid : id = b <;> by_cases hu : u = c.tunable <;>
      by_cases hmem : u ∈ cs.map Copy.tunable <;> simp [hid, hu, hmem]

end Restore

/-- **A backup can be restored into any control plane.**  Of each of the 34 tunables that are
open to writes a copy can be made after any run of a loaded control plane, and written into
a control plane after any run of its own, in any order and as often as one likes.  Every such
write takes the whole copy, the tunables copied agree from then on, their files yield the
copies again, and no other value changes.  In particular nothing changes if the copies go back
to where they came from. -/
theorem backup_restore {s s' : System} {held held' : Set (Node Endpoint)} {k k' : Kernel}
    (hs : Forest.Reachable ⟨s.tree, held⟩) (hload : (s.load k).result = .ok a)
    {steps : List Step} (hsteps : ∀ st ∈ steps, st.action.checked = true)
    (hs' : Forest.Reachable ⟨s'.tree, held'⟩) (hload' : (s'.load k').result = .ok b)
    (steps' : List Step) :
    let A := (s.load k).system.run steps
    let B := (s'.load k').system.run steps'
    let value (s : System) (id : ControllerId) (t : Tunable) := (s.controller id).registry.get t
    (Tunable.all.filter fun t => t.spec.access = .readWrite).length = 34 ∧
      (∀ t : Tunable, Path.components ("hmbird_sched/" ++ t.path) = t.way) ∧
      (∀ (t : Tunable) (path : String) (k k' : Kernel), t.spec.access = .readWrite →
        Path.components path = t.way →
          ∃ c : A.Copy, c.tunable = t ∧ c.path = path ∧ c.readAt = k ∧ c.writeAt = k') ∧
      ∀ copies : List A.Copy,
        let restored := B.run (copies.map Copy.step)
        B.replies (copies.map Copy.step) = copies.map (fun c => .written (.ok c.bytes.size)) ∧
          ((∀ t : Tunable, t.spec.access = .readWrite → t ∈ copies.map Copy.tunable) →
            ∀ t : Tunable, t.spec.access = .readWrite → value restored b t = value A a t) ∧
          value restored b .nrRebalance = value B b .nrRebalance ∧
          value restored b .lastTotalLoad = value B b .lastTotalLoad ∧
          (∀ id t, value restored id t =
            if id = b ∧ t ∈ copies.map Copy.tunable then value A a t else value B id t) ∧
          (∀ c ∈ copies, ∀ k, restored.read k c.path = .ok c.bytes) ∧
          (A = B → a = b →
            ∀ id, (restored.controller id).registry = (B.controller id).registry) := by
  intro A B value
  have hA : A.Serves a := (serves_load hs hload).run steps
  have hB : B.Serves b := (serves_load hs' hload').run steps'
  have hsound : (A.controller a).registry.Sound := sound_run (sound_load hload) hsteps
  refine ⟨by decide, Tunable.components_path, fun t path k k' ht hp =>
    ⟨⟨t, ht, path, hp, k, _, hA.read hp k, k'⟩, rfl, rfl, rfl, rfl⟩, fun copies => ?_⟩
  intro restored
  have hvalue : ∀ id t, value restored id t =
      if id = b ∧ t ∈ copies.map Copy.tunable then value A a t else value B id t :=
    get_restore hA hsound hB copies
  -- copies are of tunables that are open to writes
  have hclosed : ∀ t : Tunable, t.spec.access = .readOnly → value restored b t = value B b t := by
    intro t ht
    rw [hvalue, if_neg]
    rintro ⟨-, hmem⟩
    obtain ⟨c, -, rfl⟩ := List.mem_map.1 hmem
    cases ht.symm.trans c.access
  refine ⟨replies_restore hA hsound hB copies, fun hall t ht => ?_, hclosed _ rfl, hclosed _ rfl,
    hvalue, fun c hc k => ?_, fun hAB hab id => Registry.ext_get fun t => ?_⟩
  · rw [hvalue, if_pos ⟨rfl, hall t ht⟩]
  · have hget := hvalue b c.tunable
    rw [if_pos ⟨rfl, List.mem_map_of_mem hc⟩] at hget
    rw [(hB.run _).read c.names k, c.bytes_eq hA]
    exact congrArg (fun v => Except.ok (Decimal.ofInt32 v ++ "\n").toUTF8) hget
  · have hsame : value A a t = value B b t := by rw [hAB, hab]
    have hget := hvalue id t
    split at hget
    · rename_i hid
      rw [hsame, ← hid.1] at hget
      exact hget
    · exact hget

/-- From a control plane in which a heartbeat and an interval were set, and whose threshold
was moved by a pass under a high load, into one with other values, the heartbeat twice. -/
theorem backup_restore_three :
    let k : Kernel := { online := .first 8, load := fun _ => { running := 20 } }
    let steps : List Step := [
      ⟨k, 1, .write "/hmbird_sched/heartbeat" "-0x80000000".toUTF8⟩,
      ⟨k, 1, .setValue .loadBalanceInterval 60000⟩,
      ⟨k, 1, .force⟩]
    let A := (({} : System).load k).system.run steps
    let B := (({} : System).load {}).system.run [⟨{}, 1, .setValue .heartbeat 7⟩]
    let value (s : System) (t : Tunable) := (s.controller 1).registry.get t
    ∃ copies : List A.Copy,
      let restored := B.run (copies.map Copy.step)
      copies.map Copy.tunable = [.heartbeat, .cpuPerformanceThreshold, .saveGov, .heartbeat] ∧
        (B.replies (copies.map Copy.step)).all Reply.accepted = true ∧
        value B .heartbeat = 7 ∧ value restored .heartbeat = -2147483648 ∧
        value B .cpuPerformanceThreshold = 70 ∧ value restored .cpuPerformanceThreshold = 95 ∧
        value restored .loadBalanceInterval = 100 := by
  intro k steps A B value
  have hreach : Forest.Reachable ⟨({} : System).tree, {.root}⟩ := Forest.Later.refl
  have hload : ∀ k, (({} : System).load k).result = .ok 1 := by
    intro k
    rcases load_cases hreach.sound k with ⟨htaken, -⟩ | ⟨-, hresult, -⟩
    · exact absurd (Namespace.free_of_children_eq_nil rfl _) htaken
    · exact hresult
  have hsteps : ∀ st ∈ steps, st.action.checked = true := by decide
  obtain ⟨-, hpath, hcopy, hrestore⟩ :=
    backup_restore hreach (hload k) hsteps hreach (hload {}) [⟨{}, 1, .setValue .heartbeat 7⟩]
  have hslashes : Path.components "/hmbird_sched/policy//cpu_performance_threshold/" =
      Tunable.cpuPerformanceThreshold.way := by
    decide +kernel
  obtain ⟨x, hx, -⟩ := hcopy .heartbeat _ k {} rfl (hpath _)
  obtain ⟨y, hy, -⟩ := hcopy .cpuPerformanceThreshold _ k {} rfl hslashes
  obtain ⟨z, hz, -⟩ := hcopy .saveGov _ k {} rfl (hpath _)
  have htunables : [x, y, z, x].map Copy.tunable =
      [.heartbeat, .cpuPerformanceThreshold, .saveGov, .heartbeat] := by
    simp only [List.map_cons, List.map_nil, hx, hy, hz]
  obtain ⟨hreplies, -, -, -, hvalue, -⟩ := hrestore [x, y, z, x]
  rw [htunables] at hvalue
  have hvalues : value A .heartbeat = -2147483648 ∧ value A .cpuPerformanceThreshold = 95 ∧
      value B .heartbeat = 7 ∧ value B .cpuPerformanceThreshold = 70 ∧
      value B .loadBalanceInterval = 100 := by
    decide +kernel
  obtain ⟨hA, hA', hB, hB', hB''⟩ := hvalues
  refine ⟨[x, y, z, x], htunables, ?_, hB, ?_, hB', ?_, ?_⟩
  · rw [hreplies]
    rfl
  · exact (hvalue 1 .heartbeat).trans ((if_pos (by decide)).trans hA)
  · exact (hvalue 1 .cpuPerformanceThreshold).trans ((if_pos (by decide)).trans hA')
  · exact (hvalue 1 .loadBalanceInterval).trans ((if_neg (by decide)).trans hB'')

end System
end CpuSteward
