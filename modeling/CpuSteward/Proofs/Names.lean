import CpuSteward.Proofs.Backup
import CpuSteward.Proofs.Resolution

/-!
# Names of tunables and paths of their files

A tunable can be asked for by name or through its file.  The name is looked up in a table, where
the path of the file counts as a name as well; the file is found by a way down the tree, for which
slashes too many do not matter.  The two agree.  What a name means is told by the last of its
components alone, for no two files have the same name, whatever directories they are in.  And
below the directory of a control plane there is nothing but the directories of the groups, the
files of the tunables and the report, so a way that ends at the file of a tunable is the way that
its path tells.

## Main definitions

* `Tunable.below` — the way to the file of a tunable from the directory of the control plane.
* `Tunable.Means` — a name of a tunable: its path, or the bare name of its file.
* `System.IsEntry` — the nodes that loading makes.

## Main results

* `Tunable.find?_eq_some_iff` — the table knows a tunable by its names and no others.
* `System.isEntry_of_way` — what is below the directory of a control plane.
* `System.names_agree` — **a file is found exactly where the path of its tunable leads, and the
  table knows the tunable by this path.**
-/

namespace CpuSteward

namespace Path

variable {s : List Char} {names : List String}

/-- Names that a text spells are neither empty nor have a slash in them. -/
theorem Spells.forall_mem (h : Spells s names) :
    ∀ name ∈ names, name ≠ "" ∧ '/' ∉ name.toList := by
  have hpart : ∀ {part : List Char}, part ≠ [] → '/' ∉ part →
      String.ofList part ≠ "" ∧ '/' ∉ (String.ofList part).toList := by
    intro part hne hs
    refine ⟨fun h => hne ?_, by rwa [String.toList_ofList]⟩
    rw [← String.toList_ofList (l := part), h]
    rfl
  induction h with
  | nil => exact List.forall_mem_nil _
  | slash _ ih => exact ih
  | last hne hs => exact List.forall_mem_singleton.2 (hpart hne hs)
  | name hne hs _ ih => exact List.forall_mem_cons.2 ⟨hpart hne hs, ih⟩

/-- To leave out the slashes too many does not change what a text spells. -/
theorem components_ofNames_components (path : String) :
    components (ofNames (components path)) = components path :=
  components_ofNames (spells_iff.2 rfl).forall_mem

end Path

namespace Tunable

variable {t u : Tunable} {str q : String}

/-- The names on the way from the directory of the control plane to the file of a tunable. -/
def below (t : Tunable) : List String := t.spec.group.directory?.toList ++ [t.name]

theorem components_path_eq_below (t : Tunable) : Path.components t.path = t.below := by
  have h := Path.components_top t.path
  rw [components_path] at h
  exact (List.cons.inj h).2.symm

theorem ofNames_below (t : Tunable) : Path.ofNames t.below = t.path := by
  unfold below path TunableSpec.path
  cases t.spec.group.directory? <;> rfl

/-- The names on a path are those on the way to the file of a tunable if and only if the
shortest spelling of them is the path of the tunable. -/
theorem components_eq_below_iff :
    Path.components q = t.below ↔ Path.ofNames (Path.components q) = t.path := by
  constructor
  · intro h
    rw [h, ofNames_below]
  · intro h
    rw [← Path.components_ofNames_components, h, components_path_eq_below]

/-! ### The names of a tunable -/

/-- A text is a name of a tunable: its path, or the bare name of its file. -/
def Means (str : String) (t : Tunable) : Prop := str = t.path ∨ str = t.name

/-- The last component of a name is the bare name. -/
theorem Means.getLast?_components (h : Means str t) :
    (Path.components str).getLast? = some t.name := by
  rcases h with rfl | rfl
  · rw [components_path_eq_below, below, List.getLast?_concat]
  · rw [Path.components_of_validName t.validName_name]
    rfl

/-- No text is a name of two tunables. -/
theorem Means.unique (ht : Means str t) (hu : Means str u) : t = u :=
  name_injective (Option.some.inj (ht.getLast?_components.symm.trans hu.getLast?_components))

/-- **The table knows a tunable by its names and no others.** -/
theorem find?_eq_some_iff : find? str = some t ↔ Means str t := by
  have hmeans : ∀ u : Tunable, (u.path == str || u.name == str) = true ↔ Means str u := by
    intro u
    rw [Bool.or_eq_true, beq_iff_eq, beq_iff_eq, Means, eq_comm, @eq_comm _ u.name]
  have hfound : ∀ u, find? str = some u → Means str u := by
    intro u hu
    have htest := List.find?_some hu
    exact (hmeans u).1 htest
  refine ⟨hfound t, fun h => ?_⟩
  have hsome : (find? str).isSome = true :=
    List.find?_isSome.2 ⟨t, t.mem_all, (hmeans t).2 h⟩
  obtain ⟨u, hu⟩ := Option.isSome_iff_exists.1 hsome
  rw [hu, h.unique (hfound u hu)]

end Tunable

namespace System

variable {s : System} {k : Kernel} {owner : ControllerId} {tree : Namespace Endpoint}
  {held held' : Set (Node Endpoint)} {names : List String} {x : Node Endpoint} {n : Nat}
  {perm : Perm} {endpoint : Endpoint} {o : ControllerId} {t : Tunable} {q : String}

/-! ### What is below the directory of a control plane -/

/-- The nodes that loading makes: directories of groups, files of tunables, and the report. -/
def IsEntry (owner : ControllerId) (n : Nat) (x : Node Endpoint) : Prop :=
  (∃ g, x = groupNode n g) ∨ (∃ t, x = tunableNode owner n t) ∨ x = reportNode owner n

theorem isEntry_of_mem_groupChildren {g : TunableGroup} (h : x ∈ groupChildren owner n g) :
    IsEntry owner n x := by
  have hfiles : ∀ g, x ∈ groupFiles owner n g → IsEntry owner n x := by
    intro g hx
    obtain ⟨t, -, rfl⟩ := List.mem_map.1 hx
    exact Or.inr (Or.inl ⟨t, rfl⟩)
  cases g with
  | root =>
    rcases List.mem_append.1 h with h | h
    · rcases List.mem_append.1 h with h | h
      · have hg : ∃ g ∈ [TunableGroup.loadTracking, .frequency, .policy], groupNode n g = x :=
          List.mem_map.1 h
        obtain ⟨g, -, rfl⟩ := hg
        exact Or.inl ⟨g, rfl⟩
      · exact hfiles .root h
    · exact Or.inr (Or.inr (List.mem_singleton.1 h))
  | loadTracking => exact hfiles .loadTracking h
  | frequency => exact hfiles .frequency h
  | policy => exact hfiles .policy h

/-- Below the directory of a control plane there are only nodes that loading made. -/
theorem isEntry_of_way (hs : Forest.Sound ⟨tree, held⟩)
    (hl : Forest.Sound ⟨laid owner tree, held'⟩)
    (htop : groupNode tree.nextInode .root ∈ held')
    (h : (laid owner tree).Way (groupNode tree.nextInode .root) names x) :
    IsEntry owner tree.nextInode x := by
  induction h with
  | start => exact Or.inl ⟨.root, rfl⟩
  | step hway hc ih =>
    rename_i b c
    have hb := hl.held_of_way htop hway
    -- nothing is below a file
    have hfile : b.isDirectory = false → IsEntry owner tree.nextInode c := by
      intro hfile
      have hmem : c ∈ (laid owner tree).children b.inode := hc
      rw [hl.files hb hfile] at hmem
      cases hmem
    rcases ih with ⟨g, rfl⟩ | ⟨t, rfl⟩ | rfl
    · refine isEntry_of_mem_groupChildren (g := g) ?_
      rw [← children_laid_group hs]
      exact hc
    · exact hfile rfl
    · exact hfile rfl

/-- Of these nodes only the files of the tunables stand for one, each for its own. -/
theorem IsEntry.eq_tunableNode (h : IsEntry owner n x) (hx : x.content = .file perm endpoint)
    (ht : endpoint.target? = some (o, t)) : o = owner ∧ x = tunableNode owner n t := by
  rcases h with ⟨g, rfl⟩ | ⟨u, rfl⟩ | rfl
  · cases g <;> cases hx
  · cases hx
    cases (target?_endpointOf owner u).symm.trans ht
    exact ⟨rfl, rfl⟩
  · cases hx
    cases ht

/-- A path that leads to the file of a tunable names what is on the way to it. -/
theorem components_eq_below_of_resolve? (hs : Forest.Sound ⟨tree, held⟩)
    (hl : Forest.Sound ⟨laid owner tree, held'⟩) (hf : tree.Free .root Identity.directory)
    (hx : (laid owner tree).resolve? ("hmbird_sched/" ++ q) = some x)
    (hfile : x.content = .file perm endpoint) (ht : endpoint.target? = some (o, t)) :
    o = owner ∧ Path.components q = t.below := by
  have htop := child?_laid (hs.bound hs.root) hf owner
  have hbelow : (laid owner tree).Way (groupNode tree.nextInode .root) (Path.components q) x := by
    rw [Namespace.resolve?, Path.components_top, Namespace.walk?_cons, htop, Option.bind_some] at hx
    exact hl.walk?_eq_some_iff.1 hx
  have hheld := hl.listed (Namespace.mem_of_child? htop)
  obtain ⟨ho, rfl⟩ := (isEntry_of_way hs hl hheld hbelow).eq_tunableNode hfile ht
  -- the path of the tunable leads to this file as well, and one way only leads there
  have hpath := resolve?_laid hs hl hf t.components_path
  have hway := hl.way_unique (hl.resolve?_eq_some_iff.1 hx) (hl.resolve?_eq_some_iff.1 hpath)
  rw [Path.components_top, t.components_path] at hway
  exact ⟨ho, (List.cons.inj hway).2⟩

/-- A path below the directory of a new control plane leads to a file that stands for a tunable
exactly if its names are those on the way to the file of the tunable. -/
theorem targetAt?_load (hr : Forest.Reachable ⟨s.tree, held⟩)
    (h : (s.load k).result = .ok owner) :
    (s.load k).system.targetAt? ("hmbird_sched/" ++ q) = some (o, t) ↔
      o = owner ∧ Path.components q = t.below := by
  constructor
  · intro htarget
    have hs := hr.sound
    rcases load_cases hs k with ⟨-, herror, -⟩ | ⟨hf, hresult, htree⟩
    · cases h.symm.trans herror
    cases hresult.symm.trans h
    obtain ⟨g, hg, hgtree⟩ := later_load hs.root s k
    have hl : Forest.Sound ⟨laid s.nextController s.tree, g.held⟩ := by
      rw [← htree, hgtree]
      exact hs.later hg
    rw [targetAt?, htree, Option.bind_eq_some_iff] at htarget
    obtain ⟨x, hx, hcontent⟩ := htarget
    split at hcontent
    · cases hcontent
    rename_i perm endpoint hfile
    exact components_eq_below_of_resolve? hs hl hf hx hfile hcontent
  · rintro ⟨rfl, hq⟩
    have hway : Path.components ("hmbird_sched/" ++ q) = t.way := by
      rw [Path.components_top, hq]
      rfl
    rw [targetAt?_of_leads (serves_load hr h t _ hway), target?_endpointOf]

/-- **The two ways to name a tunable agree.**  Below the directory of a control plane that was
just loaded, whatever is done to the controllers after that, a path leads to the file of a tunable
exactly if it is the path of the tunable up to slashes too many; all such files are of this
control plane.  Without these slashes the path is a name of the tunable in the table, and so is
its last component.  The table knows a tunable by its path, by the bare name of its file and by
nothing else, and no text is a name of two tunables.  What is read from the file is the text of
the value that the table has under the path. -/
theorem names_agree (hr : Forest.Reachable ⟨s.tree, held⟩) (h : (s.load k).result = .ok owner)
    (steps : List Step) :
    let after := (s.load k).system.run steps
    (∀ (q : String) (o : ControllerId) (t : Tunable),
        (after.targetAt? ("hmbird_sched/" ++ q) = some (o, t) ↔
          o = owner ∧ Path.ofNames (Path.components q) = t.path) ∧
        (Path.ofNames (Path.components q) = t.path →
          Tunable.find? (Path.ofNames (Path.components q)) = some t ∧
            ∃ last, (Path.components q).getLast? = some last ∧ Tunable.find? last = some t)) ∧
      (∀ (str : String) (t : Tunable),
        Tunable.find? str = some t ↔ str = t.path ∨ str = t.name) ∧
      (∀ (str : String) (t u : Tunable),
        str = t.path ∨ str = t.name → str = u.path ∨ str = u.name → t = u) ∧
      ∀ (t : Tunable) (now : Kernel), ∃ v,
        (after.controller owner).registry.getByName? t.path = some v ∧
          after.read now ("hmbird_sched/" ++ t.path) =
            .ok (Decimal.ofInt32 v ++ "\n").toUTF8 := by
  intro after
  have htarget : ∀ path, after.targetAt? path = (s.load k).system.targetAt? path := by
    intro path
    rw [targetAt?, targetAt?, tree_run]
  refine ⟨fun q o t => ⟨?_, fun hq => ⟨?_, t.name, ?_, ?_⟩⟩,
    fun str t => Tunable.find?_eq_some_iff, fun str t u ht hu => Tunable.Means.unique ht hu,
    fun t now => ⟨(after.controller owner).registry.get t, ?_, ?_⟩⟩
  · rw [htarget, targetAt?_load hr h, Tunable.components_eq_below_iff]
  · exact Tunable.find?_eq_some_iff.2 (Or.inl hq)
  · rw [Tunable.components_eq_below_iff.2 hq, Tunable.below, List.getLast?_concat]
  · exact Tunable.find?_eq_some_iff.2 (Or.inr rfl)
  · rw [Registry.getByName?, Tunable.find?_eq_some_iff.2 (Or.inl rfl)]
    rfl
  · exact ((serves_load hr h).run steps).read t.components_path now

/-- A path with slashes too many, and a value that is written and read back. -/
theorem names_agree_period :
    let s : System := {}
    let after := (s.load {}).system.run [⟨{}, 1, .setValue .policyTickMs 40⟩]
    Forest.Reachable ⟨s.tree, {.root}⟩ ∧ (s.load {}).result = .ok 1 ∧
      after.targetAt? "hmbird_sched//policy//policy_tick_ms/" = some (1, .policyTickMs) ∧
      after.targetAt? "hmbird_sched/policy_tick_ms" ≠ some (1, .policyTickMs) ∧
      Tunable.find? "policy_tick_ms" = some .policyTickMs ∧
      after.read {} "hmbird_sched/policy/policy_tick_ms" = .ok "40\n".toUTF8 := by
  intro s after
  have hreach : Forest.Reachable ⟨s.tree, {.root}⟩ := .refl
  have hload : (s.load {}).result = .ok 1 := by decide +kernel
  have hvalue : (after.controller 1).registry.getByName? Tunable.policyTickMs.path = some 40 := by
    decide +kernel
  obtain ⟨hpaths, -, -, hread⟩ := names_agree hreach hload
    [⟨{}, 1, .setValue .policyTickMs 40⟩]
  obtain ⟨hiff, hfind⟩ := hpaths "/policy//policy_tick_ms/" 1 .policyTickMs
  obtain ⟨v, hv, hbytes⟩ := hread .policyTickMs {}
  cases hvalue.symm.trans hv
  have hpath : Path.ofNames (Path.components "/policy//policy_tick_ms/") =
      Tunable.policyTickMs.path := by
    decide +kernel
  obtain ⟨-, last, hlast, hbare⟩ := hfind hpath
  have hname : (Path.components "/policy//policy_tick_ms/").getLast? = some "policy_tick_ms" := by
    decide +kernel
  cases hname.symm.trans hlast
  refine ⟨hreach, hload, hiff.2 ⟨rfl, hpath⟩, fun hbad => ?_, hbare, hbytes⟩
  have hnot := ((hpaths "policy_tick_ms" 1 .policyTickMs).1.1 hbad).2
  exact absurd hnot (by decide +kernel)

end System
end CpuSteward
