import CpuSteward.Proofs.GuardedText
import Mathlib.Data.Set.Card

/-!
# Saved governors

A slot keeps a name in sixteen bytes: as much of it as fits, in whole characters, and NULs
behind it.  What is read back is the part in front of the first NUL.  A byte of NUL is a
character of its own, and no other character has one, so this part is again whole
characters, and a name that was recorded is never unreadable.

A record goes to the slot of its CPU and to no other, and there is at most one for each CPU,
so recording again overwrites a name, and a policy that has nothing to record keeps its old
one.

## Main definitions

* `NameSlot.IsFront` — the front of a name that a slot has room for.
* `NameSlot.upToNul?` — what is read back of a text.
* `NameSlot.Holds` — a slot has the bytes of a text and NULs behind them.
* `Kernel.Records` — what the kernel has to record, CPU by CPU.
* `GovernorTable.Reached` — the tables that recording and forgetting lead to.

## Main results

* `NameSlot.Holds.name?` — a slot that holds a text is read back up to the first NUL.
* `GovernorTable.Reached.holds` — every slot holds a text.
* `GovernorTable.get?_saveAll` — what is read of each CPU after recording.
* `GovernorTable.saved_exact` — **a recorded name is read back as far as it was kept.**
-/

namespace CpuSteward

namespace NameSlot

variable {s : NameSlot} {text : List Char} {name front : String}

/-- `front` is the longest front of `name` that takes at most 15 bytes. -/
structure IsFront (name front : String) : Prop where
  /-- It ends between two characters of the name. -/
  begins : front.toList <+: name.toList
  size_le : front.utf8ByteSize ≤ 15
  longest : ∀ t : String, t.toList <+: name.toList → t.utf8ByteSize ≤ 15 →
    t.toList <+: front.toList

/-- The part of a text in front of its first NUL; an empty one is none. -/
def upToNul? (text : String) : Option String :=
  if text.toList.takeWhile (· ≠ '\x00') = [] then none
  else some (.ofList (text.toList.takeWhile (· ≠ '\x00')))

/-- A slot has the bytes of a text, and NULs behind them up to its end, one at least. -/
def Holds (s : NameSlot) (text : List Char) : Prop :=
  ∃ rest, s.bytes.toList = text.flatMap String.utf8EncodeChar ++ List.replicate (rest + 1) 0

/-! ### What is kept of a name -/

theorem isFront_cut (name : String) : IsFront name (cut name) where
  begins := by
    rw [cut, String.toList_ofList]
    exact fit_prefix _ _
  size_le := Nat.le_of_lt_succ (utf8ByteSize_cut_lt name)
  longest t ht hsize := by
    rw [cut, String.toList_ofList]
    refine Guarded.prefix_fit ht ?_
    rwa [Guarded.size_eq_utf8ByteSize, String.ofList_toList]

theorem holds_empty : empty.Holds [] := ⟨15, Vector.toList_replicate⟩

/-- A list that is read past its end, with a filling there. -/
theorem ofFn_getD {α : Type} {n : Nat} {l : List α} (d : α) (h : l.length ≤ n) :
    List.ofFn (fun i : Fin n => l.getD i d) = l ++ List.replicate (n - l.length) d := by
  refine List.ext_getElem ?_ fun i hi hi' => ?_
  · rw [List.length_ofFn, List.length_append, List.length_replicate]
    omega
  · rw [List.getElem_ofFn, List.getElem_append]
    split
    · rename_i hlt
      exact List.getD_eq_getElem l d hlt
    · rename_i hge
      rw [List.getElem_replicate]
      exact List.getD_eq_default l d (Nat.not_lt.1 hge)

theorem holds_ofName (name : String) : (ofName name).Holds (cut name).toList := by
  have hbytes := IntLiteral.toList_toUTF8 (cut name)
  have hlength : (cut name).toUTF8.data.toList.length < size := utf8ByteSize_cut_lt name
  refine ⟨size - (cut name).toUTF8.data.toList.length - 1, ?_⟩
  have hlist : (ofName name).bytes.toList =
      List.ofFn fun i : Fin size => (cut name).toUTF8.data.toList.getD i 0 := by
    rw [ofName, Vector.toList_ofFn]
    congr 1
    funext i
    rw [List.getD_eq_getElem?_getD, Array.getElem?_toList, ← Array.getD_eq_getD_getElem?]
  rw [hlist, ofFn_getD 0 (Nat.le_of_lt hlength), ← hbytes, Nat.sub_add_cancel (by omega)]

/-! ### What is read back -/

/-- No character but NUL has a byte of NUL. -/
theorem zero_not_mem_utf8EncodeChar {c : Char} (h : c ≠ '\x00') :
    0 ∉ String.utf8EncodeChar c := by
  intro hmem
  by_cases hsize : c.utf8Size = 1
  · have hhead : (String.utf8EncodeChar c).head? = some 0 := by
      rw [String.utf8EncodeChar_eq_singleton hsize] at hmem ⊢
      rw [List.mem_singleton.1 hmem, List.head?_cons]
    exact h (Char.toNat_inj.1 ((Guarded.head?_utf8EncodeChar_eq_some_iff (by decide)).1 hhead))
  · have hlarge := Guarded.le_toNat_of_mem hsize hmem
    exact absurd hlarge (by decide)

/-- The bytes in front of the first NUL are those of the characters in front of it. -/
theorem takeWhile_flatMap (text : List Char) (rest : Nat) :
    (text.flatMap String.utf8EncodeChar ++ List.replicate (rest + 1) 0).takeWhile (· ≠ 0) =
      (text.takeWhile (· ≠ '\x00')).flatMap String.utf8EncodeChar := by
  induction text with
  | nil => simp
  | cons c text ih =>
    by_cases hc : c = '\x00'
    · have hbyte : String.utf8EncodeChar '\x00' = [0] := by decide
      subst hc
      simp [hbyte]
    · have hbytes : ∀ b ∈ String.utf8EncodeChar c, decide (b ≠ 0) = true := fun b hb =>
        decide_eq_true fun hzero => zero_not_mem_utf8EncodeChar hc (hzero ▸ hb)
      have htake : (c :: text).takeWhile (· ≠ '\x00') = c :: text.takeWhile (· ≠ '\x00') :=
        List.takeWhile_cons_of_pos (decide_eq_true hc)
      rw [List.flatMap_cons, List.append_assoc, List.takeWhile_append_of_pos hbytes, ih, htake,
        List.flatMap_cons]

theorem Holds.takeWhile_bytes (h : s.Holds text) :
    (s.bytes.toList.takeWhile (· ≠ 0)).toByteArray =
      (String.ofList (text.takeWhile (· ≠ '\x00'))).toByteArray := by
  obtain ⟨rest, hbytes⟩ := h
  rw [hbytes, takeWhile_flatMap, String.toByteArray_ofList, List.utf8Encode.eq_1]

/-- What is in front of the first NUL of a slot is a text. -/
theorem Holds.isValidUTF8 (h : s.Holds text) :
    (s.bytes.toList.takeWhile (· ≠ 0)).toByteArray.IsValidUTF8 := by
  rw [h.takeWhile_bytes]
  exact String.isValidUTF8 _

/-- A slot that holds a text is read back up to the first NUL. -/
theorem Holds.name? (h : s.Holds text) : s.name? = upToNul? (.ofList text) := by
  have hbytes := h.takeWhile_bytes
  unfold NameSlot.name? upToNul?
  dsimp only
  rw [hbytes, String.toList_ofList]
  obtain ⟨rest, hlist⟩ := h
  rw [hlist, takeWhile_flatMap]
  cases hfront : text.takeWhile (· ≠ '\x00') with
  | nil => rfl
  | cons c front =>
    have hne : ((c :: front).flatMap String.utf8EncodeChar).isEmpty = false := by
      rw [List.isEmpty_eq_false_iff, ← List.length_pos_iff, List.flatMap_cons, List.length_append,
        String.length_utf8EncodeChar]
      exact Nat.add_pos_left c.utf8Size_pos _
    rw [hne, if_neg Bool.false_ne_true, if_neg (List.cons_ne_nil c front), String.fromUTF8?,
      dif_pos (String.isValidUTF8 _)]
    rfl

/-- A slot is closed by a NUL. -/
theorem Holds.getElem_last (h : s.Holds text) : s.bytes[15] = 0 := by
  obtain ⟨rest, hbytes⟩ := h
  have hlast : s.bytes.toList.getLast? = some 0 := by
    rw [hbytes, List.replicate_succ', ← List.append_assoc, List.getLast?_concat]
  rw [List.getLast?_eq_getElem?, Vector.length_toList] at hlast
  simpa using hlast

/-- Nothing is read back of a slot exactly if it begins with a NUL. -/
theorem Holds.name?_eq_none_iff (h : s.Holds text) : s.name? = none ↔ s.bytes[0] = 0 := by
  have hcons : s.bytes.toList = s.bytes[0] :: s.bytes.toList.tail := by
    rw [← List.cons_head_tail (l := s.bytes.toList) (by
      rw [← List.length_pos_iff, Vector.length_toList]
      decide)]
    simp [List.head_eq_getElem]
  have hempty : (s.bytes.toList.takeWhile (· ≠ 0)).isEmpty = true ↔ s.bytes[0] = 0 := by
    rw [hcons]
    by_cases hzero : s.bytes[0] = 0
    · simp [hzero]
    · simp [hzero]
  unfold NameSlot.name?
  dsimp only
  split
  · rename_i hnone
    exact iff_of_true rfl (hempty.1 hnone)
  · rename_i hsome
    rw [String.fromUTF8?, dif_pos h.isValidUTF8]
    exact iff_of_false (Option.some_ne_none _) (mt hempty.2 hsome)

end NameSlot

namespace Kernel

variable {k : Kernel} {c : Nat} {name : String}

/-- A CPU is present and the first one of its policy, and the governor of the policy has the
name. -/
def Records (k : Kernel) (c : Nat) (name : String) : Prop :=
  c ∈ k.present ∧ k.policyCpu c = some c ∧ k.governor c = some name

theorem saved_mem_policyRecords : .saved c name ∈ k.policyRecords ↔ k.Records c name := by
  unfold policyRecords Records
  simp only [List.mem_map, List.mem_filter, CpuMask.mem_toList, beq_iff_eq]
  constructor
  · rintro ⟨d, ⟨hpresent, hpolicy⟩, hrecord⟩
    cases hg : k.governor d with
    | none => rw [hg] at hrecord; cases hrecord
    | some name' =>
      rw [hg] at hrecord
      cases hrecord
      exact ⟨hpresent, hpolicy, hg⟩
  · rintro ⟨hpresent, hpolicy, hg⟩
    exact ⟨c, ⟨hpresent, hpolicy⟩, by rw [hg]⟩

/-- The number of names to record is the number of CPUs that have one. -/
theorem governorCount_eq (k : Kernel) :
    k.governorCount = {c | ∃ name, k.Records c name}.ncard := by
  have hnodup : ((k.present.toList.filter fun c => k.policyCpu c == some c).filter
      fun c => (k.governor c).isSome).Nodup :=
    ((k.present.pairwise_toList.imp fun h => Nat.ne_of_lt h).filter _).filter _
  have hset : {c | ∃ name, k.Records c name} = ((k.present.toList.filter
      fun c => k.policyCpu c == some c).filter fun c => (k.governor c).isSome).toFinset := by
    ext c
    simp [Records, CpuMask.mem_toList, Option.isSome_iff_exists, and_comm]
  rw [hset, Set.ncard_coe_finset, List.toFinset_card_of_nodup hnodup,
    ← List.countP_eq_length_filter, governorCount, policyRecords, List.countP_map]
  refine List.countP_congr fun c _ => ?_
  rw [Function.comp_apply]
  cases k.governor c <;> simp [PolicyRecord.isSaved]

end Kernel

namespace GovernorTable

variable {g : GovernorTable} {k : Kernel} {c : Nat} {name : String} {l : List PolicyRecord}

/-- The tables that recording and forgetting lead to, from the one without names on. -/
inductive Reached : GovernorTable → Prop where
  | empty : Reached .empty
  | saveAll {g : GovernorTable} (h : Reached g) (k : Kernel) : Reached (g.saveAll k)
  | clear {g : GovernorTable} (h : Reached g) : Reached g.clear

/-! ### One record -/

theorem get?_keep_saved (g : GovernorTable) (c cpu : Nat) (name : String) :
    (g.keep (.saved cpu name)).get? c =
      if cpu = c ∧ c < maxCpus then NameSlot.upToNul? (NameSlot.cut name) else g.get? c := by
  rw [get?, keep, Vector.getElem?_setIfInBounds]
  by_cases hc : cpu = c
  · subst hc
    by_cases hlt : cpu < maxCpus
    · have hname := (NameSlot.holds_ofName name).name?
      rw [String.ofList_toList] at hname
      rw [if_pos rfl, if_pos hlt, if_pos ⟨rfl, hlt⟩, Option.bind_some, hname]
    · rw [if_pos rfl, if_neg hlt, if_neg fun h => hlt h.2, get?,
        Vector.getElem?_eq_none (Nat.not_lt.1 hlt)]
  · rw [if_neg hc, if_neg fun h => hc h.1, get?]

theorem get?_keep_of_ne {record : PolicyRecord} (h : ∀ name, record ≠ .saved c name) :
    (g.keep record).get? c = g.get? c := by
  cases record with
  | missing cpu => rfl
  | saved cpu name =>
    have hne : ¬(cpu = c ∧ c < maxCpus) := fun hc => h name (hc.1 ▸ rfl)
    rw [get?_keep_saved, if_neg hne]

/-! ### Records in a row -/

theorem get?_foldl_of_not_mem (h : ∀ name, .saved c name ∉ l) :
    (l.foldl keep g).get? c = g.get? c := by
  induction l generalizing g with
  | nil => rfl
  | cons record l ih =>
    rw [List.foldl_cons, ih fun name hmem => h name (List.mem_cons_of_mem _ hmem),
      get?_keep_of_ne fun name he => h name (he ▸ List.mem_cons_self)]

/-- Where all records of a CPU have one name, its slot has that name in the end. -/
theorem get?_foldl_of_mem (hc : c < maxCpus) (h : .saved c name ∈ l)
    (hone : ∀ name', .saved c name' ∈ l → name' = name) :
    (l.foldl keep g).get? c = NameSlot.upToNul? (NameSlot.cut name) := by
  induction l generalizing g with
  | nil => cases h
  | cons record l ih =>
    rw [List.foldl_cons]
    by_cases hl : PolicyRecord.saved c name ∈ l
    · exact ih hl fun name' hmem => hone name' (List.mem_cons_of_mem _ hmem)
    · -- no later record has another name for the CPU, so the first one stays
      have hrest : ∀ name', PolicyRecord.saved c name' ∉ l := fun name' hmem =>
        hl (hone name' (List.mem_cons_of_mem _ hmem) ▸ hmem)
      rw [get?_foldl_of_not_mem hrest]
      rcases List.mem_cons.1 h with rfl | hmem
      · rw [get?_keep_saved, if_pos ⟨rfl, hc⟩]
      · exact absurd hmem hl

/-- After recording, a CPU that had something to record has its name, as far as it was kept. -/
theorem get?_saveAll (g : GovernorTable) (h : k.Records c name) :
    (g.saveAll k).get? c = NameSlot.upToNul? (NameSlot.cut name) := by
  refine get?_foldl_of_mem (CpuMask.lt_of_mem h.1) (Kernel.saved_mem_policyRecords.2 h)
    fun name' hmem => ?_
  obtain ⟨-, -, hgovernor⟩ := Kernel.saved_mem_policyRecords.1 hmem
  exact Option.some.inj (hgovernor.symm.trans h.2.2)

/-- Every other CPU has what it had. -/
theorem get?_saveAll_of_not (g : GovernorTable) (h : ∀ name, ¬k.Records c name) :
    (g.saveAll k).get? c = g.get? c :=
  get?_foldl_of_not_mem fun name hmem => h name (Kernel.saved_mem_policyRecords.1 hmem)

/-! ### Every slot holds a text -/

/-- Every slot holds a text. -/
def Sound (g : GovernorTable) : Prop := ∀ (c : Nat) (h : c < maxCpus), ∃ text, g.slots[c].Holds text

theorem sound_empty : empty.Sound := fun c h =>
  ⟨[], by rw [empty, Vector.getElem_replicate h]; exact NameSlot.holds_empty⟩

theorem Sound.keep (hg : g.Sound) (record : PolicyRecord) : (g.keep record).Sound := by
  cases record with
  | missing cpu => exact hg
  | saved cpu name =>
    intro c h
    rw [GovernorTable.keep]
    dsimp only
    rw [Vector.getElem_setIfInBounds]
    split
    · exact ⟨_, NameSlot.holds_ofName name⟩
    · exact hg c h

theorem Sound.foldl (hg : g.Sound) (l : List PolicyRecord) :
    (l.foldl GovernorTable.keep g).Sound := by
  induction l generalizing g with
  | nil => exact hg
  | cons record l ih => exact ih (hg.keep record)

/-- Whatever was recorded and forgotten, every slot holds a text. -/
theorem Reached.sound (h : g.Reached) : g.Sound := by
  induction h with
  | empty => exact sound_empty
  | saveAll _ k ih => exact ih.foldl k.policyRecords
  | clear _ _ => exact sound_empty

theorem get?_of_lt (g : GovernorTable) (h : c < maxCpus) : g.get? c = g.slots[c].name? := by
  rw [get?, Vector.getElem?_eq_getElem h, Option.bind_some]

theorem get?_of_le (g : GovernorTable) (h : maxCpus ≤ c) : g.get? c = none := by
  rw [get?, Vector.getElem?_eq_none h, Option.bind_none]

theorem get?_clear (g : GovernorTable) (c : Nat) : g.clear.get? c = none := by
  rcases Nat.lt_or_ge c maxCpus with h | h
  · rw [get?_of_lt _ h, clear, empty, Vector.getElem_replicate h, NameSlot.holds_empty.name?]
    rfl
  · exact get?_of_le _ h

/-- **A recorded name is read back as far as it was kept.**  Whatever was recorded and
forgotten before, recording gives each CPU that has something to record the longest front of
the name that fits into a slot, of which the part up to the first NUL is read back, if there
is any; every other CPU keeps what it had, and the count is that of the former.  In each
table every slot is closed by a NUL and has a text in front of its first NUL, so a CPU has no
name only if its slot begins with a NUL; a CPU that does not exist has none. -/
theorem saved_exact (hg : g.Reached) (k : Kernel) :
    (∀ c name, k.Records c name → ∃ front, NameSlot.IsFront name front ∧
        (g.saveAll k).get? c = NameSlot.upToNul? front) ∧
      (∀ c, (∀ name, ¬k.Records c name) → (g.saveAll k).get? c = g.get? c) ∧
      k.governorCount = {c | ∃ name, k.Records c name}.ncard ∧
      (∀ (c : Nat) (h : c < maxCpus),
        let bytes := g.slots[c].bytes
        bytes[15] = 0 ∧ (bytes.toList.takeWhile (· ≠ 0)).toByteArray.IsValidUTF8 ∧
          (g.get? c = none ↔ bytes[0] = 0)) ∧
      (∀ c, maxCpus ≤ c → g.get? c = none) ∧
      ∀ c, g.clear.get? c = none := by
  refine ⟨fun c name h => ⟨_, NameSlot.isFront_cut name, get?_saveAll g h⟩,
    fun c h => get?_saveAll_of_not g h, k.governorCount_eq, fun c h => ?_,
    fun c h => get?_of_le g h, get?_clear g⟩
  intro bytes
  obtain ⟨text, htext⟩ := hg.sound c h
  rw [get?_of_lt g h]
  exact ⟨htext.getElem_last, htext.isValidUTF8, htext.name?_eq_none_iff⟩

/-- A name of 16 bytes loses its last character, which has two of them; a name is cut at its
NUL and overwrites a longer one; and the governor of the first CPU is not that of the second. -/
theorem saved_exact_between_characters :
    let named (first last : String) : Kernel :=
      { present := .ofList [0, 1, 2], policyCpu := fun c => some (if c = 1 then 0 else c),
        governor := fun c => some (if c = 0 then first else last) }
    let g := GovernorTable.empty.saveAll (named "ondemand" "conservative")
    let k := named "schedutil-zélé" "on\x00demand"
    (∃ front, NameSlot.IsFront "schedutil-zélé" front ∧
        (g.saveAll k).get? 0 = NameSlot.upToNul? front) ∧
      (g.saveAll k).get? 0 = some "schedutil-zél" ∧ (g.saveAll k).get? 2 = some "on" ∧
      (g.saveAll k).get? 1 = g.get? 1 ∧ g.get? 1 = none ∧ k.governorCount = 2 := by
  intro named g k
  have hg : g.Reached := Reached.empty.saveAll _
  obtain ⟨hnew, hold, -⟩ := saved_exact hg k
  have h0 : k.Records 0 "schedutil-zélé" := ⟨by decide, rfl, rfl⟩
  have h2 : k.Records 2 "on\x00demand" := ⟨by decide, rfl, rfl⟩
  have h1 : ∀ name, ¬k.Records 1 name := fun name h => absurd h.2.1 (by decide)
  have hfirst : g.get? 1 = none :=
    (get?_saveAll_of_not _ fun name h => absurd h.2.1 (by decide)).trans (get?_clear g 1)
  refine ⟨hnew 0 _ h0, ?_, ?_, hold 1 h1, hfirst, by decide +kernel⟩
  · rw [get?_saveAll g h0]
    decide +kernel
  · rw [get?_saveAll g h2]
    decide +kernel

end GovernorTable
end CpuSteward
