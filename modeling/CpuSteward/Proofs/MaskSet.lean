import CpuSteward.Proofs.Guarded
import Mathlib.Algebra.BigOperators.Group.Finset.Basic

/-!
# Masks as sets

A mask is made and changed by a handful of operations, and each of them has a counterpart on
sets of numbers.  After any of them the members of the mask are those of the set, as far as
they name a CPU, so the same holds after any number of them.  On words the operations shift,
combine and take off bits; none of these steps fails, and they lead to the word of the mask.

## Main definitions

* `CpuMask.toFinset` — the members of a mask as a finite set.
* `CpuMask.Change` — the operations, on masks, on words and on sets.
* `CpuMask.made`, `CpuMask.reference` — the mask and the set that a list of them leads to.

## Main results

* `mod_two_pow_eq_sum` — the low bits of a number as a sum of powers of two.
* `CpuMask.toFinset_onMask` — one operation, and the set that goes with it.
* `CpuMask.made_exact` — **a mask is the set that goes with it, in all that can be asked of it.**
-/

namespace CpuSteward

/-- The low bits of a number as a sum of powers of two. -/
theorem mod_two_pow_eq_sum (x n : ℕ) :
    x % 2 ^ n = ∑ c ∈ Finset.range n with x.testBit c, 2 ^ c := by
  rw [Finset.sum_filter]
  induction n with
  | zero => simp [Nat.mod_one]
  | succ n ih =>
    rw [Finset.sum_range_succ, ← ih, Nat.mod_pow_succ, Nat.testBit_eq_decide_div_mod_eq]
    rcases Nat.mod_two_eq_zero_or_one (x / 2 ^ n) with h | h <;> simp [h]

namespace CpuMask

variable {m m' : CpuMask} {cpu n : Nat} {w : UInt64}

/-! ### The set of a mask -/

theorem eq_of_mem_iff (h : ∀ cpu, cpu ∈ m ↔ cpu ∈ m') : m = m' := by
  ext1
  refine BitVec.eq_of_getLsbD_eq fun cpu hcpu => Bool.eq_iff_iff.2 ?_
  simpa [mem_iff, hcpu] using h cpu

/-- The members as a finite set. -/
def toFinset (m : CpuMask) : Finset Nat := m.toList.toFinset

@[simp] theorem mem_toFinset : cpu ∈ m.toFinset ↔ cpu ∈ m := by
  rw [toFinset, List.mem_toFinset, mem_toList]

theorem toFinset_inj : m.toFinset = m'.toFinset ↔ m = m' :=
  ⟨fun h => eq_of_mem_iff fun cpu => by rw [← mem_toFinset, h, mem_toFinset], congrArg toFinset⟩

theorem mem_first : cpu ∈ first n ↔ cpu < n ∧ cpu < maxCpus := by
  rw [mem_iff, first]
  simp

theorem mem_ofWord : cpu ∈ ofWord w ↔ cpu < maxCpus ∧ w.toBitVec.getLsbD cpu = true := by
  rw [mem_iff, ofWord]
  simp

/-! ### The word of a mask -/

theorem ofWord_toWord (m : CpuMask) : ofWord m.toWord = m := by
  refine eq_of_mem_iff fun cpu => ?_
  rw [mem_ofWord, Guarded.getLsbD_toWord, contains_eq_true, and_iff_right_of_imp lt_of_mem]

theorem toWord_inj : m.toWord = m'.toWord ↔ m = m' :=
  ⟨fun h => by rw [← ofWord_toWord m, h, ofWord_toWord], congrArg toWord⟩

theorem toNat_toWord_lt (m : CpuMask) : m.toWord.toNat < 2 ^ maxCpus := by
  rw [toWord, UInt64.toNat_ofBitVec, BitVec.toNat_setWidth_of_le (by decide)]
  exact m.bits.isLt

/-- A mask as a number: every member counts for its power of two. -/
theorem toNat_toWord (m : CpuMask) : m.toWord.toNat = ∑ c ∈ m.toFinset, 2 ^ c := by
  have hmembers : {c ∈ Finset.range maxCpus | m.toWord.toNat.testBit c} = m.toFinset := by
    ext cpu
    have hbit : m.toWord.toNat.testBit cpu = m.contains cpu := Guarded.getLsbD_toWord m cpu
    rw [Finset.mem_filter, Finset.mem_range, hbit, contains_eq_true, mem_toFinset,
      and_iff_right_of_imp lt_of_mem]
  rw [← hmembers, ← mod_two_pow_eq_sum, Nat.mod_eq_of_lt (toNat_toWord_lt m)]

/-- The bits of the word are as many as those of the mask. -/
theorem toNat_cpop_toWord (m : CpuMask) : m.toWord.toBitVec.cpop.toNat = m.card := by
  rw [toWord, UInt64.toBitVec_ofBitVec, card, BitVec.toNat_cpop_setWidth_eq_of_le (by decide)]

theorem isEmpty_eq_true_iff : m.isEmpty = true ↔ m.toList = [] := by
  rw [← Bool.not_eq_false, isEmpty_eq_false_iff, List.eq_nil_iff_forall_not_mem]
  simp only [mem_toList, not_exists]

/-! ### Operations -/

/-- An operation that makes a mask or changes one. -/
inductive Change where
  /-- Make the mask without members. -/
  | empty
  /-- Make the mask that stands where none is given. -/
  | default
  /-- Make the mask of the first CPUs. -/
  | first (n : Nat)
  /-- Make the mask of a word. -/
  | ofWord (w : UInt64)
  /-- Add one CPU. -/
  | insert (cpu : Nat)
  /-- Take one CPU out. -/
  | erase (cpu : Nat)

namespace Change

/-- The operation on a mask. -/
def onMask (m : CpuMask) : Change → CpuMask
  | empty => .empty
  | default => Inhabited.default
  | first n => .first n
  | ofWord w => .ofWord w
  | insert cpu => m.insert cpu
  | erase cpu => m.erase cpu

/-- The operation on the word of a mask, step by step. -/
def onWord? (w : UInt64) : Change → Option UInt64
  | empty | default => some 0
  | first n => Guarded.first n
  | ofWord v => Guarded.ofBits v
  | insert cpu => Guarded.insert w cpu
  | erase cpu => Guarded.erase w cpu

/-- The operation on a set of numbers. -/
def onSet (S : Finset Nat) : Change → Finset Nat
  | empty | default => ∅
  | first n => Finset.range n
  | ofWord w => {c ∈ Finset.range 64 | w.toNat.testBit c}
  | insert cpu => Insert.insert cpu S
  | erase cpu => S.erase cpu

end Change

/-- The mask that a list of operations leads to. -/
def made (cs : List Change) : CpuMask := cs.foldl Change.onMask empty

/-- The set that the same operations lead to, each of them restricted to numbers of CPUs. -/
def reference (cs : List Change) : Finset Nat :=
  cs.foldl (fun S c => c.onSet S ∩ Finset.range maxCpus) ∅

/-- One operation, and the set that goes with it. -/
theorem toFinset_onMask (m : CpuMask) (c : Change) :
    (c.onMask m).toFinset = c.onSet m.toFinset ∩ Finset.range maxCpus := by
  have hlt : ∀ {cpu}, cpu ∈ m → cpu < maxCpus := lt_of_mem
  ext cpu
  rw [mem_toFinset, Finset.mem_inter, Finset.mem_range]
  cases c with
  | empty => simp [Change.onMask, Change.onSet]
  | default =>
    have hdefault : (default : CpuMask) = empty := rfl
    simp [Change.onMask, Change.onSet, hdefault]
  | first n => simp [Change.onMask, Change.onSet, mem_first]
  | ofWord w =>
    have hbit : w.toNat.testBit cpu = w.toBitVec.getLsbD cpu := rfl
    rw [Change.onMask, Change.onSet, mem_ofWord, Finset.mem_filter, Finset.mem_range, hbit]
    exact ⟨fun h => ⟨⟨Guarded.lt_width_of_lt h.1, h.2⟩, h.1⟩, fun h => ⟨h.2, h.1.2⟩⟩
  | insert c =>
    rw [Change.onMask, Change.onSet, mem_insert, Finset.mem_insert, mem_toFinset]
    grind
  | erase c =>
    rw [Change.onMask, Change.onSet, mem_erase, Finset.mem_erase, mem_toFinset]
    grind

/-- One operation on the word of a mask has a result, and this is the word of the other mask. -/
theorem onWord?_toWord (m : CpuMask) (c : Change) :
    c.onWord? m.toWord = some (c.onMask m).toWord := by
  cases c with
  | empty => rfl
  | default => rfl
  | first n => exact Guarded.first_eq n
  | ofWord w => exact Guarded.ofBits_eq w
  | insert cpu => exact Guarded.insert_toWord m cpu
  | erase cpu => exact Guarded.erase_toWord m cpu

/-! ### Any number of operations -/

theorem toFinset_foldl (cs : List Change) (m : CpuMask) :
    (cs.foldl Change.onMask m).toFinset =
      cs.foldl (fun S c => c.onSet S ∩ Finset.range maxCpus) m.toFinset := by
  induction cs generalizing m with
  | nil => rfl
  | cons c cs ih => rw [List.foldl_cons, List.foldl_cons, ih, toFinset_onMask]

theorem foldlM_toWord (cs : List Change) (m : CpuMask) :
    cs.foldlM Change.onWord? m.toWord = some (cs.foldl Change.onMask m).toWord := by
  induction cs generalizing m with
  | nil => rfl
  | cons c cs ih =>
    rw [List.foldlM_cons, onWord?_toWord, List.foldl_cons]
    exact ih (c.onMask m)

theorem toFinset_made (cs : List Change) : (made cs).toFinset = reference cs :=
  toFinset_foldl cs empty

/-- **A mask is the set that goes with it, in all that can be asked of it.**  After any list of
operations, which never fail on words, the word is the sum of the powers of two over the set, the
test for one number is membership, the loop over the bits comes to an end with the members in
ascending order, the bits counted are as many as these, and masks and words are equal exactly if
the sets are.  The mask of the word is the mask itself. -/
theorem made_exact (cs : List Change) :
    let m := made cs
    let S := reference cs
    cs.foldlM Change.onWord? 0 = some m.toWord ∧
      (m.toWord.toNat = ∑ c ∈ S, 2 ^ c ∧ m.toWord.toNat < 2 ^ 32) ∧
      ((∀ cpu, m.contains cpu = decide (cpu ∈ S) ∧
          Guarded.test m.toWord cpu = some (decide (cpu ∈ S))) ∧ ∀ cpu ∈ S, cpu < 32) ∧
      (Guarded.members m.toWord = some m.toList ∧ m.toList.Pairwise (· < ·) ∧
        ∀ cpu, cpu ∈ m.toList ↔ cpu ∈ S) ∧
      (m.card = m.toList.length ∧ m.toWord.toBitVec.cpop.toNat = m.toList.length) ∧
      ((m.isEmpty = true ↔ m.toList = []) ∧ (m.toWord = 0 ↔ m.toList = [])) ∧
      (∀ cs', (made cs' = m ↔ reference cs' = S) ∧
        ((made cs').toWord = m.toWord ↔ reference cs' = S)) ∧
      ofWord m.toWord = m ∧ Guarded.ofBits m.toWord = some m.toWord := by
  intro m S
  have hset : m.toFinset = S := toFinset_made cs
  have hmem : ∀ cpu, cpu ∈ S ↔ cpu ∈ m := fun cpu => by rw [← hset, mem_toFinset]
  have hcontains : ∀ cpu, m.contains cpu = decide (cpu ∈ S) := fun cpu => by
    rw [Bool.eq_iff_iff, contains_eq_true, decide_eq_true_iff, hmem]
  have hinj : ∀ cs', made cs' = m ↔ reference cs' = S := fun cs' => by
    rw [← toFinset_made, ← hset, toFinset_inj]
  refine ⟨foldlM_toWord cs empty, ⟨by rw [toNat_toWord, hset], toNat_toWord_lt m⟩,
    ⟨fun cpu => ⟨hcontains cpu, by rw [Guarded.test_toWord, hcontains]⟩,
      fun cpu h => lt_of_mem ((hmem cpu).1 h)⟩,
    ⟨Guarded.members_toWord m, pairwise_toList m, fun cpu => by rw [mem_toList, hmem]⟩,
    ⟨card_eq_length m, by rw [toNat_cpop_toWord, card_eq_length]⟩,
    ⟨isEmpty_eq_true_iff, by rw [Guarded.toWord_eq_zero_iff, isEmpty_eq_true_iff]⟩,
    fun cs' => ⟨hinj cs', by rw [toWord_inj, hinj]⟩, ofWord_toWord m, ?_⟩
  rw [Guarded.ofBits_eq, ofWord_toWord]

example : (made [.first 5, .insert 31, .insert 32, .erase 1]).toList = [0, 2, 3, 4, 31] := by decide

end CpuMask
end CpuSteward
