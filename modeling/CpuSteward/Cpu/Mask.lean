/-!
# Sets of CPUs

A `CpuMask` is a set of CPU numbers below `maxCpus`, stored as one bit per CPU.
A number from `maxCpus` on names no CPU: inserting or erasing it changes
nothing, and no mask contains it.

## Main definitions

* `CpuMask`: the sets, with `empty`, `first`, `insert`, `erase` and `contains`.
* `CpuMask.ofWord`, `CpuMask.toWord`: the 64-bit word of a mask.
* `CpuMask.toList`: the members in ascending order.

## Main results

* `CpuMask.mem_toList`: the list holds the members and nothing else.
* `CpuMask.mem_insert`, `CpuMask.mem_erase`, `CpuMask.mem_ofList`: membership
  after each change.
* `CpuMask.card_eq_length`: the bits that are set are as many as the members.
-/

namespace CpuSteward

/-- CPUs are numbered from 0 up to this bound, which is exclusive. -/
abbrev maxCpus : Nat := 32

/-- A set of CPU numbers below `maxCpus`. -/
@[ext]
structure CpuMask where
  /-- Bit `c` is set when CPU `c` is a member. -/
  bits : BitVec maxCpus
  deriving DecidableEq, Inhabited

namespace CpuMask

/-- The set without members. -/
def empty : CpuMask := ⟨0⟩

/-- The CPUs `0, …, n - 1`, as far as they exist. -/
def first (n : Nat) : CpuMask := ⟨(BitVec.allOnes (min n maxCpus)).setWidth maxCpus⟩

/-- The mask of a 64-bit word; bits that belong to no CPU are dropped. -/
def ofWord (w : UInt64) : CpuMask := ⟨w.toBitVec.setWidth maxCpus⟩

/-- The mask as a 64-bit word. -/
def toWord (m : CpuMask) : UInt64 := .ofBitVec (m.bits.setWidth 64)

/-- The test for membership. -/
def contains (m : CpuMask) (cpu : Nat) : Bool := decide (cpu < maxCpus) && m.bits.getLsbD cpu

instance : Membership Nat CpuMask := ⟨fun m cpu => m.contains cpu = true⟩

instance (cpu : Nat) (m : CpuMask) : Decidable (cpu ∈ m) :=
  inferInstanceAs (Decidable (m.contains cpu = true))

/-- Add one CPU. -/
def insert (m : CpuMask) (cpu : Nat) : CpuMask :=
  if cpu < maxCpus then ⟨m.bits ||| BitVec.twoPow maxCpus cpu⟩ else m

/-- Take one CPU out. -/
def erase (m : CpuMask) (cpu : Nat) : CpuMask :=
  if cpu < maxCpus then ⟨m.bits &&& ~~~BitVec.twoPow maxCpus cpu⟩ else m

/-- The CPUs of a list, as far as they exist. -/
def ofList (cpus : List Nat) : CpuMask := cpus.foldl insert empty

/-- The number of members, counted bit by bit. -/
def card (m : CpuMask) : Nat := m.bits.cpop.toNat

/-- Whether the set has no members. -/
def isEmpty (m : CpuMask) : Bool := m.bits == 0

/-- The members in ascending order. -/
def toList (m : CpuMask) : List Nat := (List.range maxCpus).filter m.contains

/-- The word of the mask in hexadecimal, labelled as a mask. -/
def text (m : CpuMask) : String :=
  "CpuMask(0x" ++ String.ofList (Nat.toDigits 16 m.toWord.toNat) ++ ")"

/-! ### Membership -/

theorem mem_iff {cpu : Nat} {m : CpuMask} :
    cpu ∈ m ↔ cpu < maxCpus ∧ m.bits.getLsbD cpu = true := by
  show m.contains cpu = true ↔ _
  simp [contains]

theorem lt_of_mem {cpu : Nat} {m : CpuMask} (h : cpu ∈ m) : cpu < maxCpus := (mem_iff.1 h).1

@[simp] theorem contains_eq_true {cpu : Nat} {m : CpuMask} : m.contains cpu = true ↔ cpu ∈ m :=
  Iff.rfl

@[simp] theorem not_mem_empty (cpu : Nat) : cpu ∉ empty := by
  simp [mem_iff, empty]

theorem isEmpty_eq_false_iff {m : CpuMask} : m.isEmpty = false ↔ ∃ cpu, cpu ∈ m := by
  have hzero : m.bits = 0 ↔ ∀ cpu, cpu ∉ m := by
    constructor
    · intro h cpu hm
      simp [mem_iff, h] at hm
    · intro h
      refine BitVec.eq_of_getLsbD_eq fun cpu hlt => ?_
      simpa using fun hb => h cpu (mem_iff.2 ⟨hlt, hb⟩)
  rw [isEmpty, beq_eq_false_iff_ne, ne_eq, hzero, Classical.not_forall_not]

theorem mem_insert {cpu c : Nat} {m : CpuMask} :
    c ∈ m.insert cpu ↔ c ∈ m ∨ (c = cpu ∧ c < maxCpus) := by
  unfold insert
  split
  · simp only [mem_iff, BitVec.getLsbD_or, BitVec.getLsbD_twoPow, Bool.or_eq_true,
      Bool.and_eq_true, decide_eq_true_eq]
    grind
  · simp only [mem_iff]
    grind

theorem mem_erase {cpu c : Nat} {m : CpuMask} : c ∈ m.erase cpu ↔ c ∈ m ∧ c ≠ cpu := by
  unfold erase
  split
  · simp only [mem_iff, BitVec.getLsbD_and, BitVec.getLsbD_not, BitVec.getLsbD_twoPow,
      Bool.and_eq_true, decide_eq_true_eq, Bool.not_eq_true', Bool.and_eq_false_iff,
      decide_eq_false_iff_not]
    grind
  · simp only [mem_iff]
    grind

theorem mem_toList {cpu : Nat} {m : CpuMask} : cpu ∈ m.toList ↔ cpu ∈ m := by
  simp only [toList, List.mem_filter, List.mem_range, contains_eq_true, and_iff_right_iff_imp]
  exact lt_of_mem

theorem mem_ofList {cpu : Nat} {cpus : List Nat} :
    cpu ∈ ofList cpus ↔ cpu ∈ cpus ∧ cpu < maxCpus := by
  have key : ∀ (l : List Nat) (m : CpuMask),
      cpu ∈ l.foldl insert m ↔ cpu ∈ m ∨ (cpu ∈ l ∧ cpu < maxCpus) := by
    intro l
    induction l with
    | nil => simp
    | cons c l ih =>
      intro m
      rw [List.foldl_cons, ih, mem_insert, List.mem_cons]
      grind
  rw [ofList, key]
  simp

/-! ### The members in order -/

theorem pairwise_toList (m : CpuMask) : m.toList.Pairwise (· < ·) :=
  List.pairwise_lt_range.filter _

/-- The bits that are set are as many as the members. -/
theorem card_eq_length (m : CpuMask) : m.card = m.toList.length := by
  have hcontains : m.contains = m.bits.getLsbD := by
    funext c
    by_cases h : c < maxCpus
    · simp [contains, h]
    · simp [contains, BitVec.getLsbD_of_ge, Nat.not_lt.1 h]
  have key : ∀ n, m.bits.cpopNatRec n 0 = ((List.range n).filter m.bits.getLsbD).length := by
    intro n
    induction n with
    | zero => rfl
    | succ n ih =>
      rw [BitVec.cpopNatRec_succ, BitVec.cpopNatRec_add, ih, List.range_succ, List.filter_append,
        List.length_append]
      cases hn : m.bits.getLsbD n <;> simp [hn]
  rw [card, BitVec.toNat_cpop, key, toList, hcontains]

theorem card_le (m : CpuMask) : m.card ≤ maxCpus := m.bits.toNat_cpop_le

end CpuMask
end CpuSteward
